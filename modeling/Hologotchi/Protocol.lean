import Hologotchi.Python
import Mathlib.Data.List.Sort

/-! The V1 behavior contract of the host (`host/protocol.py`) and the vocabulary it shares
with the firmware. -/
namespace Hologotchi

open Python Library

inductive Mood
  | calm
  | curious
  | happy
  | sleepy
  | worried
  | alert
  deriving DecidableEq, Repr

inductive Animation
  | idle
  | blink
  | lookAround
  | confused
  | walk
  | happy
  | play
  | excited
  | sleepy
  | nap
  | worried
  | alert
  deriving DecidableEq, Repr

namespace Mood

def name : Mood → String
  | .calm => "calm"
  | .curious => "curious"
  | .happy => "happy"
  | .sleepy => "sleepy"
  | .worried => "worried"
  | .alert => "alert"

/-- `ALLOWED_MOODS`. -/
def all : List Mood := [.calm, .curious, .happy, .sleepy, .worried, .alert]

def ofName (s : Str) : Option Mood := all.find? fun m => str m.name == s

end Mood

namespace Animation

def name : Animation → String
  | .idle => "idle"
  | .blink => "blink"
  | .lookAround => "look_around"
  | .confused => "confused"
  | .walk => "walk"
  | .happy => "happy"
  | .play => "play"
  | .excited => "excited"
  | .sleepy => "sleepy"
  | .nap => "nap"
  | .worried => "worried"
  | .alert => "alert"

/-- The keys of `ANIMATION_TO_MOOD`, in order. -/
def all : List Animation :=
  [.idle, .blink, .lookAround, .confused, .walk, .happy, .play, .excited, .sleepy, .nap,
    .worried, .alert]

def ofName (s : Str) : Option Animation := all.find? fun a => str a.name == s

/-- `ANIMATION_TO_MOOD`. -/
def toMood : Animation → Mood
  | .idle | .blink => .calm
  | .lookAround | .confused | .walk => .curious
  | .happy | .play | .excited => .happy
  | .sleepy | .nap => .sleepy
  | .worried => .worried
  | .alert => .alert

end Animation

namespace Protocol

def wireVersion : ℤ := 1
def wireKind : String := "behavior"
def textMaxLen : ℕ := 24
def minDurationMs : ℤ := 1000
def maxDurationMs : ℤ := 15000

def allowedFields : List String :=
  ["v", "kind", "mood", "animation", "text", "alert", "duration_ms"]

def allowedBodyStates : List String := ["awake", "drowsy", "sleeping", "waking"]

def allowedIntents : List String :=
  ["stay_asleep", "wake_up", "soft_reunion", "seek_attention", "play", "soothe", "settle",
    "celebrate", "comfort_self", "alert_owner"]

def proposalFields : List String := allowedFields ++ ["intent", "body_state"]

structure BehaviorCommand where
  mood : Mood
  animation : Animation
  text : Option Str
  alert : Bool
  durationMs : ℤ
  deriving DecidableEq, Repr

/-- `payload`, with string values already escaped as `json.dumps` does. -/
def BehaviorCommand.payload (c : BehaviorCommand) : FlatJson.Fields :=
  [(str "v", .int wireVersion), (str "kind", .str (str wireKind)),
    (str "mood", .str (str c.mood.name)), (str "animation", .str (str c.animation.name)),
    (str "text", .str (FlatJson.escape (c.text.getD []))), (str "alert", .bool c.alert),
    (str "duration_ms", .int c.durationMs)]

def BehaviorCommand.toJsonLine (c : BehaviorCommand) : Str := FlatJson.print c.payload ++ [10]

/-- A device behavior plus the host-only continuity hints. -/
structure BehaviorProposal where
  behavior : BehaviorCommand
  intent : Option Str
  bodyState : Option Str

/-- The failures of `_validate_behavior_object` and `_load_behavior_object`. -/
inductive ValidationError
  | notAnObject
  | unexpectedFields (fields : List Str)
  | wrongVersion (got : Json)
  | wrongKind (got : Json)
  | notAString (field : String)
  | unknownAnimation (got : Str)
  | unknownMood (got : Str)
  | alertNotBoolean
  | alertMismatch
  | durationNotInteger
  | durationOutOfRange
  | textNotAString
  | textNotAscii
  | textTooLong
  | textNotPrintable
  | optionalNotAString (field : String)
  | unknownOptional (field : String) (got : Str)
  | noJsonObject (cause : Str)
  | emptyOutput

/-- The message of an error; `repr` is Python's. -/
def ValidationError.message (repr : Json → Str) : ValidationError → Str
  | .notAnObject => str "model output must be a single JSON object"
  | .unexpectedFields fields =>
    str "unexpected fields in behavior JSON: " ++
      repr (.arr ((fields.mergeSort fun a b => decide (a ≤ b)).map .str))
  | .wrongVersion got => str "expected v=1, got " ++ repr got
  | .wrongKind got => str "expected kind='behavior', got " ++ repr got
  | .notAString field => str field ++ str " must be a string"
  | .unknownAnimation got => str "unknown animation " ++ repr (.str got)
  | .unknownMood got => str "unknown mood " ++ repr (.str got)
  | .alertNotBoolean => str "alert must be a boolean"
  | .alertMismatch => str "alert flag must match the alert animation exactly"
  | .durationNotInteger => str "duration_ms must be an integer"
  | .durationOutOfRange => str "duration_ms must be between 1000 and 15000"
  | .textNotAString => str "text must be a string when present"
  | .textNotAscii => str "text must stay ASCII so the device can render it"
  | .textTooLong => str "text must be at most 24 characters"
  | .textNotPrintable => str "text must use printable characters only"
  | .optionalNotAString field => str field ++ str " must be a string when present"
  | .unknownOptional field got => str "unknown " ++ str field ++ str " " ++ repr (.str got)
  | .noJsonObject cause => str "model output did not contain a JSON object: " ++ cause
  | .emptyOutput => str "model output was empty"

def requireString (raw : List (Str × Json)) (field : String) : Except ValidationError Str :=
  match Json.get raw field with
  | .str s => .ok s
  | _ => .error (.notAString field)

def textValue (raw : List (Str × Json)) : Except ValidationError (Option Str) :=
  match Json.getD raw "text" (.str []) with
  | .null => .ok none
  | .str s => .ok (if strip s = [] then none else some (strip s))
  | _ => .error .textNotAString

def validateText (raw : List (Str × Json)) : Except ValidationError (Option Str) := do
  match ← textValue raw with
  | none => pure none
  | some text =>
    if !isAscii text then throw .textNotAscii
    else if textMaxLen < text.length then throw .textTooLong
    else if !text.all isPrintable then throw .textNotPrintable
    else pure (some text)

def optionalProposalField (raw : List (Str × Json)) (field : String) (allowed : List String)
    (soften : Bool) : Except ValidationError (Option Str) :=
  match Json.get raw field with
  | .null => .ok none
  | .str value =>
    let cleaned := lower (strip value)
    if cleaned = [] then .ok none
    else if cleaned ∈ allowed.map str then .ok (some cleaned)
    else if soften then .ok none
    else .error (.unknownOptional field value)
  | _ => .error (.optionalNotAString field)

def validateDuration (raw : List (Str × Json)) : Except ValidationError ℤ :=
  match Json.get raw "duration_ms" with
  | .int d => if minDurationMs ≤ d ∧ d ≤ maxDurationMs then .ok d else .error .durationOutOfRange
  | _ => .error .durationNotInteger

def validateAlert (raw : List (Str × Json)) (animation : Animation) :
    Except ValidationError Bool :=
  match Json.get raw "alert" with
  | .bool alert => if alert = (animation == .alert) then .ok alert else .error .alertMismatch
  | _ => .error .alertNotBoolean

def validateAnimation (raw : List (Str × Json)) : Except ValidationError Animation := do
  let name ← requireString raw "animation"
  match Animation.ofName name with
  | some animation => pure animation
  | none => throw (.unknownAnimation name)

/-- The proposed mood only has to exist; the animation decides. -/
def validateMood (raw : List (Str × Json)) : Except ValidationError Mood := do
  let name ← requireString raw "mood"
  match Mood.ofName name with
  | some mood => pure mood
  | none => throw (.unknownMood name)

/-- The checks of the fields that make up the command, in order. -/
def validateCommand (raw : List (Str × Json)) : Except ValidationError BehaviorCommand := do
  let animation ← validateAnimation raw
  let _ ← validateMood raw
  let alert ← validateAlert raw animation
  let durationMs ← validateDuration raw
  let text ← validateText raw
  pure ⟨animation.toMood, animation, text, alert, durationMs⟩

def validateBehaviorObject (raw : Json) (allowProposal : Bool) :
    Except ValidationError (BehaviorCommand × Option Str × Option Str) :=
  match raw with
  | .obj raw =>
    let allowed := if allowProposal then proposalFields else allowedFields
    let unexpected := (raw.map (·.1)).filter (· ∉ allowed.map str)
    if unexpected ≠ [] then throw (.unexpectedFields unexpected)
    else if !(Json.get raw "v").equalsInt wireVersion then throw (.wrongVersion (Json.get raw "v"))
    else if !(Json.get raw "kind").equalsStr (str wireKind) then
      throw (.wrongKind (Json.get raw "kind"))
    else do
      let command ← validateCommand raw
      if allowProposal then
        let intent ← optionalProposalField raw "intent" allowedIntents false
        let bodyState ← optionalProposalField raw "body_state" allowedBodyStates true
        pure (command, intent, bodyState)
      else pure (command, none, none)
  | _ => throw .notAnObject

/-- How `json.loads` and `raw_decode` fail: with a `JSONDecodeError` and its text, or with
anything else. -/
inductive LoadError
  | decode (cause : Str)
  | other
  deriving DecidableEq

/-- `json.loads` and `JSONDecoder().raw_decode` at an index. -/
structure Decoder where
  loads : Str → Except LoadError Json
  rawDecode : Str → ℕ → Except LoadError Json

/-- What a parse can raise. -/
inductive Raised
  | validation (e : ValidationError)
  | other

/-- Try `raw_decode` at each opening brace in turn; only decode errors are skipped. -/
def firstObject (dec : Decoder) (response : Str) : List ℕ → Except Raised (Option Json)
  | [] => .ok none
  | i :: rest =>
    if response[i]? ≠ some 123 then firstObject dec response rest
    else match dec.rawDecode response i with
      | .ok raw => .ok (some raw)
      | .error (.decode _) => firstObject dec response rest
      | .error .other => .error .other

def loadBehaviorObject (dec : Decoder) (response : Str) : Except Raised Json :=
  match dec.loads response with
  | .ok raw => .ok raw
  | .error .other => .error .other
  | .error (.decode cause) => do
    match ← firstObject dec response (List.range response.length) with
    | some raw => .ok raw
    | none =>
      .error (.validation (if strip response = [] then .emptyOutput else .noJsonObject cause))

def parseBehaviorResponse (dec : Decoder) (response : Str) : Except Raised BehaviorCommand := do
  let raw ← loadBehaviorObject dec response
  match validateBehaviorObject raw false with
  | .ok (command, _, _) => .ok command
  | .error e => .error (.validation e)

def parseBehaviorProposal (dec : Decoder) (response : Str) : Except Raised BehaviorProposal := do
  let raw ← loadBehaviorObject dec response
  match validateBehaviorObject raw true with
  | .ok (command, intent, bodyState) => .ok ⟨command, intent, bodyState⟩
  | .error e => .error (.validation e)

end Protocol

end Hologotchi
