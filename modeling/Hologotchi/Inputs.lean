import Hologotchi.Library.Words
import Hologotchi.Python

/-! The input queue of the host (`host/inputs.py`). -/
namespace Hologotchi.Inputs

open Python Library

def directMessageMaxLen : ℕ := 500
def indirectDetailMaxLen : ℕ := 240
def alertTextMaxLen : ℕ := 240
def touchGestures : List Str := [str "tap", str "hold", str "doubletap"]
/-- Upper bound on a reported hold duration. -/
def touchDurationMaxMs : ℤ := 60000

def presenceSignalSource : String := "presence_signal"
def touchSource : String := "touch"

structure HostInput where
  id : Str
  source : Str
  event : Str
  gesture : Option Str := none
  deriving DecidableEq, Repr

structure HostInputQueue where
  items : List HostInput := []
  nextId : ℕ := 1
  presencePending : Bool := false
  deriving DecidableEq, Repr

/-- What a submission raises: an `InputError` with its text, or the `OverflowError` of
`math.isfinite`. -/
inductive SubmitError
  | input (message : String)
  | overflow
  deriving DecidableEq, Repr

/-- `" ".join(text.split())`. -/
def joinWords (text : Str) : Str := [32].intercalate (Words.words isSpace text)

/-- `_clean_required_text` of a string. -/
def cleanRequiredText (text : Str) (field : String) (maxLen : ℕ) : Except SubmitError Str :=
  let cleaned := joinWords text
  if cleaned = [] then .error (.input (field ++ " must not be empty"))
  else if maxLen < cleaned.length then
    .error (.input (field ++ " must be at most " ++ toString maxLen ++
      " characters after trimming"))
  else .ok cleaned

def cleanOptionalText (text : Option Str) (field : String) (maxLen : ℕ) :
    Except SubmitError (Option Str) :=
  text.mapM (cleanRequiredText · field maxLen)

/-- The kinds of results, `BUILD_TEST_KINDS`. -/
inductive ResultKind
  | build
  | test
  deriving DecidableEq, Repr

def ResultKind.name : ResultKind → String
  | .build => "build"
  | .test => "test"

/-- `kind.capitalize()`. -/
def ResultKind.label : ResultKind → String
  | .build => "Build"
  | .test => "Test"

def directMessageInput (message id : Str) : HostInput where
  id := id
  source := str "direct_message"
  event := str "Direct user message: " ++ message

def resultInput (kind : ResultKind) (ok : Bool) (detail : Option Str) (id : Str) : HostInput where
  id := id
  source := str (kind.name ++ "_result")
  event := str (kind.label ++ (if ok then " passed." else " failed.")) ++
    detail.elim [] (32 :: ·)

def alertInput (message id : Str) : HostInput where
  id := id
  source := str "important_alert"
  event := str "Important alert: " ++ message

def cleanTouchGesture : Json → Except SubmitError Str
  | .str gesture =>
    let cleaned := lower (strip gesture)
    if cleaned ∈ touchGestures then .ok cleaned
    else .error (.input "gesture must be one of: doubletap, hold, tap")
  | _ => .error (.input "gesture must be a string")

def cleanTouchDuration : Json → Except SubmitError (Option ℤ)
  | .null => .ok none
  | .int n =>
    if !fitsFloat n then .error .overflow
    else if n < 0 then .error (.input "duration_ms must not be negative")
    else .ok (some (min n touchDurationMaxMs))
  | .float (.finite x) =>
    if x < 0 then .error (.input "duration_ms must not be negative")
    else .ok (some (min x.floor touchDurationMaxMs))
  | .float _ => .error (.input "duration_ms must be a finite number")
  | _ => .error (.input "duration_ms must be a number")

def touchEventText (gesture : Str) (durationMs : Option ℤ) : Str :=
  if gesture = str "hold" then
    match durationMs with
    | some d => str "Touch input: a gentle, soothing pet hold for " ++ FlatJson.printInt d ++ str "ms."
    | none => str "Touch input: a gentle, soothing pet hold."
  else if gesture = str "doubletap" then str "Touch input: a double-tap play invite."
  else str "Touch input: a quick boop tap to say hello."

def touchInput (gesture : Str) (durationMs : Option ℤ) (id : Str) : HostInput where
  id := id
  source := str touchSource
  event := touchEventText gesture durationMs
  gesture := some gesture

/-- A presence signal carries no detail. -/
def presenceInput (id : Str) : HostInput where
  id := id
  source := str presenceSignalSource
  event := str "Presence changed."

namespace HostInputQueue

/-- Take the next id and put the item it names. -/
def put (q : HostInputQueue) (label : String) (item : Str → HostInput) :
    HostInput × HostInputQueue :=
  let new := item (str label ++ FlatJson.decimal q.nextId)
  (new, { q with items := q.items ++ [new], nextId := q.nextId + 1 })

def submitDirectMessage (q : HostInputQueue) (text : Str) :
    Except SubmitError (HostInput × HostInputQueue) := do
  let message ← cleanRequiredText text "text" directMessageMaxLen
  pure (q.put "direct-" (directMessageInput message))

def submitBuildTestResult (q : HostInputQueue) (kind : ResultKind) (ok : Bool)
    (detail : Option Str) : Except SubmitError (HostInput × HostInputQueue) := do
  let cleanDetail ← cleanOptionalText detail "text" indirectDetailMaxLen
  pure (q.put (kind.name ++ "-") (resultInput kind ok cleanDetail))

def submitImportantAlert (q : HostInputQueue) (text : Str) :
    Except SubmitError (HostInput × HostInputQueue) := do
  let message ← cleanRequiredText text "text" alertTextMaxLen
  pure (q.put "alert-" (alertInput message))

def submitTouch (q : HostInputQueue) (gesture durationMs : Json) :
    Except SubmitError (HostInput × HostInputQueue) := do
  let cleanGesture ← cleanTouchGesture gesture
  let cleanDuration ← cleanTouchDuration durationMs
  pure (q.put "touch-" (touchInput cleanGesture cleanDuration))

/-- The locked part of `submit_presence_signal`: nothing when a signal is pending already. -/
def claimPresenceSignal (q : HostInputQueue) : Option HostInput × HostInputQueue :=
  if q.presencePending then (none, q)
  else (some (presenceInput (str "presence-" ++ FlatJson.decimal q.nextId)),
    { q with presencePending := true, nextId := q.nextId + 1 })

def enqueue (q : HostInputQueue) (item : HostInput) : HostInputQueue :=
  { q with items := q.items ++ [item] }

/-- `submit_presence_signal` without a thread in between. -/
def submitPresenceSignal (q : HostInputQueue) : HostInputQueue :=
  match q.claimPresenceSignal with
  | (some item, q) => q.enqueue item
  | (none, q) => q

/-- `_consume`. -/
def consume (q : HostInputQueue) (item : HostInput) : HostInputQueue :=
  if item.source = str presenceSignalSource then { q with presencePending := false } else q

@[simp] theorem items_consume (q : HostInputQueue) (item : HostInput) :
    (q.consume item).items = q.items := by
  unfold consume
  split <;> rfl

end HostInputQueue

/-- A touch in the vocabulary, with no duration or one that is not negative and fits. -/
def Submittable (gesture : Str) (durationMs : Option ℤ) : Prop :=
  gesture ∈ touchGestures ∧ ∀ d ∈ durationMs, 0 ≤ d ∧ fitsFloat d = true

/-- The value a sink call passes for the duration. -/
def durationValue : Option ℤ → Json
  | none => .null
  | some d => .int d

theorem clean_touchGestures {gesture : Str} (h : gesture ∈ touchGestures) :
    cleanTouchGesture (.str gesture) = .ok gesture := by
  have hclean : lower (strip gesture) = gesture := by
    simp only [touchGestures, List.mem_cons, List.not_mem_nil, or_false] at h
    rcases h with rfl | rfl | rfl <;> decide
  simp only [cleanTouchGesture, hclean, if_pos h]

/-- The queue accepts every such touch and only adds it at the end. -/
theorem submitTouch_ok (q : HostInputQueue) {gesture : Str} {durationMs : Option ℤ}
    (h : Submittable gesture durationMs) : ∃ item,
      q.submitTouch (.str gesture) (durationValue durationMs) =
        .ok (item, { q with items := q.items ++ [item], nextId := q.nextId + 1 }) ∧
      item.gesture = some gesture := by
  obtain ⟨hgesture, hduration⟩ := h
  have hclean : ∃ d, cleanTouchDuration (durationValue durationMs) = .ok d := by
    cases durationMs with
    | none => exact ⟨none, rfl⟩
    | some d =>
      obtain ⟨hpos, hfits⟩ := hduration d rfl
      refine ⟨some (min d touchDurationMaxMs), ?_⟩
      simp [durationValue, cleanTouchDuration, hfits, Int.not_lt.mpr hpos]
  obtain ⟨d, hd⟩ := hclean
  refine ⟨touchInput gesture d (str "touch-" ++ FlatJson.decimal q.nextId), ?_, rfl⟩
  simp only [HostInputQueue.submitTouch, clean_touchGestures hgesture, hd]
  rfl

end Hologotchi.Inputs
