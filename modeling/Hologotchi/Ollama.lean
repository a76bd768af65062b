import Hologotchi.PetLoop.Valid

/-! What the loop makes of the model server's answers (`host/ollama.py`). -/
namespace Hologotchi.Ollama

open Python Library Protocol PetLoop

structure OllamaConfig where
  baseUrl : Str
  /-- `f"{timeout_seconds:g}s"`. -/
  timeoutText : Str

/-- How `urlopen` and `read` end. -/
inductive Transfer
  | body (rawResponse : List UInt8)
  | httpError (code : ℤ) (reason details : Str)
  | urlError (text : Str)
  | timeout

/-- What `generate_proposal` raises. -/
inductive Raised
  | ollamaError (message : Str)
  | unicodeDecodeError
  | attributeError
  | other

section

variable (decodeBytes : List UInt8 → Option Str) (dec : Decoder)

/-- `_request_model_text`; `decodeBytes` is how `json.loads` decodes bytes, where it can. -/
def requestModelText (config : OllamaConfig) : Transfer → Except Raised Str
  | .httpError code reason details =>
    let details := strip details
    let suffix := if details = [] then [] else str ": " ++ details
    .error (.ollamaError (str "Ollama request failed at " ++ config.baseUrl ++ str ": HTTP " ++
      FlatJson.printInt code ++ str " " ++ reason ++ suffix))
  | .urlError text =>
    .error (.ollamaError (str "failed to reach Ollama at " ++ config.baseUrl ++ str ": " ++ text))
  | .timeout =>
    .error (.ollamaError (str "Ollama request timed out at " ++ config.baseUrl ++ str " after " ++
      config.timeoutText))
  | .body rawResponse =>
    match decodeBytes rawResponse with
    | none => .error .unicodeDecodeError
    | some text =>
      match dec.loads text with
      | .error (.decode _) => .error (.ollamaError (str "Ollama returned invalid JSON"))
      | .error .other => .error .other
      | .ok (.obj parsed) =>
        match Json.get parsed "response" with
        | .str modelText => .ok modelText
        | _ =>
          .error (.ollamaError (str "Ollama response did not contain a string 'response' field"))
      -- No other value has a `get`.
      | .ok _ => .error .attributeError

/-- `generate_proposal`, with Python's `repr`. -/
def generateProposal (repr : Json → Str) (config : OllamaConfig) (transfer : Transfer) :
    Except Raised BehaviorProposal :=
  match requestModelText decodeBytes dec config transfer with
  | .error e => .error e
  | .ok modelText =>
    match parseBehaviorProposal dec modelText with
    | .ok proposal => .ok proposal
    | .error (.validation e) =>
      .error (.ollamaError (str "Ollama returned invalid behavior JSON: " ++ e.message repr))
    | .error .other => .error .other

/-- What `run_pet_loop` goes on with: only an `OllamaError` has a fallback. -/
def goOn (event : LoopEvent) (result : Except Raised BehaviorProposal) :
    Except Raised (BehaviorCommand × Option Str) :=
  match result with
  | .ok proposal => .ok (unpackProposal event (some proposal))
  | .error (.ollamaError _) => .ok (unpackProposal event none)
  | .error e => .error e

end

/-- Malformed text raises a `JSONDecodeError` and nothing else. -/
structure OnlyDecodeErrors (dec : Decoder) : Prop where
  loads : ∀ s, dec.loads s ≠ .error .other
  rawDecode : ∀ s i, dec.rawDecode s i ≠ .error .other

/-- A proposal or an `OllamaError`. -/
def Answered (result : Except Raised BehaviorProposal) : Prop :=
  (∃ proposal, result = .ok proposal ∧ proposal.Valid) ∨
    ∃ message, result = .error (.ollamaError message)

variable {decodeBytes : List UInt8 → Option Str} {dec : Decoder} {config : OllamaConfig}
  {repr : Json → Str} {event : LoopEvent} {transfer : Transfer} {body : List UInt8} {text : Str}

theorem firstObject_ne_other (h : OnlyDecodeErrors dec) (response : Str) (indices : List ℕ) :
    ∃ found, firstObject dec response indices = .ok found := by
  induction indices with
  | nil => exact ⟨none, rfl⟩
  | cons i indices ih =>
    rw [firstObject]
    split
    · exact ih
    · cases hraw : dec.rawDecode response i with
      | ok raw => exact ⟨some raw, rfl⟩
      | error e =>
        cases e with
        | decode cause => exact ih
        | other => exact absurd hraw (h.rawDecode response i)

theorem loadBehaviorObject_cases (h : OnlyDecodeErrors dec) (response : Str) :
    (∃ raw, loadBehaviorObject dec response = .ok raw) ∨
      ∃ e, loadBehaviorObject dec response = .error (.validation e) := by
  rw [loadBehaviorObject]
  cases hloads : dec.loads response with
  | ok raw => exact .inl ⟨raw, rfl⟩
  | error e =>
    cases e with
    | other => exact absurd hloads (h.loads response)
    | decode cause =>
      obtain ⟨found, hfound⟩ := firstObject_ne_other h response (List.range response.length)
      simp only [hfound]
      cases found with
      | some raw => exact .inl ⟨raw, rfl⟩
      | none => exact .inr ⟨_, rfl⟩

/-- A model text is a proposal or fails validation. -/
theorem parseBehaviorProposal_cases (h : OnlyDecodeErrors dec) (response : Str) :
    (∃ proposal, parseBehaviorProposal dec response = .ok proposal ∧ proposal.Valid) ∨
      ∃ e, parseBehaviorProposal dec response = .error (.validation e) := by
  cases hparse : parseBehaviorProposal dec response with
  | ok proposal => exact .inl ⟨proposal, rfl, parseBehaviorProposal_hints hparse⟩
  | error raised =>
    refine .inr ?_
    rcases loadBehaviorObject_cases h response with ⟨raw, hraw⟩ | ⟨e, he⟩
    · simp only [parseBehaviorProposal, hraw, bind, Except.bind] at hparse
      split at hparse
      · contradiction
      · exact ⟨_, hparse.symm⟩
    · rw [parseBehaviorProposal, he] at hparse
      exact ⟨e, hparse.symm⟩

/-- Once there is a model text, there is an answer. -/
theorem answered_of_modelText (h : OnlyDecodeErrors dec) {modelText : Str}
    (htext : requestModelText decodeBytes dec config transfer = .ok modelText) :
    Answered (generateProposal decodeBytes dec repr config transfer) := by
  simp only [generateProposal, htext]
  rcases parseBehaviorProposal_cases h modelText with ⟨proposal, hparse, hvalid⟩ | ⟨e, hparse⟩
  · rw [hparse]
    exact .inl ⟨proposal, rfl, hvalid⟩
  · rw [hparse]
    exact .inr ⟨_, rfl⟩

theorem answered_of_ollamaError {message : Str}
    (h : requestModelText decodeBytes dec config transfer = .error (.ollamaError message)) :
    Answered (generateProposal decodeBytes dec repr config transfer) := by
  simp only [generateProposal, h]
  exact .inr ⟨message, rfl⟩

theorem goOn_of_answered {result : Except Raised BehaviorProposal} (h : Answered result)
    (event : LoopEvent) : ∃ behavior bodyState,
      goOn event result = .ok (behavior, bodyState) ∧ behavior.Valid := by
  rcases h with ⟨proposal, rfl, hvalid⟩ | ⟨message, rfl⟩
  · exact ⟨_, _, rfl, hvalid.behavior⟩
  · exact ⟨_, _, rfl, fallbackBehavior_valid event⟩

/-- A transfer that fails always has its `OllamaError`. -/
theorem answered_of_failed (h : ∀ rawResponse, transfer ≠ .body rawResponse) :
    Answered (generateProposal decodeBytes dec repr config transfer) := by
  cases transfer with
  | body rawResponse => exact absurd rfl (h rawResponse)
  | httpError code reason details => exact answered_of_ollamaError rfl
  | urlError text => exact answered_of_ollamaError rfl
  | timeout => exact answered_of_ollamaError rfl

/-- The body can be decoded, and is an object if it is JSON at all. -/
def ObjectOrMalformed (decodeBytes : List UInt8 → Option Str) (dec : Decoder)
    (body : List UInt8) : Prop :=
  ∃ text, decodeBytes body = some text ∧
    ∀ value, dec.loads text = .ok value → ∃ fields, value = .obj fields

theorem requestModelText_undecodable (h : decodeBytes body = none) :
    requestModelText decodeBytes dec config (.body body) = .error .unicodeDecodeError := by
  simp only [requestModelText, h]

theorem requestModelText_not_object {value : Json} (h : decodeBytes body = some text)
    (hloads : dec.loads text = .ok value) (hvalue : ∀ fields, value ≠ .obj fields) :
    requestModelText decodeBytes dec config (.body body) = .error .attributeError := by
  cases value with
  | obj fields => exact absurd rfl (hvalue fields)
  | null | bool | int | float | str | arr => simp only [requestModelText, h, hloads]

theorem answered_of_object (h : OnlyDecodeErrors dec)
    (hbody : ObjectOrMalformed decodeBytes dec body) :
    Answered (generateProposal decodeBytes dec repr config (.body body)) := by
  obtain ⟨text, hdecode, hobject⟩ := hbody
  cases hloads : dec.loads text with
  | error e =>
    cases e with
    | other => exact absurd hloads (h.loads text)
    | decode cause =>
      have hraised : requestModelText decodeBytes dec config (.body body) =
          .error (.ollamaError (str "Ollama returned invalid JSON")) := by
        simp only [requestModelText, hdecode, hloads]
      exact answered_of_ollamaError hraised
  | ok value =>
    obtain ⟨fields, rfl⟩ := hobject value hloads
    cases hfield : Json.get fields "response" with
    | str modelText =>
      have htext : requestModelText decodeBytes dec config (.body body) = .ok modelText := by
        simp only [requestModelText, hdecode, hloads, hfield]
      exact answered_of_modelText h htext
    | null | bool | int | float | arr | obj =>
      have hraised : requestModelText decodeBytes dec config (.body body) = .error (.ollamaError
          (str "Ollama response did not contain a string 'response' field")) := by
        simp only [requestModelText, hdecode, hloads, hfield]
      exact answered_of_ollamaError hraised

theorem not_answered_of_raised {e : Raised} (he : ∀ message, e ≠ .ollamaError message)
    (h : requestModelText decodeBytes dec config transfer = .error e) :
    ¬ Answered (generateProposal decodeBytes dec repr config transfer) := by
  simp only [generateProposal, h]
  rintro (⟨proposal, hok, -⟩ | ⟨message, hmessage⟩)
  · contradiction
  · exact he message (Except.error.inj hmessage)

/-- The loop goes on from a body that is an object or no JSON, and from no other. -/
theorem generateProposal_answered_iff (hdec : OnlyDecodeErrors dec) (repr : Json → Str)
    (config : OllamaConfig) (event : LoopEvent) (body : List UInt8) :
    (Answered (generateProposal decodeBytes dec repr config (.body body)) ∧
      ∃ behavior bodyState, goOn event (generateProposal decodeBytes dec repr config (.body body))
        = .ok (behavior, bodyState) ∧ behavior.Valid) ↔
      ObjectOrMalformed decodeBytes dec body := by
  constructor
  · rintro ⟨hanswered, -⟩
    cases hdecode : decodeBytes body with
    | none =>
      exact absurd hanswered
        (not_answered_of_raised (by simp) (requestModelText_undecodable hdecode))
    | some text =>
      refine ⟨text, hdecode, fun value hloads => ?_⟩
      by_contra hvalue
      have hraised : requestModelText decodeBytes dec config (.body body) =
          .error .attributeError :=
        requestModelText_not_object hdecode hloads fun fields heq => hvalue ⟨fields, heq⟩
      exact not_answered_of_raised (by simp) hraised hanswered
  · intro hbody
    have hanswered : Answered (generateProposal decodeBytes dec repr config (.body body)) :=
      answered_of_object hdec hbody
    exact ⟨hanswered, goOn_of_answered hanswered event⟩

/-- What a model may answer. -/
def modelReply : Str :=
  str ("\x7b\"v\":1,\"kind\":\"behavior\",\"mood\":\"calm\",\"animation\":\"idle\"," ++
    "\"text\":null,\"alert\":false,\"duration_ms\":3000,\"body_state\":\"awake\"\x7d")

def modelObject : Json :=
  .obj [(str "v", .int 1), (str "kind", .str (str "behavior")), (str "mood", .str (str "calm")),
    (str "animation", .str (str "idle")), (str "text", .null), (str "alert", .bool false),
    (str "duration_ms", .int 3000), (str "body_state", .str (str "awake"))]

/-- The response that holds it as a string. -/
def modelResponse : Str := FlatJson.print [(str "response", .str modelReply)]

/-- A decoder that knows the response, the answer in it and the empty array. -/
def knownDecoder : Decoder where
  loads s :=
    if s = modelResponse then .ok (.obj [(str "response", .str modelReply)])
    else if s = modelReply then .ok modelObject
    else if s = str "[]" then .ok (.arr [])
    else .error (.decode (str "Expecting value"))
  rawDecode _ _ := .error (.decode (str "Expecting value"))

theorem onlyDecodeErrors_known : OnlyDecodeErrors knownDecoder where
  loads s := by
    simp only [knownDecoder]
    split_ifs <;> simp
  rawDecode s i := by simp [knownDecoder]

/-- A response whose text is decoded in turn. -/
theorem generateProposal_answered_iff_reply :
    let result := generateProposal decodeAscii knownDecoder (fun _ => []) ⟨[], []⟩
      (.body (encodeAscii modelResponse))
    (Answered result ∧ ∃ behavior bodyState,
      goOn ⟨[], [], [], none⟩ result = .ok (behavior, bodyState) ∧ behavior.Valid) ∧
    result.toOption.map (·.behavior) = some ⟨.calm, .idle, none, false, 3000⟩ := by
  have hdecode : decodeAscii (encodeAscii modelResponse) = some modelResponse := by decide +kernel
  have hbody : ObjectOrMalformed decodeAscii knownDecoder (encodeAscii modelResponse) := by
    refine ⟨modelResponse, hdecode, fun value hvalue => ?_⟩
    simp only [knownDecoder, if_true] at hvalue
    exact ⟨_, (Except.ok.inj hvalue).symm⟩
  refine ⟨(generateProposal_answered_iff onlyDecodeErrors_known _ _ _ _).mpr hbody, ?_⟩
  decide +kernel

/-- A body that is an array ends the loop with an `AttributeError`. -/
theorem not_generateProposal_always_answered :
    ¬ ∀ (decodeBytes : List UInt8 → Option Str) (dec : Decoder), OnlyDecodeErrors dec →
      ∀ (repr : Json → Str) (config : OllamaConfig) (event : LoopEvent) (body : List UInt8),
        Answered (generateProposal decodeBytes dec repr config (.body body)) ∧
          ∃ behavior bodyState,
            goOn event (generateProposal decodeBytes dec repr config (.body body)) =
              .ok (behavior, bodyState) ∧ behavior.Valid := by
  intro h
  obtain ⟨hanswered, -⟩ := h decodeAscii knownDecoder onlyDecodeErrors_known (fun _ => [])
    ⟨[], []⟩ ⟨[], [], [], none⟩ [91, 93]
  have hresponse : str "[]" ≠ modelResponse := by decide +kernel
  have hreply : str "[]" ≠ modelReply := by decide +kernel
  have hloads : knownDecoder.loads (str "[]") = .ok (.arr []) := by
    simp only [knownDecoder, if_neg hresponse, if_neg hreply, if_true]
  have hraised : requestModelText decodeAscii knownDecoder ⟨[], []⟩ (.body [91, 93]) =
      .error .attributeError :=
    requestModelText_not_object (show decodeAscii [91, 93] = some (str "[]") by decide) hloads
      (by simp)
  exact not_answered_of_raised (by simp) hraised hanswered

end Hologotchi.Ollama
