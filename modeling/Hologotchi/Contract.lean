import Hologotchi.Protocol
import Hologotchi.Library.Fallible

/-! What the host promises of a behavior command, and that the parser keeps the promise. -/
namespace Hologotchi.Protocol

open Python Library Fallible

/-- A text the device can render: 1 to 24 printable ASCII characters, no blank at either end. -/
structure Showable (text : Str) : Prop where
  ne_nil : text ≠ []
  length_le : text.length ≤ textMaxLen
  printable : ∀ c ∈ text, isPrintable c = true
  stripped : strip text = text

structure BehaviorCommand.Valid (c : BehaviorCommand) : Prop where
  mood : c.mood = c.animation.toMood
  alert : c.alert = (c.animation == .alert)
  duration : minDurationMs ≤ c.durationMs ∧ c.durationMs ≤ maxDurationMs
  text : ∀ t ∈ c.text, Showable t

namespace BehaviorCommand.Valid

variable {c : BehaviorCommand} {text : Option Str}

/-- A calm command: any animation but the alert, with its mood and without the flag. -/
theorem calm {a : Animation} {durationMs : ℤ} (ha : a ≠ .alert)
    (hduration : minDurationMs ≤ durationMs ∧ durationMs ≤ maxDurationMs)
    (htext : ∀ t ∈ text, Showable t) : Valid ⟨a.toMood, a, text, false, durationMs⟩ where
  mood := rfl
  alert := by simpa using ha
  duration := hduration
  text := htext

theorem withText (h : c.Valid) (htext : ∀ t ∈ text, t ∈ c.text) : Valid { c with text } where
  mood := h.mood
  alert := h.alert
  duration := h.duration
  text := fun t ht => h.text t (htext t ht)

theorem withDuration (h : c.Valid) {durationMs : ℤ}
    (hduration : minDurationMs ≤ durationMs ∧ durationMs ≤ maxDurationMs) :
    Valid { c with durationMs } where
  mood := h.mood
  alert := h.alert
  duration := hduration
  text := h.text

end BehaviorCommand.Valid

variable {raw : List (Str × Json)} {command : BehaviorCommand} {text : Option Str}

theorem textValue_stripped {t : Str} (h : textValue raw = .ok (some t)) :
    t ≠ [] ∧ strip t = t := by
  rw [textValue] at h
  split at h
  · cases h
  · rename_i s _
    have h := Except.ok.inj h
    split at h
    · contradiction
    · rename_i hne
      obtain rfl := Option.some.inj h
      exact ⟨hne, Trim.trim_trim isSpace s⟩
  · contradiction

theorem validateText_showable (h : validateText raw = .ok text) : ∀ t ∈ text, Showable t := by
  obtain ⟨value, hvalue, h⟩ := bind_eq_ok.mp h
  cases value with
  | none =>
    obtain rfl := Except.ok.inj h
    simp
  | some t =>
    obtain ⟨-, h⟩ := of_ite_error h
    obtain ⟨hlen, h⟩ := of_ite_error h
    obtain ⟨hprint, h⟩ := of_ite_error h
    obtain rfl := Except.ok.inj h
    obtain ⟨hne, hstrip⟩ := textValue_stripped hvalue
    have hall : ∀ c ∈ t, isPrintable c = true := by simpa using hprint
    intro s hs
    obtain rfl := Option.some.inj hs
    exact ⟨hne, Nat.not_lt.mp hlen, hall, hstrip⟩

theorem validateDuration_bounds {d : ℤ} (h : validateDuration raw = .ok d) :
    minDurationMs ≤ d ∧ d ≤ maxDurationMs := by
  rw [validateDuration] at h
  split at h
  · split at h
    · obtain rfl := Except.ok.inj h
      assumption
    · contradiction
  · contradiction

theorem validateAlert_eq {animation : Animation} {alert : Bool}
    (h : validateAlert raw animation = .ok alert) : alert = (animation == .alert) := by
  rw [validateAlert] at h
  split at h
  · split at h
    · obtain rfl := Except.ok.inj h
      assumption
    · contradiction
  · contradiction

theorem validateCommand_valid (h : validateCommand raw = .ok command) : command.Valid := by
  obtain ⟨animation, -, h⟩ := bind_eq_ok.mp h
  obtain ⟨mood, -, h⟩ := bind_eq_ok.mp h
  obtain ⟨alert, halert, h⟩ := bind_eq_ok.mp h
  obtain ⟨durationMs, hduration, h⟩ := bind_eq_ok.mp h
  obtain ⟨text, htext, h⟩ := bind_eq_ok.mp h
  obtain rfl := Except.ok.inj h
  exact {
    mood := rfl
    alert := validateAlert_eq halert
    duration := validateDuration_bounds hduration
    text := validateText_showable htext }

theorem validateBehaviorObject_valid {value : Json} {allowProposal : Bool}
    {intent bodyState : Option Str}
    (h : validateBehaviorObject value allowProposal = .ok (command, intent, bodyState)) :
    command.Valid := by
  rw [validateBehaviorObject.eq_def] at h
  split at h
  · obtain ⟨-, h⟩ := of_ite_error h
    obtain ⟨-, h⟩ := of_ite_error h
    obtain ⟨-, h⟩ := of_ite_error h
    obtain ⟨found, hfound, h⟩ := bind_eq_ok.mp h
    have hvalid := validateCommand_valid hfound
    have hcommand : found = command := by
      split at h
      · obtain ⟨intent', -, h⟩ := bind_eq_ok.mp h
        obtain ⟨bodyState', -, h⟩ := bind_eq_ok.mp h
        exact congrArg (·.1) (Except.ok.inj h)
      · exact congrArg (·.1) (Except.ok.inj h)
    rw [← hcommand]
    exact hvalid
  · contradiction

theorem parseBehaviorResponse_valid {dec : Decoder} {response : Str}
    (h : parseBehaviorResponse dec response = .ok command) : command.Valid := by
  obtain ⟨value, -, h⟩ := bind_eq_ok.mp h
  split at h
  · obtain rfl := Except.ok.inj h
    exact validateBehaviorObject_valid ‹_›
  · contradiction

theorem parseBehaviorProposal_valid {dec : Decoder} {response : Str} {p : BehaviorProposal}
    (h : parseBehaviorProposal dec response = .ok p) : p.behavior.Valid := by
  obtain ⟨value, -, h⟩ := bind_eq_ok.mp h
  split at h
  · obtain rfl := Except.ok.inj h
    exact validateBehaviorObject_valid ‹_›
  · contradiction

/-- A valid behavior with hints from the vocabularies. -/
structure BehaviorProposal.Valid (p : BehaviorProposal) : Prop where
  behavior : p.behavior.Valid
  intent : ∀ intent ∈ p.intent, intent ∈ allowedIntents.map str
  bodyState : ∀ state ∈ p.bodyState, state ∈ allowedBodyStates.map str

theorem optionalProposalField_mem {field : String} {allowed : List String} {soften : Bool}
    {value : Option Str} (h : optionalProposalField raw field allowed soften = .ok value) :
    ∀ cleaned ∈ value, cleaned ∈ allowed.map str := by
  intro cleaned hcleaned
  obtain rfl := Option.mem_def.mp hcleaned
  rw [optionalProposalField] at h
  split at h
  · cases h
  · dsimp only at h
    split at h
    · cases h
    · split at h
      · rename_i hmem
        obtain rfl := Option.some.inj (Except.ok.inj h)
        exact hmem
      · split at h
        · cases h
        · contradiction
  · contradiction

theorem parseBehaviorProposal_hints {dec : Decoder} {response : Str} {p : BehaviorProposal}
    (h : parseBehaviorProposal dec response = .ok p) : p.Valid := by
  have hbehavior := parseBehaviorProposal_valid h
  obtain ⟨value, -, h⟩ := bind_eq_ok.mp h
  split at h
  · rename_i command intent bodyState hchecked
    obtain rfl := Except.ok.inj h
    rw [validateBehaviorObject.eq_def] at hchecked
    split at hchecked
    · obtain ⟨-, hchecked⟩ := of_ite_error hchecked
      obtain ⟨-, hchecked⟩ := of_ite_error hchecked
      obtain ⟨-, hchecked⟩ := of_ite_error hchecked
      obtain ⟨found, -, hchecked⟩ := bind_eq_ok.mp hchecked
      rw [if_pos rfl] at hchecked
      obtain ⟨intent', hintent, hchecked⟩ := bind_eq_ok.mp hchecked
      obtain ⟨bodyState', hbody, hchecked⟩ := bind_eq_ok.mp hchecked
      obtain ⟨rfl, rfl, rfl⟩ := by simpa using Except.ok.inj hchecked
      exact ⟨hbehavior, optionalProposalField_mem hintent, optionalProposalField_mem hbody⟩
    · contradiction
  · contradiction

/-- A decoder that knows one reply. -/
def replyDecoder (reply : Str) (object : Json) : Decoder where
  loads s := if s = reply then .ok object else .error .other
  rawDecode _ _ := .error .other

theorem load_replyDecoder (reply : Str) (object : Json) :
    loadBehaviorObject (replyDecoder reply object) reply = .ok object := by
  simp [loadBehaviorObject, replyDecoder]

end Hologotchi.Protocol
