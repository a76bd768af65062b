import Hologotchi.Control.Fields

/-! What the input paths put on the queue, and what they raise. -/
namespace Hologotchi.Control

open Python Library Library.Raising Library.Fallible Inputs

variable {payload : Fields} {field : String} {s t : Server}

theorem cleanRequiredText_ok {text words : Str} {maxLen : ℕ}
    (h : cleanRequiredText text field maxLen = .ok words) : words = joinWords text := by
  obtain ⟨-, h⟩ := of_ite_error h
  obtain ⟨-, h⟩ := of_ite_error h
  cases h
  rfl

theorem cleanRequiredText_ne_overflow {text : Str} {maxLen : ℕ} :
    cleanRequiredText text field maxLen ≠ .error .overflow := by
  simp only [cleanRequiredText]
  split
  · simp
  · split <;> simp

/-- A required text is put on the queue cleaned. -/
theorem put_cleaned_ok {q u : HostInputQueue} {text : Str} {maxLen : ℕ} {label : String}
    {make : Str → Str → HostInput} {item : HostInput}
    (h : (do let words ← cleanRequiredText text field maxLen; pure (q.put label (make words))) =
      Except.ok (item, u)) :
    u = (q.put label (make (joinWords text))).2 := by
  obtain ⟨words, hwords, h⟩ := bind_eq_ok.mp h
  cases h
  rw [cleanRequiredText_ok hwords]
  rfl

theorem put_cleaned_ne_overflow {q : HostInputQueue} {text : Str} {maxLen : ℕ} {label : String}
    {make : Str → Str → HostInput} :
    (do let words ← cleanRequiredText text field maxLen; pure (q.put label (make words))) ≠
      Except.error SubmitError.overflow := by
  rw [Ne, ← fails_eq_iff, fails_bind]
  rintro (hfails | ⟨words, -, hfails⟩)
  · exact cleanRequiredText_ne_overflow (fails_eq_iff.mp hfails)
  · exact fails_ok hfails

theorem submitBuildTestResult_ok {q u : HostInputQueue} {kind : ResultKind} {ok : Bool}
    {detail : Option Str} {item : HostInput}
    (h : q.submitBuildTestResult kind ok detail = .ok (item, u)) :
    u = (q.put (kind.name ++ "-") (resultInput kind ok (detail.map joinWords))).2 := by
  obtain ⟨words, hwords, h⟩ := bind_eq_ok.mp h
  cases h
  cases detail with
  | none =>
    cases hwords
    rfl
  | some text =>
    obtain ⟨cleaned, hcleaned, hwords⟩ := bind_eq_ok.mp hwords
    cases hwords
    rw [cleanRequiredText_ok hcleaned]
    rfl

theorem submitBuildTestResult_ne_overflow {q : HostInputQueue} {kind : ResultKind} {ok : Bool}
    {detail : Option Str} : q.submitBuildTestResult kind ok detail ≠ .error .overflow := by
  rw [Ne, ← fails_eq_iff, HostInputQueue.submitBuildTestResult, fails_bind]
  rintro (hfails | ⟨words, -, hfails⟩)
  · cases detail with
    | none => exact fails_ok hfails
    | some text =>
      rcases fails_bind.mp hfails with hfails | ⟨words, -, hfails⟩
      · exact cleanRequiredText_ne_overflow (fails_eq_iff.mp hfails)
      · exact fails_ok hfails
  · exact fails_ok hfails

theorem cleanTouchGesture_ok {gesture cleaned : Str}
    (h : cleanTouchGesture (.str gesture) = .ok cleaned) : cleaned = lower (strip gesture) := by
  simp only [cleanTouchGesture] at h
  split at h
  · cases h
    rfl
  · cases h

theorem cleanTouchDuration_ok {duration : Json} {durationMs : Option ℤ}
    (h : cleanTouchDuration duration = .ok durationMs) : durationMs = durationOf duration := by
  cases duration with
  | null =>
    cases h
    rfl
  | int n =>
    simp only [cleanTouchDuration] at h
    generalize fitsFloat n = fits at h
    obtain ⟨-, h⟩ := of_ite_error h
    obtain ⟨-, h⟩ := of_ite_error h
    cases h
    rfl
  | float x =>
    cases x with
    | finite x =>
      obtain ⟨-, h⟩ := of_ite_error h
      cases h
      rfl
    | nan | posInf | negInf => cases h
  | bool | str | arr | obj => cases h

theorem submitTouch_queue {q u : HostInputQueue} {gesture : Str} {duration : Json}
    {item : HostInput} (h : q.submitTouch (.str gesture) duration = .ok (item, u)) :
    u = (q.put "touch-" (touchInput (lower (strip gesture)) (durationOf duration))).2 := by
  obtain ⟨cleaned, hcleaned, h⟩ := bind_eq_ok.mp h
  obtain ⟨durationMs, hduration, h⟩ := bind_eq_ok.mp h
  cases h
  rw [cleanTouchGesture_ok hcleaned, cleanTouchDuration_ok hduration]
  rfl

theorem cleanTouchDuration_overflow {duration : Json} :
    cleanTouchDuration duration = .error .overflow ↔ TooLarge duration := by
  cases duration with
  | int n =>
    simp only [cleanTouchDuration, TooLarge]
    cases fitsFloat n with
    | false => simp
    | true =>
      simp only [Bool.not_true, Bool.false_eq_true, if_false, Bool.true_eq_false, iff_false]
      split <;> simp
  | float x =>
    cases x with
    | finite x =>
      simp only [cleanTouchDuration, TooLarge]
      split <;> simp
    | nan | posInf | negInf => simp [cleanTouchDuration, TooLarge]
  | null | bool | str | arr | obj => simp [cleanTouchDuration, TooLarge]

theorem submitTouch_overflow {q : HostInputQueue} {gesture : Str} {duration : Json} :
    q.submitTouch (.str gesture) duration = .error .overflow ↔
      lower (strip gesture) ∈ touchGestures ∧ TooLarge duration := by
  rw [← cleanTouchDuration_overflow]
  simp only [HostInputQueue.submitTouch, cleanTouchGesture]
  by_cases hgesture : lower (strip gesture) ∈ touchGestures
  · rw [if_pos hgesture]
    cases cleanTouchDuration duration with
    | ok durationMs => simp [bind, Except.bind, pure, Except.pure, hgesture]
    | error e => simp [bind, Except.bind, hgesture]
  · rw [if_neg hgesture]
    simp [bind, Except.bind, hgesture]

theorem submit_ok {item : HostInputQueue → Except SubmitError (HostInput × HostInputQueue)}
    {new : HostInput} (h : submit item s = .ok new t) :
    ∃ queue, item s.queue = .ok (new, queue) ∧ t = { s with queue } := by
  simp only [submit] at h
  split at h
  · rename_i hok
    cases h
    exact ⟨_, hok, rfl⟩
  · cases h

theorem atomic_submit {item : HostInputQueue → Except SubmitError (HostInput × HostInputQueue)} :
    Atomic (submit item) := by
  intro s e t h
  simp only [submit] at h
  split at h
  · cases h
  · cases h
    rfl

theorem raises_submit {item : HostInputQueue → Except SubmitError (HostInput × HostInputQueue)} :
    Raises Raised.Escapes (submit item) s ↔ item s.queue = .error .overflow := by
  simp only [Raises, submit]
  cases item s.queue with
  | ok new => simp
  | error e => cases e <;> simp [submitError, Raised.Escapes]

theorem submitMessage_ok
    {item : HostInputQueue → Str → Except SubmitError (HostInput × HostInputQueue)}
    {new : HostInput} (h : submitMessage payload item s = .ok new t) :
    ∃ text queue, textOf (Json.get payload "text") = some text ∧
      item s.queue text = .ok (new, queue) ∧ t = { s with queue } := by
  simp only [submitMessage] at h
  cases hfield : Json.get payload "text" with
  | str text =>
    simp only [hfield] at h
    obtain ⟨queue, hqueue, rfl⟩ := submit_ok h
    exact ⟨text, queue, rfl, hqueue, rfl⟩
  | null | bool | int | float | arr | obj =>
    simp only [hfield] at h
    cases h

theorem atomic_submitMessage
    {item : HostInputQueue → Str → Except SubmitError (HostInput × HostInputQueue)} :
    Atomic (submitMessage payload item) := by
  simp only [submitMessage]
  split
  · exact atomic_submit
  · exact atomic_throw

theorem raises_submitMessage
    {item : HostInputQueue → Str → Except SubmitError (HostInput × HostInputQueue)}
    (hitem : ∀ q text, item q text ≠ .error .overflow) :
    ¬ Raises Raised.Escapes (submitMessage payload item) s := by
  simp only [submitMessage]
  split
  · rw [raises_submit]
    exact hitem _ _
  · rw [raises_throw]
    exact id

theorem submitResult_ok {kind : ResultKind} {new : HostInput}
    (h : submitResult payload kind s = .ok new t) :
    ∃ ok, boolOf (Json.get payload "ok") = some ok ∧
      t = (Effect.submit (kind.name ++ "-") (resultInput kind ok
        ((textOf (Json.get payload "text")).map joinWords))).apply s := by
  simp only [submitResult] at h
  cases hok : Json.get payload "ok" with
  | bool ok =>
    simp only [hok] at h
    refine ⟨ok, rfl, ?_⟩
    cases hfield : Json.get payload "text" with
    | null =>
      simp only [hfield] at h
      obtain ⟨queue, hqueue, rfl⟩ := submit_ok h
      rw [submitBuildTestResult_ok hqueue]
      rfl
    | str text =>
      simp only [hfield] at h
      obtain ⟨queue, hqueue, rfl⟩ := submit_ok h
      rw [submitBuildTestResult_ok hqueue]
      rfl
    | bool | int | float | arr | obj =>
      simp only [hfield] at h
      cases h
  | null | int | float | str | arr | obj =>
    simp only [hok] at h
    cases h

theorem atomic_submitResult {kind : ResultKind} : Atomic (submitResult payload kind) := by
  simp only [submitResult]
  split
  · split
    · exact atomic_submit
    · exact atomic_submit
    · exact atomic_throw
  · exact atomic_throw

theorem raises_submitResult {kind : ResultKind} :
    ¬ Raises Raised.Escapes (submitResult payload kind) s := by
  simp only [submitResult]
  split
  · split
    · rw [raises_submit]
      exact submitBuildTestResult_ne_overflow
    · rw [raises_submit]
      exact submitBuildTestResult_ne_overflow
    · rw [raises_throw]
      exact id
  · rw [raises_throw]
    exact id

theorem submitTouch_ok {new : HostInput} (h : submitTouch payload s = .ok new t) :
    ∃ gesture, textOf (Json.get payload "gesture") = some gesture ∧
      t = (Effect.submit "touch-" (touchInput (lower (strip gesture))
        (durationOf (Json.get payload "duration_ms")))).apply s := by
  simp only [submitTouch] at h
  cases hgesture : Json.get payload "gesture" with
  | str gesture =>
    simp only [hgesture] at h
    refine ⟨gesture, rfl, ?_⟩
    cases hfield : Json.get payload "duration_ms" with
    | null | int | float =>
      simp only [hfield] at h
      obtain ⟨queue, hqueue, rfl⟩ := submit_ok h
      rw [submitTouch_queue hqueue]
      rfl
    | bool | str | arr | obj =>
      simp only [hfield] at h
      cases h
  | null | bool | int | float | arr | obj =>
    simp only [hgesture] at h
    cases h

theorem atomic_submitTouch : Atomic (submitTouch payload) := by
  simp only [submitTouch]
  split
  · split
    · exact atomic_submit
    · exact atomic_submit
    · exact atomic_submit
    · exact atomic_throw
  · exact atomic_throw

theorem raises_submitTouch :
    Raises Raised.Escapes (submitTouch payload) s ↔ Endpoint.touch.Oversized s payload := by
  simp only [submitTouch, Endpoint.Oversized]
  cases hgesture : Json.get payload "gesture" with
  | str gesture =>
    cases hfield : Json.get payload "duration_ms" with
    | null | int | float =>
      simp only [raises_submit, submitTouch_overflow, Json.str.injEq, exists_eq_left']
    | bool | str | arr | obj => simp [raises_throw, Raised.Escapes, TooLarge]
  | null | bool | int | float | arr | obj => simp [raises_throw, Raised.Escapes]

end Hologotchi.Control
