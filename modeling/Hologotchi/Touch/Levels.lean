import Hologotchi.Touch.Holds

/-! The phase of the gesture machine and the debounced level never contradict each other, so the
branches for a press within a press and for a release after a release are never taken. -/
namespace Hologotchi.Touch

open Library

variable {c : TouchClassifier} {n : ℕ} {pressed : Bool} {now : ℕ} {unreleased : Prop}

/-- The phase in which a first tap has been released. -/
def Phase.waiting : Phase → Prop
  | .waitSecond _ => True
  | .idle | .firstDown _ | .drainRelease => False

theorem Phase.held_iff {p : Phase} :
    p.held ↔ (∃ start, p = .firstDown start) ∨ p = .drainRelease := by
  cases p <;> simp [Phase.held]

theorem Phase.waiting_iff {p : Phase} : p.waiting ↔ ∃ released, p = .waitSecond released := by
  cases p <;> simp [Phase.waiting]

theorem Phase.not_waiting_of_held {p : Phase} (h : p.held) : ¬ p.waiting := by
  cases p with
  | waitSecond r => exact False.elim h
  | _ => exact id

/-- What the phase tells about the debounced level. An idle machine under a high level is one
whose first contact has been there from the start and is still `unreleased`. -/
structure InStep (c : TouchClassifier) (unreleased : Prop) : Prop where
  held : Grounded c
  waiting : c.phase.waiting → c.stableLevel = false
  idle : c.phase = .idle → c.stableLevel = true → unreleased

theorem Phase.next_waiting_of_quiet {p : Phase} {t : ℕ}
    (h : (p.next ⟨n, t, none⟩).1.waiting) : p.waiting := by
  cases p with
  | waitSecond r => trivial
  | _ => exact h

theorem Phase.next_idle_of_quiet {p : Phase} {t : ℕ} (h : (p.next ⟨n, t, none⟩).1 = .idle) :
    p = .idle ∨ p.waiting := by
  cases p with
  | waitSecond r => exact .inr trivial
  | _ => exact .inl h

/-- A Down edge leads out of the quiet phases. -/
theorem Phase.next_held_of_down {p : Phase} {t : ℕ} : (p.next ⟨n, t, some .down⟩).1.held := by
  cases p with
  | waitSecond r =>
    simp only [Phase.next]
    split <;> trivial
  | _ => trivial

/-- Whatever the edge, the next sample leaves phase and level in step. -/
theorem InStep.step (hi : c.initialized = true) (h : InStep c unreleased) (pressed : Bool)
    (now : ℕ) : InStep (c.update pressed now).1
      (unreleased ∧ (c.debounce pressed now).2 ≠ some .up) := by
  have hphase := update_phase c 0 pressed now
  have hstable := (update_level c pressed now).2
  have hlevel := debounce_level hi pressed now
  have hheld : Grounded (c.update pressed now).1 := grounded_step hi h.held
  cases he : (c.debounce pressed now).2 with
  | none =>
    simp only [he] at hphase hlevel
    have hsame : (c.update pressed now).1.stableLevel = c.stableLevel := hstable.trans hlevel
    refine ⟨hheld, ?_, ?_⟩
    · intro hwaiting
      rw [hphase] at hwaiting
      rw [hsame]
      exact h.waiting (Phase.next_waiting_of_quiet hwaiting)
    · intro hidle hhigh
      rw [hphase] at hidle
      rw [hsame] at hhigh
      rcases Phase.next_idle_of_quiet hidle with hidle | hwaiting
      · exact ⟨h.idle hidle hhigh, by simp⟩
      -- An expired window leaves the machine idle, but under a low level.
      · simp [h.waiting hwaiting] at hhigh
  | some edge =>
    cases edge with
    | down =>
      have hdown : (c.update pressed now).1.phase.held := by
        rw [hphase, he]
        exact Phase.next_held_of_down
      refine ⟨hheld, ?_, ?_⟩
      · intro hwaiting
        exact (Phase.not_waiting_of_held hdown hwaiting).elim
      · intro hidle
        simp [hidle, Phase.held] at hdown
    | up =>
      simp only [he] at hlevel
      have hlow : (c.update pressed now).1.stableLevel = false := hstable.trans hlevel.2
      refine ⟨hheld, ?_, ?_⟩
      · intro _
        exact hlow
      · intro _ hhigh
        simp [hlow] at hhigh

/-- A whole stream keeps phase and level in step. -/
theorem InStep.run (hi : c.initialized = true) (h : InStep c unreleased)
    (samples : List (Bool × ℕ)) : InStep (classifierAfter c samples)
      (unreleased ∧ ∀ m ∈ marksFrom n c samples, m.edge ≠ some .up) := by
  induction samples generalizing n c unreleased with
  | nil => exact ⟨h.held, h.waiting, fun hidle hhigh => ⟨h.idle hidle hhigh, by simp [marksFrom]⟩⟩
  | cons sample rest ih =>
    obtain ⟨pressed, now⟩ := sample
    have hrest := ih (n := n + 1) (update_level c pressed now).1 (h.step hi pressed now)
    refine ⟨hrest.held, hrest.waiting, ?_⟩
    intro hidle hhigh
    obtain ⟨⟨hunreleased, hedge⟩, hlater⟩ := hrest.idle hidle hhigh
    exact ⟨hunreleased, by simpa [marksFrom] using ⟨hedge, hlater⟩⟩

/-- The first sample seeds the level and leaves the machine idle. -/
theorem inStep_first (first : Bool × ℕ) :
    InStep (TouchClassifier.new.update first.1 first.2).1 (first.1 = true) where
  held := by
    intro hheld
    simp [TouchClassifier.update, TouchClassifier.debounce, TouchClassifier.new,
      TouchClassifier.onTick, Phase.held] at hheld
  waiting := by
    intro hwaiting
    simp [TouchClassifier.update, TouchClassifier.debounce, TouchClassifier.new,
      TouchClassifier.onTick, Phase.waiting] at hwaiting
  idle := by
    intro _ hhigh
    simpa [TouchClassifier.update, TouchClassifier.debounce, TouchClassifier.new,
      TouchClassifier.onTick] using hhigh

theorem classifierAfter_initialized (first : Bool × ℕ) (samples : List (Bool × ℕ)) :
    (classifierAfter .new (first :: samples)).initialized = true :=
  finalState_invariant (P := fun c => c.initialized = true)
    (fun c s _ => (update_level c s.1 s.2).1) (update_level .new first.1 first.2).1 samples

theorem inStep_after (first : Bool × ℕ) (samples : List (Bool × ℕ)) :
    InStep (classifierAfter .new (first :: samples))
      (first.1 = true ∧ ∀ m ∈ marks (first :: samples), m.edge ≠ some .up) := by
  have hrun := (inStep_first first).run (n := 1) (update_level .new first.1 first.2).1 samples
  refine ⟨hrun.held, hrun.waiting, ?_⟩
  intro hidle hhigh
  obtain ⟨hpressed, hlater⟩ := hrun.idle hidle hhigh
  have hseed : (TouchClassifier.new.debounce first.1 first.2).2 = none := rfl
  exact ⟨hpressed, by simpa [marks, marksFrom, hseed] using hlater⟩

/-- No press begins while one is in progress. -/
theorem not_held_on_press (first : Bool × ℕ) (samples : List (Bool × ℕ))
    (he : ((classifierAfter .new (first :: samples)).debounce pressed now).2 = some .down) :
    ¬ (classifierAfter .new (first :: samples)).phase.held := by
  intro hheld
  have hlevel := debounce_level (classifierAfter_initialized first samples) pressed now
  have hhigh := (inStep_after first samples).held hheld
  simp [he, hhigh] at hlevel

/-- No press ends while a first tap is waiting for its second. -/
theorem not_waiting_on_release (first : Bool × ℕ) (samples : List (Bool × ℕ))
    (he : ((classifierAfter .new (first :: samples)).debounce pressed now).2 = some .up) :
    ¬ (classifierAfter .new (first :: samples)).phase.waiting := by
  intro hwaiting
  have hlevel := debounce_level (classifierAfter_initialized first samples) pressed now
  have hlow := (inStep_after first samples).waiting hwaiting
  simp [he, hlow] at hlevel

/-- The phase and the debounced level agree after every stream: a press in progress is seen on
the level, a released tap too, and an idle machine under a high level has seen the contact since
the first sample. No press begins within another one and none ends twice. -/
theorem phase_agrees_with_level :
    (∀ (first : Bool × ℕ) (samples : List (Bool × ℕ)),
      let c := classifierAfter .new (first :: samples)
      ((∃ start, c.phase = .firstDown start) ∨ c.phase = .drainRelease → c.stableLevel = true) ∧
        (∀ released, c.phase = .waitSecond released → c.stableLevel = false) ∧
        (c.phase = .idle → c.stableLevel = true →
          first.1 = true ∧ ∀ m ∈ marks (first :: samples), m.edge ≠ some .up)) ∧
    ∀ (samples : List (Bool × ℕ)) (pressed : Bool) (now : ℕ) (c' : TouchClassifier),
      let c := classifierAfter .new samples
      (c.debounce pressed now = (c', some .down) → c.update pressed now = c'.onPress now ∧
          c'.phase ≠ .drainRelease ∧ ∀ start, c'.phase ≠ .firstDown start) ∧
        (c.debounce pressed now = (c', some .up) → c.update pressed now = c'.onRelease now ∧
          ∀ released, c'.phase ≠ .waitSecond released) := by
  constructor
  · intro first samples c
    have h := inStep_after first samples
    refine ⟨?_, ?_, h.idle⟩
    · intro hheld
      exact h.held (Phase.held_iff.mpr hheld)
    · intro released hwaiting
      exact h.waiting (Phase.waiting_iff.mpr ⟨released, hwaiting⟩)
  · intro samples pressed now c' c
    cases samples with
    | nil =>
      -- The sample that seeds the level is no edge.
      have hseed : (c.debounce pressed now).2 = none := rfl
      constructor <;> intro h <;> simp [h] at hseed
    | cons first samples =>
      have hphase : (c.debounce pressed now).1.phase = c.phase := (debounce_frame c pressed now).1
      constructor
      · intro h
        have hfree := not_held_on_press first samples (congrArg Prod.snd h)
        rw [Phase.held_iff, not_or, not_exists, ← hphase, h] at hfree
        exact ⟨by simp [TouchClassifier.update, h], hfree.2, hfree.1⟩
      · intro h
        have hfree := not_waiting_on_release first samples (congrArg Prod.snd h)
        rw [Phase.waiting_iff, not_exists, ← hphase, h] at hfree
        exact ⟨by simp [TouchClassifier.update, h], hfree⟩

end Hologotchi.Touch
