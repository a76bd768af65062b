import Hologotchi.Touch.Specification
import Mathlib.Data.List.Pairwise
import Mathlib.Tactic.Cases

/-! What one `update` does: debouncing, the phase machine and the rate limiter apart. -/
namespace Hologotchi.Touch

variable {c : TouchClassifier}

/-- The `u64` to `u32` cast never truncates. -/
theorem clampDuration_toNat (n : ℕ) :
    (TouchClassifier.clampDuration n).toNat = min n holdDurationMaxMs.toNat := by
  have hmax : holdDurationMaxMs.toNat = 60000 := rfl
  simp only [TouchClassifier.clampDuration]
  split
  · omega
  · simp only [UInt32.toNat_ofNat']
    omega

/-- Debouncing touches neither the phase nor the rate-limit baseline. -/
theorem debounce_frame (c : TouchClassifier) (pressed : Bool) (now : ℕ) :
    (c.debounce pressed now).1.phase = c.phase ∧
      (c.debounce pressed now).1.lastEmitMs = c.lastEmitMs ∧
      (c.debounce pressed now).1.lastEmitValid = c.lastEmitValid := by
  unfold TouchClassifier.debounce TouchClassifier.noteRaw
  split
  · simp
  · simp only
    split <;> split <;> simp

theorem debounce_initialized (c : TouchClassifier) (pressed : Bool) (now : ℕ) :
    (c.debounce pressed now).1.initialized = true := by
  unfold TouchClassifier.debounce TouchClassifier.noteRaw
  cases hc : c.initialized
  · simp
  · simp only [Bool.not_true, Bool.false_eq_true, ite_false]
    split <;> split <;> simp [hc]

/-- An accepted edge flips the stable level; no edge leaves it alone. -/
theorem debounce_level (hc : c.initialized = true) (pressed : Bool) (now : ℕ) :
    match (c.debounce pressed now).2 with
    | none => (c.debounce pressed now).1.stableLevel = c.stableLevel
    | some .down => c.stableLevel = false ∧ (c.debounce pressed now).1.stableLevel = true
    | some .up => c.stableLevel = true ∧ (c.debounce pressed now).1.stableLevel = false := by
  have hstable : (c.noteRaw pressed now).stableLevel = c.stableLevel := by
    simp only [TouchClassifier.noteRaw]
    split <;> rfl
  simp only [TouchClassifier.debounce]
  simp only [hc, Bool.not_true, Bool.false_eq_true, ite_false]
  by_cases h : (c.noteRaw pressed now).rawLevel ≠ (c.noteRaw pressed now).stableLevel ∧
      debounceMs ≤ now - (c.noteRaw pressed now).rawSinceMs
  · rw [if_pos h]
    rw [hstable] at h
    cases hr : (c.noteRaw pressed now).rawLevel <;> simp_all
  · rw [if_neg h]
    exact hstable

/-- What a phase does with a mark. -/
def Phase.next : Phase → Mark → Phase × Option Report
  | .idle, ⟨_, t, some .down⟩ => (.firstDown t, none)
  | .waitSecond r, ⟨_, t, some .down⟩ =>
    if t - r < doubletapWindowMs then (.drainRelease, some .doubleTap)
    else (.firstDown t, some .tap)
  | .firstDown s, ⟨_, t, some .up⟩ =>
    if holdMs ≤ t - s then (.idle, some (.hold (min (t - s) holdDurationMaxMs.toNat)))
    else (.waitSecond t, none)
  | .drainRelease, ⟨_, _, some .up⟩ => (.idle, none)
  | .waitSecond r, ⟨_, t, none⟩ =>
    if doubletapWindowMs ≤ t - r then (.idle, some .tap) else (.waitSecond r, none)
  | p, _ => (p, none)

/-- The gestures a phase recognizes along the marks, before rate limiting. -/
def candidates : Phase → List Mark → List (Mark × Report)
  | _, [] => []
  | p, m :: ms => ((p.next m).2.map (m, ·)).toList ++ candidates (p.next m).1 ms

/-- The time the rate limiter measures from. -/
def TouchClassifier.baseline (c : TouchClassifier) : Option ℕ :=
  if c.lastEmitValid then some c.lastEmitMs else none

theorem rateLimit_cons {g : Gesture} (hg : g = .tap ∨ g = .doubleTap) (last : Option ℕ) (m : Mark)
    (rest : List (Mark × Report)) :
    rateLimit last ((m, g.report) :: rest) =
      if ∃ t ∈ last, m.time - t < minEventGapMs then rateLimit last rest
      else (m, g.report) :: rateLimit (some m.time) rest := by
  rcases hg with rfl | rfl <;> rfl

/-- `emit_limited` is one step of the batch rate limiter. -/
theorem rateLimit_emitLimited (c : TouchClassifier) {g : Gesture} (hg : g = .tap ∨ g = .doubleTap)
    (m : Mark) (rest : List (Mark × Report)) :
    rateLimit c.baseline ((m, g.report) :: rest) =
      ((c.emitLimited g m.time).2.map fun g => (m, g.report)).toList ++
        rateLimit (c.emitLimited g m.time).1.baseline rest := by
  have hlimit : (∃ t ∈ c.baseline, m.time - t < minEventGapMs) ↔
      (c.lastEmitValid = true ∧ m.time - c.lastEmitMs < minEventGapMs) := by
    simp only [TouchClassifier.baseline]
    split <;> simp_all
  rw [rateLimit_cons hg]
  simp only [TouchClassifier.emitLimited]
  by_cases h : c.lastEmitValid = true ∧ m.time - c.lastEmitMs < minEventGapMs
  · rw [if_pos (hlimit.mpr h), if_pos h]
    rfl
  · rw [if_neg (mt hlimit.mp h), if_neg h]
    rfl

/-- What one handler does: the phase moves as `Phase.next` says, and the answer is the
candidate after one step of the rate limiter. -/
def Handles (c : TouchClassifier) (m : Mark) (r : TouchClassifier × Option Gesture) : Prop :=
  r.1.phase = (c.phase.next m).1 ∧
  ∀ rest, rateLimit c.baseline (((c.phase.next m).2.map (m, ·)).toList ++ rest) =
    (r.2.map fun g => (m, g.report)).toList ++ rateLimit r.1.baseline rest

/-- A handler that says nothing only has to move the phase. -/
theorem handles_quiet {m : Mark} {p : Phase} (h : c.phase.next m = (p, none)) :
    Handles c m ({ c with phase := p }, none) := by
  simp [Handles, h, TouchClassifier.baseline]

theorem handles_ignored {m : Mark} (h : c.phase.next m = (c.phase, none)) :
    Handles c m (c, none) := handles_quiet h

/-- A handler that ends in `emit_limited` follows the rate limiter. -/
theorem handles_emit {m : Mark} {p : Phase} {g : Gesture} (hg : g = .tap ∨ g = .doubleTap)
    (h : c.phase.next m = (p, some g.report)) :
    Handles c m ({ (c.emitLimited g m.time).1 with phase := p }, (c.emitLimited g m.time).2) := by
  refine ⟨by simp [h], fun rest => ?_⟩
  simpa [h, TouchClassifier.baseline] using rateLimit_emitLimited c hg m rest

theorem emitLimited_setPhase (c : TouchClassifier) (p : Phase) (g : Gesture) (t : ℕ) :
    ({ c with phase := p } : TouchClassifier).emitLimited g t =
      ({ (c.emitLimited g t).1 with phase := p }, (c.emitLimited g t).2) := by
  unfold TouchClassifier.emitLimited
  simp only
  split <;> rfl

theorem emitLimited_level (c : TouchClassifier) (g : Gesture) (t : ℕ) :
    (c.emitLimited g t).1.initialized = c.initialized ∧
      (c.emitLimited g t).1.stableLevel = c.stableLevel := by
  simp only [TouchClassifier.emitLimited]
  split <;> simp

/-- Only debouncing moves the levels. -/
theorem update_level (c : TouchClassifier) (pressed : Bool) (now : ℕ) :
    (c.update pressed now).1.initialized = true ∧
      (c.update pressed now).1.stableLevel = (c.debounce pressed now).1.stableLevel := by
  rw [← debounce_initialized c pressed now]
  simp only [TouchClassifier.update]
  generalize c.debounce pressed now = r
  obtain ⟨c, edge⟩ := r
  cases edge with
  | none =>
    unfold TouchClassifier.onTick
    simp only
    split
    · split <;> simp [emitLimited_level]
    · simp
  | some edge =>
    cases edge with
    | down =>
      unfold TouchClassifier.onPress
      simp only
      split
      · simp
      · split <;> simp [emitLimited_level]
      all_goals simp
    | up =>
      unfold TouchClassifier.onRelease
      simp only
      split
      · split <;> simp
      all_goals simp

theorem onTick_handles (c : TouchClassifier) {m : Mark} (hm : m.edge = none) :
    Handles c m (c.onTick m.time) := by
  obtain ⟨n, t, e⟩ := m
  subst hm
  simp only [TouchClassifier.onTick]
  cases hp : c.phase with
  | waitSecond r =>
    simp only
    split
    · rename_i hw
      rw [emitLimited_setPhase]
      exact handles_emit (.inl rfl) (by simp [hp, Phase.next, hw, Gesture.report])
    · rename_i hw
      exact handles_ignored (by simp [hp, Phase.next, hw])
  | idle => exact handles_ignored (by simp [hp, Phase.next])
  | firstDown s => exact handles_ignored (by simp [hp, Phase.next])
  | drainRelease => exact handles_ignored (by simp [hp, Phase.next])

theorem onPress_handles (c : TouchClassifier) {m : Mark} (hm : m.edge = some .down) :
    Handles c m (c.onPress m.time) := by
  obtain ⟨n, t, e⟩ := m
  subst hm
  simp only [TouchClassifier.onPress]
  cases hp : c.phase with
  | idle => exact handles_quiet (by simp [hp, Phase.next])
  | waitSecond r =>
    simp only
    split
    · rename_i hw
      rw [emitLimited_setPhase]
      exact handles_emit (.inr rfl) (by simp [hp, Phase.next, hw, Gesture.report])
    · rename_i hw
      exact handles_emit (.inl rfl) (by simp [hp, Phase.next, hw, Gesture.report])
  | firstDown s => exact handles_ignored (by simp [hp, Phase.next])
  | drainRelease => exact handles_ignored (by simp [hp, Phase.next])

theorem onRelease_handles (c : TouchClassifier) {m : Mark} (hm : m.edge = some .up) :
    Handles c m (c.onRelease m.time) := by
  obtain ⟨n, t, e⟩ := m
  subst hm
  simp only [TouchClassifier.onRelease]
  cases hp : c.phase with
  | firstDown s =>
    simp only
    split
    · rename_i hw
      simp [Handles, hp, Phase.next, hw, Gesture.report, clampDuration_toNat, rateLimit,
        TouchClassifier.baseline]
    · rename_i hw
      exact handles_quiet (by simp [hp, Phase.next, hw])
  | drainRelease => exact handles_quiet (by simp [hp, Phase.next])
  | idle => exact handles_ignored (by simp [hp, Phase.next])
  | waitSecond r => exact handles_ignored (by simp [hp, Phase.next])

/-- Every `update` handles the mark of its sample. -/
theorem update_handles (c : TouchClassifier) (n : ℕ) (pressed : Bool) (now : ℕ) :
    Handles c ⟨n, now, (c.debounce pressed now).2⟩ (c.update pressed now) := by
  obtain ⟨hp, hm, hv⟩ := debounce_frame c pressed now
  have hb : c.baseline = (c.debounce pressed now).1.baseline := by
    simp [TouchClassifier.baseline, hm, hv]
  simp only [Handles]
  rw [hb, ← hp]
  simp only [TouchClassifier.update]
  generalize c.debounce pressed now = r
  obtain ⟨c, edge⟩ := r
  cases edge with
  | none => exact onTick_handles c (m := ⟨n, now, none⟩) rfl
  | some edge =>
    cases edge with
    | down => exact onPress_handles c (m := ⟨n, now, some .down⟩) rfl
    | up => exact onRelease_handles c (m := ⟨n, now, some .up⟩) rfl

/-- The answers of a run are its candidates, rate limited. -/
theorem reportsFrom_eq_rateLimit (n : ℕ) (c : TouchClassifier) (samples : List (Bool × ℕ)) :
    (reportsFrom n c samples).map (fun e => (e.1, e.2.report)) =
      rateLimit c.baseline (candidates c.phase (marksFrom n c samples)) := by
  induction samples generalizing n c with
  | nil => simp [reportsFrom, marksFrom, candidates, rateLimit]
  | cons sample rest ih =>
    obtain ⟨pressed, now⟩ := sample
    obtain ⟨hphase, hlimit⟩ := update_handles c n pressed now
    rw [marksFrom, candidates, hlimit, ← hphase, ← ih, reportsFrom, List.map_append]
    cases (c.update pressed now).2 <;> simp

end Hologotchi.Touch
