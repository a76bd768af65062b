import Hologotchi.Touch.Classifier
import Hologotchi.Library.Runs
import Mathlib.Data.List.Pairwise
import Mathlib.Tactic.Cases

/-! Contact bounce shorter than the debounce time never shows in the answers. -/
namespace Hologotchi.Touch

open Library TouchClassifier

variable {c c' : TouchClassifier} {block rest rest' samples samples' : List (Bool × ℕ)}
  {l : Bool} {r t now : ℕ}

/-- What `update` returns along the stream, sample by sample. -/
def updates (c : TouchClassifier) (samples : List (Bool × ℕ)) : List (Option Gesture) :=
  answers (fun c s => c.update s.1 s.2) c samples

/-- The classifier after the stream. -/
def classifierAfter (c : TouchClassifier) (samples : List (Bool × ℕ)) : TouchClassifier :=
  finalState (fun c s => c.update s.1 s.2) c samples

theorem updates_append (c : TouchClassifier) (samples later : List (Bool × ℕ)) :
    updates c (samples ++ later) = updates c samples ++ updates (classifierAfter c samples) later :=
  answers_append c samples later

theorem classifierAfter_append (c : TouchClassifier) (samples later : List (Bool × ℕ)) :
    classifierAfter c (samples ++ later) = classifierAfter (classifierAfter c samples) later :=
  finalState_append c samples later

/-- Samples at the level opposite to the settled one, over less than the debounce time. -/
structure Glitch (c : TouchClassifier) (block : List (Bool × ℕ)) : Prop where
  seeded : c.initialized = true
  settled : c.rawLevel = c.stableLevel
  opposite : ∀ b ∈ block, b.1 = !c.stableLevel
  brief : ∀ first ∈ block.head?, ∀ last ∈ block.getLast?, last.2 - first.2 < debounceMs

/-- The second stream is the first with some of its glitches levelled out. Each of them is
followed by a sample back at the settled level. -/
inductive Quieted : TouchClassifier → List (Bool × ℕ) → List (Bool × ℕ) → Prop
  | nil (c : TouchClassifier) : Quieted c [] []
  | keep {c : TouchClassifier} (pressed : Bool) (now : ℕ) {rest rest' : List (Bool × ℕ)}
      (later : Quieted (c.update pressed now).1 rest rest') :
      Quieted c ((pressed, now) :: rest) ((pressed, now) :: rest')
  | level {c : TouchClassifier} {block : List (Bool × ℕ)} (glitch : Glitch c block) (now : ℕ)
      {rest rest' : List (Bool × ℕ)}
      (later : Quieted (classifierAfter c (block ++ [(c.stableLevel, now)])) rest rest') :
      Quieted c (block ++ (c.stableLevel, now) :: rest)
        (block.map (fun b => (c.stableLevel, b.2)) ++ (c.stableLevel, now) :: rest')

/-- The classifier with another raw level and debounce timer. -/
def withRaw (c : TouchClassifier) (l : Bool) (r : ℕ) : TouchClassifier :=
  { c with rawLevel := l, rawSinceMs := r }

theorem emitLimited_withRaw (c : TouchClassifier) (g : Gesture) :
    (withRaw c l r).emitLimited g now =
      (withRaw (c.emitLimited g now).1 l r, (c.emitLimited g now).2) := by
  unfold emitLimited withRaw
  by_cases h : c.lastEmitValid = true ∧ now - c.lastEmitMs < minEventGapMs <;> simp [h]

theorem onTick_withRaw (c : TouchClassifier) :
    (withRaw c l r).onTick now = (withRaw (c.onTick now).1 l r, (c.onTick now).2) := by
  have hphase : (withRaw c l r).phase = c.phase := rfl
  unfold onTick
  rw [hphase]
  split
  · split
    · exact emitLimited_withRaw { c with phase := .idle } .tap
    · rfl
  · rfl

/-- A tick moves neither level. -/
theorem onTick_levels (c : TouchClassifier) (now : ℕ) :
    (c.onTick now).1.initialized = c.initialized ∧ (c.onTick now).1.rawLevel = c.rawLevel ∧
      (c.onTick now).1.rawSinceMs = c.rawSinceMs ∧
      (c.onTick now).1.stableLevel = c.stableLevel := by
  unfold onTick emitLimited
  split
  · split
    · dsimp only
      split <;> simp
    · simp
  · simp

/-- A sample that changes the raw level restarts the timer, and is a tick otherwise. -/
theorem update_changed (hi : c.initialized = true) {pressed : Bool} (hp : pressed ≠ c.rawLevel)
    (now : ℕ) : c.update pressed now =
      (withRaw (c.onTick now).1 pressed now, (c.onTick now).2) := by
  have hquiet : c.debounce pressed now = (withRaw c pressed now, none) := by
    simp [debounce, noteRaw, hi, hp, debounceMs, withRaw]
  simp only [update, hquiet]
  exact onTick_withRaw c

/-- A sample at the raw level is a tick, while that is settled or has not lasted. -/
theorem update_unchanged (hi : c.initialized = true) (now : ℕ)
    (hq : c.rawLevel = c.stableLevel ∨ now - c.rawSinceMs < debounceMs) :
    c.update c.rawLevel now = c.onTick now := by
  have hquiet : c.debounce c.rawLevel now = (c, none) := by
    rcases hq with hq | hq
    · simp [debounce, noteRaw, hi, hq]
    · simp [debounce, noteRaw, hi, Nat.not_le.mpr hq]
  simp [update, hquiet]

/-- Whatever the first run's raw level is, a run that stayed at the settled level ticks. -/
theorem update_levelled (hi : c.initialized = true) (r now : ℕ) :
    (withRaw c c.stableLevel r).update c.stableLevel now =
      (withRaw (c.onTick now).1 c.stableLevel r, (c.onTick now).2) := by
  rw [← onTick_withRaw c]
  exact update_unchanged (c := withRaw c c.stableLevel r) hi now (.inl rfl)

/-- Equal, but for a debounce timer that cannot matter: the level it measures is settled. -/
def Similar (c c' : TouchClassifier) : Prop :=
  c = c' ∨ c.initialized = true ∧ c.rawLevel = c.stableLevel ∧ ∃ r, c' = withRaw c c.stableLevel r

/-- In the middle of a glitch that began at `t`, which the second run has not seen. -/
def Apart (t : ℕ) (c c' : TouchClassifier) : Prop :=
  c.initialized = true ∧ c.rawLevel = (!c.stableLevel) ∧ c.rawSinceMs = t ∧
    ∃ r, c' = withRaw c c.stableLevel r

/-- The same sample keeps two runs similar, and both answer alike. -/
theorem Similar.step (h : Similar c c') (pressed : Bool) (now : ℕ) :
    Similar (c.update pressed now).1 (c'.update pressed now).1 ∧
      (c.update pressed now).2 = (c'.update pressed now).2 := by
  rcases h with rfl | ⟨hi, hsettled, r, rfl⟩
  · exact ⟨.inl rfl, rfl⟩
  · by_cases hp : pressed = c.stableLevel
    · obtain ⟨hti, htraw, -, htstable⟩ := onTick_levels c now
      have hleft := update_unchanged hi now (.inl hsettled)
      rw [hsettled] at hleft
      rw [hp, hleft, update_levelled hi]
      refine ⟨.inr ⟨hti.trans hi, ?_, r, ?_⟩, rfl⟩
      · rw [htraw, htstable, hsettled]
      · rw [htstable]
    · have hraw : pressed ≠ c.rawLevel := by rwa [hsettled]
      have hright := update_changed (c := withRaw c c.stableLevel r) hi hp now
      rw [update_changed hi hraw, hright, onTick_withRaw]
      exact ⟨.inl rfl, rfl⟩

theorem Similar.levelled (h : Similar c c') (hsettled : c.rawLevel = c.stableLevel) :
    ∃ r, c' = withRaw c c.stableLevel r := by
  rcases h with rfl | ⟨-, -, hc'⟩
  · exact ⟨c.rawSinceMs, by rw [← hsettled]; rfl⟩
  · exact hc'

/-- The first sample of a glitch takes the runs apart. -/
theorem Similar.glitch_begins (h : Similar c c') (hi : c.initialized = true)
    (hsettled : c.rawLevel = c.stableLevel) (now : ℕ) :
    Apart now (c.update (!c.stableLevel) now).1 (c'.update c.stableLevel now).1 ∧
      (c.update (!c.stableLevel) now).1.stableLevel = c.stableLevel ∧
      (c.update (!c.stableLevel) now).2 = (c'.update c.stableLevel now).2 := by
  obtain ⟨r, rfl⟩ := h.levelled hsettled
  obtain ⟨hti, -, -, htstable⟩ := onTick_levels c now
  have hne : (!c.stableLevel) ≠ c.rawLevel := by simp [hsettled]
  rw [update_changed hi hne, update_levelled hi]
  refine ⟨⟨hti.trans hi, ?_, rfl, r, ?_⟩, htstable, rfl⟩
  · simp only [withRaw, htstable]
  · simp only [withRaw, htstable]

/-- Before the debounce time is over, another sample of the glitch keeps them so. -/
theorem Apart.glitch_lasts (h : Apart t c c') (hbrief : now - t < debounceMs) :
    Apart t (c.update (!c.stableLevel) now).1 (c'.update c.stableLevel now).1 ∧
      (c.update (!c.stableLevel) now).1.stableLevel = c.stableLevel ∧
      (c.update (!c.stableLevel) now).2 = (c'.update c.stableLevel now).2 := by
  obtain ⟨hi, hraw, rfl, r, rfl⟩ := h
  obtain ⟨hti, htraw, htsince, htstable⟩ := onTick_levels c now
  have hleft := update_unchanged hi now (.inr hbrief)
  rw [hraw] at hleft
  rw [hleft, update_levelled hi]
  refine ⟨⟨hti.trans hi, ?_, htsince, r, ?_⟩, htstable, rfl⟩
  · rw [htraw, htstable, hraw]
  · rw [htstable]

/-- Back at the settled level the runs are similar again. -/
theorem Apart.glitch_ends (h : Apart t c c') (now : ℕ) :
    Similar (c.update c.stableLevel now).1 (c'.update c.stableLevel now).1 ∧
      (c.update c.stableLevel now).2 = (c'.update c.stableLevel now).2 := by
  obtain ⟨hi, hraw, rfl, r, rfl⟩ := h
  obtain ⟨hti, -, -, htstable⟩ := onTick_levels c now
  have hne : c.stableLevel ≠ c.rawLevel := by simp [hraw]
  rw [update_changed hi hne, update_levelled hi]
  refine ⟨.inr ⟨hti.trans hi, htstable.symm, r, ?_⟩, rfl⟩
  simp only [withRaw, htstable]

/-- The runs stay apart through the rest of the glitch and answer alike. -/
theorem Apart.through (h : Apart t c c') (hopposite : ∀ b ∈ block, b.1 = !c.stableLevel)
    (hbrief : ∀ b ∈ block, b.2 - t < debounceMs) :
    Apart t (classifierAfter c block)
        (classifierAfter c' (block.map fun b => (c.stableLevel, b.2))) ∧
      (classifierAfter c block).stableLevel = c.stableLevel ∧
      updates c block = updates c' (block.map fun b => (c.stableLevel, b.2)) := by
  induction block generalizing c c' with
  | nil => exact ⟨h, rfl, rfl⟩
  | cons b block ih =>
    obtain ⟨pressed, now⟩ := b
    obtain rfl : pressed = !c.stableLevel := hopposite _ List.mem_cons_self
    obtain ⟨hapart, hstable, hanswer⟩ := h.glitch_lasts (hbrief _ List.mem_cons_self)
    have hopposite' : ∀ b ∈ block, b.1 = !(c.update (!c.stableLevel) now).1.stableLevel := by
      intro b hb
      rw [hstable]
      exact hopposite b (List.mem_cons_of_mem _ hb)
    obtain ⟨hend, hstable', hanswers⟩ :=
      ih hapart hopposite' (fun b hb => hbrief b (List.mem_cons_of_mem _ hb))
    rw [hstable] at hend hstable' hanswers
    exact ⟨hend, hstable', congrArg₂ List.cons hanswer hanswers⟩

theorem Glitch.nearby {b : Bool × ℕ} (h : Glitch c (b :: block))
    (hmono : (b :: block).Pairwise (·.2 ≤ ·.2)) : ∀ x ∈ block, x.2 - b.2 < debounceMs := by
  intro x hx
  have hne : b :: block ≠ [] := List.cons_ne_nil b block
  have hspan := h.brief b rfl _ (List.getLast?_eq_some_getLast hne)
  have : Std.Refl fun a b : Bool × ℕ => a.2 ≤ b.2 := ⟨fun a => Nat.le_refl a.2⟩
  have hle := hmono.rel_getLast (List.mem_cons_of_mem b hx)
  omega

/-- Similar runs answer a glitch and the sample after it alike. -/
theorem Similar.glitch (h : Similar c c') (hg : Glitch c block) (hmono : block.Pairwise (·.2 ≤ ·.2))
    (now : ℕ) :
    Similar (classifierAfter c (block ++ [(c.stableLevel, now)]))
        (classifierAfter c' (block.map (fun b => (c.stableLevel, b.2)) ++ [(c.stableLevel, now)])) ∧
      updates c (block ++ [(c.stableLevel, now)]) =
        updates c' (block.map (fun b => (c.stableLevel, b.2)) ++ [(c.stableLevel, now)]) := by
  cases block with
  | nil =>
    obtain ⟨hsimilar, hanswer⟩ := h.step c.stableLevel now
    exact ⟨hsimilar, congrArg (fun a => [a]) hanswer⟩
  | cons b block =>
    have hopposite := hg.opposite
    have hnearby := hg.nearby hmono
    obtain ⟨pressed, start⟩ := b
    obtain rfl : pressed = !c.stableLevel := hopposite _ List.mem_cons_self
    obtain ⟨hapart, hstable, hfirst⟩ := h.glitch_begins hg.seeded hg.settled start
    have hopposite' : ∀ b ∈ block, b.1 = !(c.update (!c.stableLevel) start).1.stableLevel := by
      intro b hb
      rw [hstable]
      exact hopposite b (List.mem_cons_of_mem _ hb)
    obtain ⟨hend, hstable', hmiddle⟩ := hapart.through hopposite' hnearby
    obtain ⟨hsimilar, hlast⟩ := hend.glitch_ends now
    rw [hstable', hstable] at hsimilar hlast
    rw [hstable] at hmiddle
    rw [classifierAfter_append, classifierAfter_append, updates_append, updates_append]
    refine ⟨hsimilar, congrArg₂ (· ++ ·) ?_ (congrArg (fun a => [a]) hlast)⟩
    exact congrArg₂ List.cons hfirst hmiddle

theorem Quieted.updates_eq (h : Quieted c samples samples') (hc : Similar c c')
    (hmono : samples.Pairwise (·.2 ≤ ·.2)) : updates c samples = updates c' samples' := by
  induction h generalizing c' with
  | nil => rfl
  | keep pressed now later ih =>
    obtain ⟨hsimilar, hanswer⟩ := hc.step pressed now
    exact congrArg₂ List.cons hanswer (ih hsimilar hmono.of_cons)
  | @level c block glitch now rest rest' later ih =>
    obtain ⟨hblock, hrest, -⟩ := List.pairwise_append.mp hmono
    obtain ⟨hsimilar, hanswers⟩ := hc.glitch glitch hblock now
    have hlater := ih hsimilar hrest.of_cons
    have hsplit (front back : List (Bool × ℕ)) :
        front ++ (c.stableLevel, now) :: back = front ++ [(c.stableLevel, now)] ++ back := by simp
    calc updates c (block ++ (c.stableLevel, now) :: rest)
        = updates c (block ++ [(c.stableLevel, now)]) ++
            updates (classifierAfter c (block ++ [(c.stableLevel, now)])) rest := by
          rw [hsplit, updates_append]
      _ = _ := by rw [hanswers, hlater, ← updates_append, ← hsplit]

/-- Levelling out any number of glitches shorter than the debounce time, wherever they fall,
changes the answer to no sample of the stream. -/
theorem glitches_never_show (samples samples' : List (Bool × ℕ))
    (hmono : samples.Pairwise (·.2 ≤ ·.2)) (h : Quieted .new samples samples') :
    updates .new samples = updates .new samples' :=
  h.updates_eq (.inl rfl) hmono

/-- A release of 20 ms in the middle of a long press. -/
theorem glitches_never_show_in_hold :
    updates .new [(false, 0), (true, 5), (true, 45), (false, 300), (false, 320), (true, 330),
        (false, 900), (false, 940)] =
      updates .new [(false, 0), (true, 5), (true, 45), (true, 300), (true, 320), (true, 330),
        (false, 900), (false, 940)] := by
  have hglitch : Glitch (classifierAfter .new [(false, 0), (true, 5), (true, 45)])
      [(false, 300), (false, 320)] := ⟨rfl, rfl, by decide, by decide⟩
  exact glitches_never_show _ _ (by decide) <| .keep false 0 <| .keep true 5 <| .keep true 45 <|
    .level hglitch 330 <| .keep false 900 <| .keep false 940 <| .nil _

end Hologotchi.Touch
