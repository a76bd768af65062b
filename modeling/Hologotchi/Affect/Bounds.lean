import Hologotchi.Affect.Dynamics
import Hologotchi.Library.Saturating
import Mathlib.Tactic.NormNum
import Mathlib.Tactic.Positivity
import Mathlib.Data.Rat.Lemmas

/-! No event moves a stat out of its range. -/
namespace Hologotchi.Affect

open Library

def InRange (value : ℚ) : Prop := minStat ≤ value ∧ value ≤ maxStat

instance (value : ℚ) : Decidable (InRange value) := instDecidableAnd

/-- All eleven stats are in range; the decay marker is no stat. -/
structure Bounded (a : Affect) : Prop where
  social : InRange a.social
  play : InRange a.play
  rest : InRange a.rest
  stimulation : InRange a.stimulation
  energy : InRange a.energy
  sleepiness : InRange a.sleepiness
  affection : InRange a.affection
  trust : InRange a.trust
  loneliness : InRange a.loneliness
  frustration : InRange a.frustration
  bond : InRange a.bond

@[simp] theorem inRange_rise (value amount : ℚ) : InRange (rise value amount) :=
  Saturating.clamp_mem (by decide)

@[simp] theorem inRange_drop (value amount : ℚ) : InRange (drop value amount) :=
  Saturating.clamp_mem (by decide)

theorem inRange_toward {value target amount : ℚ} (ht : InRange target) (hv : InRange value)
    (ha : 0 ≤ amount) : InRange (toward value target amount) :=
  Saturating.approach_mem ht hv ha

variable {a : Affect} {minutes focusPressure : ℚ} {ignoring away : Bool}

theorem Bounded.decayDrives (h : a.Bounded) : (a.decayDrives minutes ignoring away).Bounded := by
  cases h
  constructor <;> simp_all [Affect.decayDrives]

theorem Bounded.advanceLoneliness (h : a.Bounded) :
    (a.advanceLoneliness minutes ignoring away focusPressure).Bounded := by
  cases h
  unfold Affect.advanceLoneliness
  split
  · constructor <;> simp_all
  · split <;> constructor <;> simp_all

theorem Bounded.settleFrustration (h : a.Bounded) :
    (a.settleFrustration minutes ignoring focusPressure).Bounded := by
  cases h
  unfold Affect.settleFrustration
  dsimp only
  split <;> constructor <;> simp_all

/-- The one update that does not clamp: the baseline is in range, and time only adds to the
step towards it. -/
theorem Bounded.coolRelationship (h : a.Bounded) (hm : 0 ≤ minutes) :
    (a.coolRelationship minutes).Bounded := by
  have hbaseline : InRange affectionBaseline := by decide
  have hstep : 0 ≤ affectionCool * minutes := mul_nonneg (by norm_num [affectionCool]) hm
  have haffection := inRange_toward hbaseline h.affection hstep
  cases h
  unfold Affect.coolRelationship
  dsimp only
  split <;> constructor <;> simp_all

theorem Bounded.decay (h : a.Bounded) (hm : 0 ≤ minutes) :
    (a.decay minutes ignoring away focusPressure).Bounded :=
  h.decayDrives.advanceLoneliness.settleFrustration.coolRelationship hm

theorem Bounded.advance (h : a.Bounded) (now : ℚ) :
    (a.advance now ignoring away focusPressure).Bounded := by
  have hmarked : { a with lastUpdate := now }.Bounded := { h with }
  rcases advance_cases a.lastUpdate now with hmarks | ⟨minutes, hm, hdecays⟩
  · rw [hmarks a rfl]
    exact hmarked
  · rw [hdecays a rfl]
    exact hmarked.decay hm

theorem Bounded.registerAttention (h : a.Bounded) : a.registerAttention.Bounded := by
  cases h
  constructor <;> simp_all [Affect.registerAttention]

theorem Bounded.registerBehavior (h : a.Bounded) (animation : Animation) :
    (a.registerBehavior animation).Bounded := by
  cases h
  cases animation <;> constructor <;> simp_all [Affect.registerBehavior]

theorem Bounded.registerBehaviorName (h : a.Bounded) (animation : Python.Str) :
    (a.registerBehaviorName animation).Bounded := by
  unfold Affect.registerBehaviorName
  split
  · exact h.registerBehavior _
  · exact h

/-- Every event keeps the stats in range. -/
theorem Bounded.apply (h : a.Bounded) (event : Event) : (a.apply event).Bounded := by
  cases event with
  | advance now ignoring away focusPressure => exact h.advance now
  | attention => exact h.registerAttention
  | praise =>
    have hattention := h.registerAttention
    cases hattention
    constructor <;> simp_all [Affect.apply, registerPraise]
  | behavior animation => exact h.registerBehaviorName animation
  | saveAndLoad =>
    have hsame := fromRow_toRow a []
    rw [List.append_nil] at hsame
    simpa only [Affect.apply, hsame] using h
  | _ =>
    cases h
    constructor <;> simp_all [Affect.apply, registerHarsh, registerApology, registerGoodOutcome,
      registerBadOutcome, registerAlert, registerReturnAfterAway, registerBoop, registerPet,
      registerPlayInvite]

/-- The stats never leave their range, whatever happens in whatever order. -/
theorem stats_stay_bounded (a : Affect) (h : a.Bounded) (events : List Event) :
    (a.run events).Bounded := by
  induction events generalizing a with
  | nil => exact h
  | cons event events ih => exact ih (a.apply event) (h.apply event)

/-- A fresh affect through a long silence of being ignored and an unknown behavior. -/
theorem stats_stay_bounded_fresh :
    (run {} [.advance 1000 false false 0, .advance 9000 true false 2,
      .behavior (Python.str "dance")]).Bounded :=
  stats_stay_bounded {} (by constructor <;> decide) _

end Hologotchi.Affect
