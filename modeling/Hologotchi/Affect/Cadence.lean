import Hologotchi.Affect.Bounds
import Mathlib.Tactic.Ring
import Mathlib.Tactic.Linarith

/-! How often time is applied to the drives does not change where they end
(`Affect.advance` in `host/affect.py`). -/
namespace Hologotchi

open Library

/-- The stats that time moves each by itself. Loneliness, frustration and bond also depend on
each other and on how the time was split. -/
structure Drives where
  social : ℚ
  play : ℚ
  rest : ℚ
  stimulation : ℚ
  energy : ℚ
  sleepiness : ℚ
  affection : ℚ
  deriving DecidableEq, Repr

namespace Affect

variable {value target amount more rate mult m n : ℚ}

theorem drop_drop (hv : value ≤ maxStat) (ha : 0 ≤ amount) (hm : 0 ≤ more) :
    drop (drop value amount) more = drop value (amount + more) := by
  have hback : value - amount ≤ maxStat := (sub_le_self value ha).trans hv
  have hsum : value - amount - more = value - (amount + more) := sub_sub ..
  rw [drop, drop, drop, ← hsum]
  exact Saturating.clamp_sub_clamp (by decide) hback hm

theorem rise_rise (hv : minStat ≤ value) (ha : 0 ≤ amount) (hm : 0 ≤ more) :
    rise (rise value amount) more = rise value (amount + more) := by
  have hforth : minStat ≤ value + amount := hv.trans (le_add_of_nonneg_right ha)
  have hsum : value + amount + more = value + (amount + more) := add_assoc ..
  rw [rise, rise, rise, ← hsum]
  exact Saturating.clamp_add_clamp hforth hm

theorem toward_toward (ha : 0 ≤ amount) (hm : 0 ≤ more) :
    toward (toward value target amount) target more = toward value target (amount + more) :=
  Saturating.approach_approach ha hm

/-! The same for steps that grow with the time. -/

theorem drop_minutes (hv : value ≤ maxStat) (hr : 0 ≤ rate) (hmult : 0 ≤ mult) (hm : 0 ≤ m)
    (hn : 0 ≤ n) :
    drop (drop value (rate * m * mult)) (rate * n * mult) = drop value (rate * (m + n) * mult) := by
  have hfirst : 0 ≤ rate * m * mult := by positivity
  have hsecond : 0 ≤ rate * n * mult := by positivity
  have hsum : rate * m * mult + rate * n * mult = rate * (m + n) * mult := by ring
  rw [drop_drop hv hfirst hsecond, hsum]

theorem drop_minutes_once (hv : value ≤ maxStat) (hr : 0 ≤ rate) (hm : 0 ≤ m) (hn : 0 ≤ n) :
    drop (drop value (rate * m)) (rate * n) = drop value (rate * (m + n)) := by
  simpa only [mul_one] using drop_minutes hv hr zero_le_one hm hn

theorem rise_minutes (hv : minStat ≤ value) (hr : 0 ≤ rate) (hm : 0 ≤ m) (hn : 0 ≤ n) :
    rise (rise value (rate * m)) (rate * n) = rise value (rate * (m + n)) := by
  have hfirst : 0 ≤ rate * m := mul_nonneg hr hm
  have hsecond : 0 ≤ rate * n := mul_nonneg hr hn
  rw [rise_rise hv hfirst hsecond, mul_add]

theorem toward_minutes (hr : 0 ≤ rate) (hm : 0 ≤ m) (hn : 0 ≤ n) :
    toward (toward value target (rate * m)) target (rate * n) =
      toward value target (rate * (m + n)) := by
  have hfirst : 0 ≤ rate * m := mul_nonneg hr hm
  have hsecond : 0 ≤ rate * n := mul_nonneg hr hn
  rw [toward_toward hfirst hsecond, mul_add]

def drives (a : Affect) : Drives :=
  { social := a.social
    play := a.play
    rest := a.rest
    stimulation := a.stimulation
    energy := a.energy
    sleepiness := a.sleepiness
    affection := a.affection }

end Affect

namespace Drives

open Affect

/-- What `decay` does to the drives. -/
def drift (d : Drives) (minutes : ℚ) (ignoring away : Bool) : Drives :=
  let socialMult := if away then 0 else if ignoring then ignoringSocialMult else 1
  let stimMult := if away then awayStimulationMult else 1
  { social := drop d.social (socialDecay * minutes * socialMult)
    play := drop d.play (playDecay * minutes)
    rest := drop d.rest (restDecay * minutes)
    stimulation := drop d.stimulation (stimulationDecay * minutes * stimMult)
    energy := drop d.energy (energyDecay * minutes)
    sleepiness := rise d.sleepiness (sleepinessGain * minutes)
    affection := toward d.affection affectionBaseline (affectionCool * minutes) }

/-- Two stretches of time under the same conditions are one. -/
theorem drift_drift {a : Affect} (h : a.Bounded) {m n : ℚ} (hm : 0 ≤ m) (hn : 0 ≤ n)
    (ignoring away : Bool) :
    (a.drives.drift m ignoring away).drift n ignoring away =
      a.drives.drift (m + n) ignoring away := by
  have hsocial : (0 : ℚ) ≤ if away then 0 else if ignoring then ignoringSocialMult else 1 := by
    cases away <;> cases ignoring <;> norm_num [ignoringSocialMult]
  have hstim : (0 : ℚ) ≤ if away then awayStimulationMult else 1 := by
    cases away <;> norm_num [awayStimulationMult]
  have hsocialRate : 0 ≤ socialDecay := by norm_num [socialDecay]
  have hplayRate : 0 ≤ playDecay := by norm_num [playDecay]
  have hrestRate : 0 ≤ restDecay := by norm_num [restDecay]
  have hstimRate : 0 ≤ stimulationDecay := by norm_num [stimulationDecay]
  have henergyRate : 0 ≤ energyDecay := by norm_num [energyDecay]
  have hsleepRate : 0 ≤ sleepinessGain := by norm_num [sleepinessGain]
  have hcoolRate : 0 ≤ affectionCool := by norm_num [affectionCool]
  simp only [drift, Affect.drives, Drives.mk.injEq]
  refine ⟨?_, ?_, ?_, ?_, ?_, ?_, ?_⟩
  · exact drop_minutes h.social.2 hsocialRate hsocial hm hn
  · exact drop_minutes_once h.play.2 hplayRate hm hn
  · exact drop_minutes_once h.rest.2 hrestRate hm hn
  · exact drop_minutes h.stimulation.2 hstimRate hstim hm hn
  · exact drop_minutes_once h.energy.2 henergyRate hm hn
  · exact rise_minutes h.sleepiness.1 hsleepRate hm hn
  · exact toward_minutes hcoolRate hm hn

end Drives

namespace Affect

variable {a : Affect} {minutes focusPressure now later : ℚ} {ignoring away : Bool}

theorem drives_decay :
    (a.decay minutes ignoring away focusPressure).drives =
      a.drives.drift minutes ignoring away := by
  rw [decay, coolRelationship_frame, settleFrustration_frame, advanceLoneliness_frame]
  rfl

theorem drives_advance_of_le (h : now ≤ a.lastUpdate) :
    (a.advance now ignoring away focusPressure).drives = a.drives := by
  have helapsed : now - a.lastUpdate ≤ 0 := sub_nonpos.mpr h
  simp only [advance, if_pos helapsed]
  split <;> rfl

/-- A call on a running clock, within the catch-up limit. -/
theorem drives_advance (hstarted : 0 < a.lastUpdate) (hlater : a.lastUpdate < now)
    (hlimit : now - a.lastUpdate ≤ maxCatchupSeconds) :
    (a.advance now ignoring away focusPressure).drives =
      a.drives.drift ((now - a.lastUpdate) / 60) ignoring away := by
  have helapsed : ¬ now - a.lastUpdate ≤ 0 := not_le.mpr (sub_pos.mpr hlater)
  simp only [advance, if_neg (not_le.mpr hstarted), if_neg helapsed, min_eq_left hlimit]
  exact drives_decay

/-- Stopping on the way changes nothing. -/
theorem drives_advance_advance (h : a.Bounded) (hstarted : 0 < a.lastUpdate)
    (hnow : a.lastUpdate < now) (hlater : now ≤ later)
    (hlimit : later - a.lastUpdate ≤ maxCatchupSeconds) :
    ((a.advance now ignoring away focusPressure).advance later ignoring away
      focusPressure).drives = (a.advance later ignoring away focusPressure).drives := by
  rcases hlater.eq_or_lt with rfl | hlater
  · exact drives_advance_of_le ((lastUpdate_advance ..).ge)
  · have hfirst : now - a.lastUpdate ≤ maxCatchupSeconds := by linarith
    have hsecond : later - now ≤ maxCatchupSeconds := by linarith
    have hminutes : 0 ≤ (now - a.lastUpdate) / 60 := by linarith
    have hmore : 0 ≤ (later - now) / 60 := by linarith
    have hsum : (now - a.lastUpdate) / 60 + (later - now) / 60 =
        (later - a.lastUpdate) / 60 := by ring
    have hclock : (a.advance now ignoring away focusPressure).lastUpdate = now :=
      lastUpdate_advance ..
    rw [drives_advance (by linarith) (by linarith) (by linarith), hclock,
      drives_advance hstarted hnow hfirst, drives_advance hstarted (hnow.trans hlater) hlimit,
      Drives.drift_drift h hminutes hmore, hsum]

/-- However a stretch within the catch-up limit is split into calls, the drives end where one
call at its end leaves them. -/
theorem drives_run_advance (a : Affect) (h : a.Bounded) (hstarted : 0 < a.lastUpdate)
    (times : List ℚ) (hincreasing : (a.lastUpdate :: times).Pairwise (· < ·))
    (hlimit : times.getLastD a.lastUpdate - a.lastUpdate ≤ maxCatchupSeconds)
    (ignoring away : Bool) (focusPressure : ℚ) :
    (a.run (times.map fun now => .advance now ignoring away focusPressure)).drives =
      (a.advance (times.getLastD a.lastUpdate) ignoring away focusPressure).drives := by
  induction times generalizing a with
  | nil => exact (drives_advance_of_le le_rfl).symm
  | cons now times ih =>
    obtain ⟨hbefore, hrest⟩ := List.pairwise_cons.mp hincreasing
    have hnow : a.lastUpdate < now := hbefore now List.mem_cons_self
    have hlast : now ≤ times.getLastD now := by
      have hmem : times.getLastD now ∈ now :: times := List.getLastD_mem_cons
      rcases List.mem_cons.mp hmem with hlast | hlast
      · exact hlast.ge
      · exact (List.rel_of_pairwise_cons hrest hlast).le
    rw [List.getLastD_cons] at hlimit ⊢
    have hclock : (a.advance now ignoring away focusPressure).lastUpdate = now :=
      lastUpdate_advance ..
    have hlater := ih (a.advance now ignoring away focusPressure) (h.advance now)
      (by rw [hclock]; linarith) (by rwa [hclock]) (by rw [hclock]; linarith)
    rw [hclock] at hlater
    exact hlater.trans (drives_advance_advance h hstarted hnow hlast hlimit)

/-- Play runs out within the first of three uneven calls. -/
theorem drives_run_advance_uneven :
    (run { play := 1, affection := 61, lastUpdate := 1000 }
        ([1400, 1401, 1900].map fun now => .advance now true false 1)).drives =
      (advance { play := 1, affection := 61, lastUpdate := 1000 } 1900 true false 1).drives :=
  drives_run_advance _ (by constructor <;> decide) (by decide) [1400, 1401, 1900] (by decide)
    (by norm_num [maxCatchupSeconds]) true false 1

end Affect

end Hologotchi
