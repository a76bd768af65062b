import Hologotchi.Affect.Bounds
import Mathlib.Tactic.GCongr
import Mathlib.Tactic.Linarith

/-! Two pets through the same events, one of them ignored at least as much: it never ends up
better off (`host/affect.py`). -/
namespace Hologotchi.Affect

open Library

/-- The order the two runs are compared in. The other stats do not matter: none of them moves
one of these. -/
structure NoBetterThan (b a : Affect) : Prop where
  lastUpdate : b.lastUpdate = a.lastUpdate
  social : b.social ≤ a.social
  loneliness : a.loneliness ≤ b.loneliness
  frustration : a.frustration ≤ b.frustration
  bond : b.bond ≤ a.bond

/-- The same event, but for more ignoring and more focus on something else. -/
inductive Harsher : Event → Event → Prop
  | same (event : Event) : Harsher event event
  | advance {ignoring ignoring' : Bool} {focusPressure focusPressure' : ℚ} (now : ℚ) (away : Bool)
      (hignoring : ignoring → ignoring') (hpressure : focusPressure ≤ focusPressure') :
      Harsher (.advance now ignoring away focusPressure)
        (.advance now ignoring' away focusPressure')

variable {value value' amount amount' : ℚ}

theorem rise_mono (hv : value ≤ value') (ha : amount ≤ amount') :
    rise value amount ≤ rise value' amount' :=
  Saturating.clamp_mono (add_le_add hv ha)

theorem drop_mono (hv : value ≤ value') (ha : amount' ≤ amount) :
    drop value amount ≤ drop value' amount' :=
  Saturating.clamp_mono (sub_le_sub hv ha)

/-! What an event adds is the same in both runs. -/

@[simp] theorem rise_mono_left (hv : value ≤ value') : rise value amount ≤ rise value' amount :=
  rise_mono hv le_rfl

@[simp] theorem drop_mono_left (hv : value ≤ value') : drop value amount ≤ drop value' amount :=
  drop_mono hv le_rfl

theorem le_rise (hv : value ≤ maxStat) (ha : 0 ≤ amount) : value ≤ rise value amount :=
  (Saturating.le_clamp_self hv).trans (Saturating.clamp_mono (le_add_of_nonneg_right ha))

theorem drop_le (hv : minStat ≤ value) (ha : 0 ≤ amount) : drop value amount ≤ value :=
  (Saturating.clamp_mono (sub_le_self value ha)).trans (Saturating.clamp_le_self hv)

variable {a b : Affect} {minutes focusPressure focusPressure' : ℚ}
  {ignoring ignoring' away : Bool}

theorem NoBetterThan.decayDrives (h : b.NoBetterThan a) (hm : 0 ≤ minutes)
    (hi : ignoring → ignoring') :
    (b.decayDrives minutes ignoring' away).NoBetterThan (a.decayDrives minutes ignoring away) where
  lastUpdate := h.lastUpdate
  social := by
    refine drop_mono h.social ?_
    have hrate : 0 ≤ socialDecay * minutes := mul_nonneg (by norm_num [socialDecay]) hm
    refine mul_le_mul_of_nonneg_left ?_ hrate
    have hmult : 1 ≤ ignoringSocialMult := by norm_num [ignoringSocialMult]
    cases away <;> cases ignoring <;> cases ignoring' <;> simp_all
  loneliness := h.loneliness
  frustration := h.frustration
  bond := h.bond

/-- How much lonelier a minute short of company makes. -/
def lonelinessGain (social minutes : ℚ) (ignoring : Bool) (focusPressure : ℚ) : ℚ :=
  let gain := lonelinessRate * minutes * ((socialComfort - social) / socialComfort)
  if ignoring then gain * ignoringLonelinessMult + focusPressure * focusLonelinessRate * minutes
  else gain

theorem loneliness_of_company (hsocial : socialComfort ≤ a.social) :
    (a.advanceLoneliness minutes ignoring false focusPressure).loneliness =
      drop a.loneliness (lonelinessRate * minutes) := by
  simp [advanceLoneliness, hsocial]

theorem loneliness_of_lonely (hsocial : a.social < socialComfort) :
    (a.advanceLoneliness minutes ignoring false focusPressure).loneliness =
      rise a.loneliness (lonelinessGain a.social minutes ignoring focusPressure) := by
  simp [advanceLoneliness, not_le.mpr hsocial, lonelinessGain]

/-- Both the deficit and the flag only add to the gain. -/
theorem lonelinessGain_mono {social social' : ℚ} (hsocial : social' ≤ social)
    (hlonely : social < socialComfort) (hm : 0 ≤ minutes) (hi : ignoring → ignoring')
    (hf : 0 ≤ focusPressure) (hff : focusPressure ≤ focusPressure') :
    lonelinessGain social minutes ignoring focusPressure ≤
      lonelinessGain social' minutes ignoring' focusPressure' := by
  have hrate : 0 ≤ lonelinessRate * minutes := mul_nonneg (by norm_num [lonelinessRate]) hm
  have hcomfort : 0 < socialComfort := by decide
  have hmult : 1 ≤ ignoringLonelinessMult := by norm_num [ignoringLonelinessMult]
  have hfocus : 0 ≤ focusLonelinessRate := by norm_num [focusLonelinessRate]
  have hdeficit : 0 ≤ (socialComfort - social) / socialComfort :=
    div_nonneg (by linarith) hcomfort.le
  have hdeficits : (socialComfort - social) / socialComfort ≤
      (socialComfort - social') / socialComfort := by gcongr
  have hplain := mul_le_mul_of_nonneg_left hdeficits hrate
  have hplain0 := mul_nonneg hrate hdeficit
  have hpressure : focusPressure * focusLonelinessRate * minutes ≤
      focusPressure' * focusLonelinessRate * minutes := by gcongr
  have hpressure0 : 0 ≤ focusPressure' * focusLonelinessRate * minutes :=
    mul_nonneg (mul_nonneg (hf.trans hff) hfocus) hm
  have hscaled := mul_le_mul_of_nonneg_right hplain (zero_le_one.trans hmult)
  have hgrown := le_mul_of_one_le_right (hplain0.trans hplain) hmult
  unfold lonelinessGain
  cases ignoring with
  | true =>
    rw [hi rfl]
    exact add_le_add hscaled hpressure
  | false =>
    cases ignoring' with
    | true => exact hplain.trans (hgrown.trans (le_add_of_nonneg_right hpressure0))
    | false => exact hplain

theorem lonelinessGain_nonneg {social : ℚ} (hlonely : social < socialComfort) (hm : 0 ≤ minutes)
    (hf : 0 ≤ focusPressure) : 0 ≤ lonelinessGain social minutes ignoring focusPressure := by
  have hrate : 0 ≤ lonelinessRate * minutes := mul_nonneg (by norm_num [lonelinessRate]) hm
  have hcomfort : 0 < socialComfort := by decide
  have hdeficit : 0 ≤ (socialComfort - social) / socialComfort :=
    div_nonneg (by linarith) hcomfort.le
  have hmult : 0 ≤ ignoringLonelinessMult := by norm_num [ignoringLonelinessMult]
  have hfocus : 0 ≤ focusLonelinessRate := by norm_num [focusLonelinessRate]
  unfold lonelinessGain
  dsimp only
  split <;> positivity

/-- The threshold is crossed in one direction only: the run with less company is the one that
grows lonelier. -/
theorem NoBetterThan.advanceLoneliness (h : b.NoBetterThan a) (hm : 0 ≤ minutes)
    (hi : ignoring → ignoring') (hf : 0 ≤ focusPressure) (hff : focusPressure ≤ focusPressure') :
    (b.advanceLoneliness minutes ignoring' away focusPressure').NoBetterThan
      (a.advanceLoneliness minutes ignoring away focusPressure) := by
  have hloneliness : (a.advanceLoneliness minutes ignoring away focusPressure).loneliness ≤
      (b.advanceLoneliness minutes ignoring' away focusPressure').loneliness := by
    cases away with
    | true => exact drop_mono_left h.loneliness
    | false =>
      have hease : 0 ≤ lonelinessRate * minutes := mul_nonneg (by norm_num [lonelinessRate]) hm
      rcases le_or_gt socialComfort b.social with hb | hb
      · rw [loneliness_of_company (hb.trans h.social), loneliness_of_company hb]
        exact drop_mono_left h.loneliness
      · rw [loneliness_of_lonely hb]
        rcases le_or_gt socialComfort a.social with ha | ha
        · rw [loneliness_of_company ha]
          have hgain : 0 ≤ lonelinessGain b.social minutes ignoring' focusPressure' :=
            lonelinessGain_nonneg hb hm (hf.trans hff)
          have hapart : a.loneliness - lonelinessRate * minutes ≤ b.loneliness +
              lonelinessGain b.social minutes ignoring' focusPressure' := by
            linarith [h.loneliness]
          exact Saturating.clamp_mono hapart
        · rw [loneliness_of_lonely ha]
          exact rise_mono h.loneliness (lonelinessGain_mono h.social ha hm hi hf hff)
  rw [a.advanceLoneliness_frame minutes ignoring away focusPressure,
    b.advanceLoneliness_frame minutes ignoring' away focusPressure']
  exact { h with loneliness := hloneliness }

theorem NoBetterThan.settleFrustration (h : b.NoBetterThan a) (hm : 0 ≤ minutes)
    (hi : ignoring → ignoring') (hff : focusPressure ≤ focusPressure') :
    (b.settleFrustration minutes ignoring' focusPressure').NoBetterThan
      (a.settleFrustration minutes ignoring focusPressure) := by
  have hcalmer : drop a.frustration (frustrationDecay * minutes) ≤
      drop b.frustration (frustrationDecay * minutes) := drop_mono_left h.frustration
  have hrate : 0 ≤ focusFrustrationRate := by norm_num [focusFrustrationRate]
  have hfrustration : (a.settleFrustration minutes ignoring focusPressure).frustration ≤
      (b.settleFrustration minutes ignoring' focusPressure').frustration := by
    simp only [Affect.settleFrustration]
    by_cases hfocused : ignoring ∧ focusPressure > 0
    · obtain ⟨hignoring, hpressure⟩ := hfocused
      rw [if_pos ⟨hignoring, hpressure⟩, if_pos ⟨hi hignoring, hpressure.trans_le hff⟩]
      exact rise_mono hcalmer (by gcongr)
    · rw [if_neg hfocused]
      split
      case isTrue hmore =>
        have hgain : 0 ≤ focusPressure' * focusFrustrationRate * minutes := by
          have := hmore.2.le
          positivity
        exact hcalmer.trans (le_rise (inRange_drop _ _).2 hgain)
      case isFalse => exact hcalmer
  rw [a.settleFrustration_frame minutes ignoring focusPressure,
    b.settleFrustration_frame minutes ignoring' focusPressure']
  exact { h with frustration := hfrustration }

theorem NoBetterThan.coolRelationship (h : b.NoBetterThan a) (hb : InRange b.bond)
    (hm : 0 ≤ minutes) :
    (b.coolRelationship minutes).NoBetterThan (a.coolRelationship minutes) := by
  have hdecay : 0 ≤ bondNeglectDecay * minutes := mul_nonneg (by norm_num [bondNeglectDecay]) hm
  have hbond : (b.coolRelationship minutes).bond ≤ (a.coolRelationship minutes).bond := by
    simp only [Affect.coolRelationship]
    by_cases hneglect : a.loneliness > neglectLoneliness
    · rw [if_pos hneglect, if_pos (hneglect.trans_le h.loneliness)]
      exact drop_mono_left h.bond
    · rw [if_neg hneglect]
      split
      · exact (drop_le hb.1 hdecay).trans h.bond
      · exact h.bond
  rw [a.coolRelationship_frame minutes, b.coolRelationship_frame minutes]
  exact { h with bond := hbond }

theorem NoBetterThan.decay (h : b.NoBetterThan a) (hb : b.Bounded) (hm : 0 ≤ minutes)
    (hi : ignoring → ignoring') (hf : 0 ≤ focusPressure) (hff : focusPressure ≤ focusPressure') :
    (b.decay minutes ignoring' away focusPressure').NoBetterThan
      (a.decay minutes ignoring away focusPressure) := by
  refine NoBetterThan.coolRelationship ?_ ?bounded hm
  case bounded => exact hb.decayDrives.advanceLoneliness.settleFrustration.bond
  refine NoBetterThan.settleFrustration ?_ hm hi hff
  refine NoBetterThan.advanceLoneliness ?_ hm hi hf hff
  exact h.decayDrives hm hi

theorem NoBetterThan.advance (h : b.NoBetterThan a) (hb : b.Bounded) (now : ℚ)
    (hi : ignoring → ignoring') (hff : focusPressure ≤ focusPressure') :
    (b.advance now ignoring' away focusPressure').NoBetterThan
      (a.advance now ignoring away focusPressure) := by
  have hmarked : { b with lastUpdate := now }.NoBetterThan { a with lastUpdate := now } :=
    { h with lastUpdate := rfl }
  rcases advance_cases a.lastUpdate now with hmarks | ⟨minutes, hm, hdecays⟩
  · rw [hmarks a rfl, hmarks b h.lastUpdate]
    exact hmarked
  · rw [hdecays a rfl, hdecays b h.lastUpdate]
    have hmarkedBounded : { b with lastUpdate := now }.Bounded := { hb with }
    exact hmarked.decay hmarkedBounded hm hi (le_max_left _ _)
      (max_le_max_left 0 (min_le_min_left 1 hff))

theorem NoBetterThan.registerBehaviorName (h : b.NoBetterThan a) (animation : Python.Str) :
    (b.registerBehaviorName animation).NoBetterThan (a.registerBehaviorName animation) := by
  unfold Affect.registerBehaviorName
  split
  · rename_i animation _
    cases animation <;> exact ⟨h.lastUpdate, h.social, h.loneliness, h.frustration, h.bond⟩
  · exact h

/-- The registered events move each of the stats the same way in both runs. -/
theorem NoBetterThan.apply_same (h : b.NoBetterThan a) (hb : b.Bounded) (event : Event) :
    (b.apply event).NoBetterThan (a.apply event) := by
  cases event with
  | advance now ignoring away focusPressure => exact h.advance hb now id le_rfl
  | behavior animation => exact h.registerBehaviorName animation
  | saveAndLoad =>
    have hsame (c : Affect) : fromRow c.toRow = c := by simpa using fromRow_toRow c []
    simpa only [Affect.apply, hsame] using h
  | _ =>
    cases h
    constructor <;> simp_all [Affect.apply, registerAttention, registerPraise, registerHarsh,
      registerApology, registerGoodOutcome, registerBadOutcome, registerAlert,
      registerReturnAfterAway, registerBoop, registerPet, registerPlayInvite]

/-- One step of the two runs. -/
theorem NoBetterThan.apply (h : b.NoBetterThan a) (hb : b.Bounded) {event event' : Event}
    (he : Harsher event event') : (b.apply event').NoBetterThan (a.apply event) := by
  cases he with
  | same => exact h.apply_same hb event
  | advance now away hignoring hpressure => exact h.advance hb now hignoring hpressure

/-- Being ignored is never better than quiet company: after every step of two runs that differ
only in how much the pet is ignored, and for what. -/
theorem ignored_never_better (a b : Affect) (hb : b.Bounded) (h : b.NoBetterThan a)
    (events events' : List Event) (hevents : List.Forall₂ Harsher events events') (n : ℕ) :
    (b.run (events'.take n)).NoBetterThan (a.run (events.take n)) := by
  induction n generalizing a b events events' with
  | zero => exact h
  | succ n ih =>
    cases hevents with
    | nil => exact h
    | @cons event event' rest rest' hfirst hrest =>
      exact ih (a.apply event) (b.apply event') (hb.apply event') (h.apply hb hfirst) rest rest'
        hrest

/-- One pet is ignored for an app from the start, the other only kept waiting. -/
theorem ignored_never_better_after_praise :
    (run { social := 50, lastUpdate := 1000 } [.advance 1600 true false 1, .praise]).NoBetterThan
      (run { lastUpdate := 1000 } [.advance 1600 false false 0, .praise]) :=
  ignored_never_better { lastUpdate := 1000 } { social := 50, lastUpdate := 1000 }
    (by constructor <;> decide) (by constructor <;> decide)
    [.advance 1600 false false 0, .praise] [.advance 1600 true false 1, .praise]
    (.cons (.advance 1600 false (by decide) (by decide)) (.cons (.same .praise) .nil)) 2

end Hologotchi.Affect
