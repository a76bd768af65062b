import Hologotchi.Presence.History
import Mathlib.Algebra.Order.Field.Basic
import Mathlib.Tactic.Linarith

/-! Focus pressure and the absences of a run: the focus timer follows the name of the foreground
app only, through whatever states the owner is in. -/
namespace Hologotchi.Presence

open Python Library

/-- The step finds the owner away, and the timer of an app in focus runs on. -/
def PresenceTracker.CarriesFocus (k : PresenceTracker) : TrackerCall → Prop
  | .noteInteraction _ => False
  | .update now signals =>
    k.classify now signals = .away ∧ signals.foregroundApp = k.focusApp ∧ k.hasFocus = true ∧
      k.focusSince < now

instance (k : PresenceTracker) : ∀ c, Decidable (k.CarriesFocus c)
  | .noteInteraction _ => inferInstanceAs (Decidable False)
  | .update _ _ => instDecidableAnd

/-- An update that charges for an app has no absence within its jealousy window. -/
def SparesAbsence (config : PresenceConfig) (past : List Update) (u : Update) : Prop :=
  0 < u.report.focusPressure →
    ∀ v ∈ past ++ [u], u.now - config.focusJealousySeconds ≤ v.now → v.report.state ≠ .away

/-- The timer of an app in focus started after every absence so far. -/
structure Cleared (config : PresenceConfig) (past : List Update) (k : PresenceTracker) :
    Prop where
  config_eq : k.config = config
  absence : ∀ v ∈ past, v.report.state = .away → k.hasFocus = true → v.now ≤ k.focusSince

variable {config : PresenceConfig} {past : List Update} {k : PresenceTracker}
  {state : PresenceState} {now seconds : ℚ} {signals : PresenceSignals}

theorem focusPressure_pos_iff : 0 < k.focusPressure state seconds ↔
    state = .presentIgnoring ∧ k.hasFocus = true ∧ k.config.focusJealousySeconds < seconds := by
  have hwindow := k.config.focusJealousy_pos
  unfold PresenceTracker.focusPressure
  split
  case isTrue h =>
    refine iff_of_false (lt_irrefl 0) ?_
    rintro ⟨hstate, hfocus, -⟩
    simp [hstate, hfocus] at h
  case isFalse h =>
    obtain ⟨hstate, hfocus⟩ := not_or.mp h
    have hstate : state = .presentIgnoring := not_not.mp hstate
    have hfocus : k.hasFocus = true := by simpa using hfocus
    split
    case isTrue hshort =>
      refine iff_of_false (lt_irrefl 0) ?_
      rintro ⟨-, -, hlong⟩
      exact absurd hlong hshort.not_gt
    case isFalse hlong =>
      simp only [hstate, hfocus, true_and, lt_min_iff, zero_lt_one]
      rw [div_pos_iff_of_pos_right hwindow, sub_pos]

/-! What an update does to the timer, and how it is read. -/

theorem update_focusPressure : (k.update now signals).2.focusPressure =
    (k.updateFocus now signals).focusPressure (k.classify now signals)
      (if (k.updateFocus now signals).hasFocus then now - (k.updateFocus now signals).focusSince
        else 0) := rfl

theorem update_hasFocus :
    (k.update now signals).1.hasFocus = (k.updateFocus now signals).hasFocus := rfl

theorem update_focusSince :
    (k.update now signals).1.focusSince = (k.updateFocus now signals).focusSince := rfl

theorem updateFocus_of_eq (h : signals.foregroundApp = k.focusApp) :
    k.updateFocus now signals = k := if_neg (not_not.mpr h)

theorem focusSince_of_ne (h : signals.foregroundApp ≠ k.focusApp) :
    (k.updateFocus now signals).focusSince = now := by
  rw [PresenceTracker.updateFocus, if_pos h]

theorem Cleared.update (h : Cleared config past k) (hpast : ∀ u ∈ past, u.now ≤ now)
    (hmet : ¬ k.CarriesFocus (.update now signals)) :
    Cleared config (past ++ [⟨now, (k.update now signals).2⟩]) (k.update now signals).1 where
  config_eq := (PresenceTracker.config_updateFocus).trans h.config_eq
  absence := by
    intro v hv haway hfocus
    rw [update_hasFocus] at hfocus
    rw [update_focusSince]
    by_cases hsame : signals.foregroundApp = k.focusApp
    · rw [updateFocus_of_eq hsame] at hfocus ⊢
      rcases List.mem_append.mp hv with hv | hv
      · exact h.absence v hv haway hfocus
      · obtain rfl := List.mem_singleton.mp hv
        by_contra hlate
        exact hmet ⟨haway, hsame, hfocus, not_le.mp hlate⟩
    · rw [focusSince_of_ne hsame]
      rcases List.mem_append.mp hv with hv | hv
      · exact hpast v hv
      · obtain rfl := List.mem_singleton.mp hv
        exact le_rfl

/-- A charge takes a timer older than the window, and so older than any absence in it. -/
theorem Cleared.sparesAbsence (h : Cleared config past k) (hpast : ∀ u ∈ past, u.now ≤ now)
    (hmet : ¬ k.CarriesFocus (.update now signals)) :
    SparesAbsence config past ⟨now, (k.update now signals).2⟩ := by
  intro hcharged v hv hrecent haway
  rw [update_focusPressure, focusPressure_pos_iff] at hcharged
  obtain ⟨-, hfocus, hlong⟩ := hcharged
  rw [if_pos hfocus, PresenceTracker.config_updateFocus, h.config_eq] at hlong
  have hcleared : v.now ≤ (k.updateFocus now signals).focusSince :=
    (h.update hpast hmet).absence v hv haway hfocus
  have hwindow : now - config.focusJealousySeconds ≤ v.now := hrecent
  linarith

/-- In a run that never carries the timer of an app through an absence, no absence is charged
as focus on an app. -/
theorem absence_never_charged (config : PresenceConfig) (lastInteraction : ℚ)
    (calls : List TrackerCall) (hmono : (calls.map TrackerCall.now).Pairwise (· ≤ ·))
    (hmet : Meets PresenceTracker.call (fun k c => ¬ k.CarriesFocus c)
      { config, lastInteraction } calls)
    (before after : List Update) (u : Update)
    (hsplit : PresenceTracker.updates { config, lastInteraction } calls =
      before ++ u :: after) : SparesAbsence config before u := by
  have hfresh : Cleared config [] { config, lastInteraction } := ⟨rfl, by simp⟩
  refine updates_induction (J := Cleared config) (P := SparesAbsence config)
    (C := fun k c => ¬ k.CarriesFocus c) ?_ ?_ hfresh (by simp) hmono hmet hsplit
  · intro past k now h
    exact ⟨h.config_eq, h.absence⟩
  · intro past k now signals h hpast hmet
    exact ⟨h.update hpast hmet, h.sparesAbsence hpast hmet⟩

/-- Nothing weaker will do: a timer carried through an absence charges that absence at the end
of its window, when the owner is found at the same app. -/
theorem carried_focus_charges (hcarried : k.CarriesFocus (.update now signals)) :
    0 < ((k.update now signals).1.update (now + k.config.focusJealousySeconds)
      { present := some true, foregroundApp := k.focusApp }).2.focusPressure := by
  obtain ⟨haway, hsame, hfocus, hsince⟩ := hcarried
  have hwindow := k.config.focusJealousy_pos
  have hnotEngaged : k.isEngaged now = false := by
    cases hengaged : k.isEngaged now with
    | false => rfl
    | true => simp [PresenceTracker.classify, hengaged] at haway
  have hstill : (k.update now signals).1.isEngaged (now + k.config.focusJealousySeconds) =
      false := by
    simp only [PresenceTracker.isEngaged, decide_eq_false_iff_not, not_and, not_le,
      PresenceTracker.update, updateFocus_of_eq hsame] at hnotEngaged ⊢
    intro hinteraction
    have := hnotEngaged hinteraction
    linarith
  have hclassify : (k.update now signals).1.classify (now + k.config.focusJealousySeconds)
      { present := some true, foregroundApp := k.focusApp } = .presentIgnoring := by
    simp [PresenceTracker.classify, hstill]
  have hcarry : (k.update now signals).1.updateFocus (now + k.config.focusJealousySeconds)
      { present := some true, foregroundApp := k.focusApp } = (k.update now signals).1 := by
    refine updateFocus_of_eq ?_
    simp [PresenceTracker.update, updateFocus_of_eq hsame]
  rw [update_focusPressure, hclassify, hcarry, update_hasFocus, update_focusSince,
    updateFocus_of_eq hsame, if_pos hfocus, focusPressure_pos_iff]
  refine ⟨rfl, ?_, ?_⟩
  · rw [update_hasFocus, updateFocus_of_eq hsame, hfocus]
  · have hconfig : (k.update now signals).1.config = k.config :=
      PresenceTracker.config_updateFocus
    rw [hconfig]
    linarith

/-- The owner is at the app, or gone while it is still in front. -/
def inFront (present : Bool) (app : String) : PresenceSignals where
  present := some present
  foregroundApp := some (str app)

/-- The owner leaves at 600 with `screen` in front, and is seen at the editor at 700 and 1500. -/
def leavingEditor (screen : String) : List TrackerCall :=
  [.update 0 (inFront true "editor"), .update 600 (inFront false screen),
    .update 700 (inFront true "editor"), .update 1500 (inFront true "editor")]

theorem absence_never_charged_locked :
    SparesAbsence .default
      ((PresenceTracker.updates {} (leavingEditor "lock screen")).take 3)
      { now := 1500
        report :=
          { state := .presentIgnoring
            ignoredSeconds := 800
            awaySeconds := 0
            returnedFromAway := false
            awayBeforeReturn := 0
            focusApp := some (str "editor")
            focusSeconds := 800
            focusPressure := 0 } } :=
  absence_never_charged .default 0 (leavingEditor "lock screen") (by decide) (by decide +kernel)
    _ [] _ (by decide +kernel)

/-- With the editor in front throughout, the time away counts as focus on it. -/
theorem absence_charged :
    ¬ ∀ (config : PresenceConfig) (lastInteraction : ℚ) (calls : List TrackerCall),
      (calls.map TrackerCall.now).Pairwise (· ≤ ·) → ∀ (before after : List Update) (u : Update),
      PresenceTracker.updates { config, lastInteraction } calls = before ++ u :: after →
      SparesAbsence config before u := by
  intro h
  have hspared := h .default 0 (leavingEditor "editor") (by decide)
    ((PresenceTracker.updates {} (leavingEditor "editor")).take 3) []
    { now := 1500
      report :=
        { state := .presentIgnoring
          ignoredSeconds := 800
          awaySeconds := 0
          returnedFromAway := false
          awayBeforeReturn := 0
          focusApp := some (str "editor")
          focusSeconds := 1500
          focusPressure := 1 / 4 } } (by decide +kernel)
  revert hspared
  simp only [SparesAbsence]
  decide +kernel

end Hologotchi.Presence
