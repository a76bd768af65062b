import Hologotchi.Presence.Tracker
import Hologotchi.Library.Runs
import Hologotchi.Library.Stretches
import Mathlib.Data.List.ReduceOption

/-! The two timestamps of the presence tracker carry the stretches of its runs. -/
namespace Hologotchi.Presence

open Python Library

/-- What a caller does to the tracker. -/
inductive TrackerCall
  | noteInteraction (now : ℚ)
  | update (now : ℚ) (signals : PresenceSignals)

def TrackerCall.now : TrackerCall → ℚ
  | .noteInteraction now | .update now _ => now

/-- One update as it happened. -/
structure Update where
  now : ℚ
  report : PresenceReport
  deriving DecidableEq

namespace PresenceTracker

def call (k : PresenceTracker) : TrackerCall → PresenceTracker × Option Update
  | .noteInteraction now => (k.noteInteraction now, none)
  | .update now signals =>
    let (after, report) := k.update now signals
    (after, some { now, report })

/-- The updates of a run, in order. -/
def updates (k : PresenceTracker) (calls : List TrackerCall) : List Update :=
  (answers call k calls).reduceOption

end PresenceTracker

def lastState (us : List Update) : Option PresenceState := us.getLast?.map fun u => u.report.state

/-- The first update of the stretch of `s` at the end of `us`. -/
def stretchStart (s : PresenceState) (us : List Update) : Option Update :=
  Stretches.start (fun u => u.report.state = s) us

/-- How long ago that stretch began; outside one, 0. -/
def lasted (s : PresenceState) (us : List Update) (now : ℚ) : ℚ :=
  ((stretchStart s us).map fun u => now - u.now).getD 0

/-- What the report of an update says about the updates before it. -/
structure MatchesHistory (config : PresenceConfig) (past : List Update) (u : Update) : Prop where
  returned_from_away : u.report.returnedFromAway = true ↔
    lastState past = some .away ∧ u.report.state ≠ .away ∧
      config.returnMinSeconds ≤ lasted .away past u.now
  away_before_return : u.report.awayBeforeReturn =
    if lastState past = some .away ∧ u.report.state ≠ .away then lasted .away past u.now else 0
  just_left : u.report.justLeft = true ↔
    u.report.state = .away ∧ ∃ s, lastState past = some s ∧ s ≠ .away
  away_seconds : u.report.awaySeconds =
    if u.report.state = .away then lasted .away (past ++ [u]) u.now else 0
  ignored_seconds : u.report.ignoredSeconds =
    if u.report.state = .presentIgnoring then lasted .presentIgnoring (past ++ [u]) u.now else 0

/-- The tracker agrees with the updates that led to it. -/
structure Remembers (config : PresenceConfig) (past : List Update) (k : PresenceTracker) :
    Prop where
  config_eq : k.config = config
  state : k.state = lastState past
  away_since : k.state = some .away → ∃ u, stretchStart .away past = some u ∧ u.now = k.awaySince
  state_since : ∀ s, k.state = some s → ∃ u, stretchStart s past = some u ∧ u.now = k.stateSince

variable {config : PresenceConfig} {past : List Update} {k : PresenceTracker} {u : Update}
  {s : PresenceState} {now : ℚ} {signals : PresenceSignals}

@[simp] theorem lastState_append : lastState (past ++ [u]) = some u.report.state := by
  simp [lastState]

theorem stretchStart_isSome : (stretchStart s past).isSome ↔ lastState past = some s := by
  simp [stretchStart, Stretches.isSome_start, lastState]

namespace PresenceTracker

@[simp] theorem state_updateFocus : (k.updateFocus now signals).state = k.state := by
  unfold updateFocus
  split <;> rfl

@[simp] theorem config_updateFocus : (k.updateFocus now signals).config = k.config := by
  unfold updateFocus
  split <;> rfl

@[simp] theorem awaySince_updateFocus : (k.updateFocus now signals).awaySince = k.awaySince := by
  unfold updateFocus
  split <;> rfl

@[simp] theorem stateSince_updateFocus :
    (k.updateFocus now signals).stateSince = k.stateSince := by
  unfold updateFocus
  split <;> rfl

end PresenceTracker

theorem remembers_fresh (config : PresenceConfig) (lastInteraction : ℚ) :
    Remembers config [] { config, lastInteraction } where
  config_eq := rfl
  state := rfl
  away_since := by simp
  state_since := by simp

theorem Remembers.noteInteraction (h : Remembers config past k) (now : ℚ) :
    Remembers config past (k.noteInteraction now) :=
  ⟨h.config_eq, h.state, h.away_since, h.state_since⟩

/-- A stretch that goes on keeps its start, and one that begins starts at this update. -/
theorem stretchStart_update (h : u.report.state = s) :
    ∃ v, stretchStart s (past ++ [u]) = some v ∧
      ((lastState past = some s ∧ stretchStart s past = some v) ∨
        (lastState past ≠ some s ∧ v = u)) := by
  have hcases := Stretches.start_append_cases (p := fun u : Update => u.report.state = s)
    (l := past) (decide_eq_true h)
  rcases hcases with ⟨v, hv, hafter⟩ | ⟨hother, hafter⟩
  · have hlast : lastState past = some s := stretchStart_isSome.mp (Option.isSome_of_mem hv)
    exact ⟨v, hafter, .inl ⟨hlast, hv⟩⟩
  · refine ⟨u, hafter, .inr ⟨?_, rfl⟩⟩
    intro hlast
    obtain ⟨v, hv, hs⟩ := Option.map_eq_some_iff.mp hlast
    exact hother v hv (decide_eq_true hs)

theorem Remembers.update (h : Remembers config past k) (now : ℚ) (signals : PresenceSignals) :
    Remembers config (past ++ [{ now, report := (k.update now signals).2 }])
      (k.update now signals).1 := by
  have hlast := h.state
  refine ⟨?_, ?_, ?_, ?_⟩
  · simpa [PresenceTracker.update] using h.config_eq
  · simp [PresenceTracker.update]
  · intro haway
    have hnew : (k.update now signals).2.state = .away := Option.some.inj haway
    obtain ⟨v, hv, ⟨hsame, hstart⟩ | ⟨hother, rfl⟩⟩ :=
      stretchStart_update (u := ⟨now, (k.update now signals).2⟩) hnew
    · obtain ⟨w, hw, hsince⟩ := h.away_since (hlast.trans hsame)
      obtain rfl : v = w := Option.some.inj (hstart.symm.trans hw)
      refine ⟨v, hv, ?_⟩
      simp [PresenceTracker.update, hlast, hsame, hsince]
    · refine ⟨_, hv, ?_⟩
      have hclassify : k.classify now signals = .away := hnew
      simp [PresenceTracker.update, hlast, hother, hclassify]
  · intro s hs
    have hnew : (k.update now signals).2.state = s := Option.some.inj hs
    have hclassify : k.classify now signals = s := hnew
    obtain ⟨v, hv, ⟨hsame, hstart⟩ | ⟨hother, rfl⟩⟩ :=
      stretchStart_update (u := ⟨now, (k.update now signals).2⟩) hnew
    · obtain ⟨w, hw, hsince⟩ := h.state_since s (hlast.trans hsame)
      obtain rfl : v = w := Option.some.inj (hstart.symm.trans hw)
      refine ⟨v, hv, ?_⟩
      simp [PresenceTracker.update, hlast, hsame, hsince, hclassify]
    · refine ⟨_, hv, ?_⟩
      simp [PresenceTracker.update, hlast, hclassify, Ne.symm hother]

theorem Remembers.lasted_away (h : Remembers config past k) (haway : k.state = some .away)
    (now : ℚ) : lasted .away past now = now - k.awaySince := by
  obtain ⟨u, hu, hsince⟩ := h.away_since haway
  simp [lasted, hu, hsince]

theorem Remembers.lasted_state (h : Remembers config past k) (hs : k.state = some s) (now : ℚ) :
    lasted s past now = now - k.stateSince := by
  obtain ⟨u, hu, hsince⟩ := h.state_since s hs
  simp [lasted, hu, hsince]

/-- The stretch did not begin after the times seen so far. -/
theorem Remembers.awaySince_le (h : Remembers config past k) (haway : k.state = some .away)
    (hpast : ∀ u ∈ past, u.now ≤ now) : k.awaySince ≤ now := by
  obtain ⟨u, hu, hsince⟩ := h.away_since haway
  exact hsince ▸ hpast u (Stretches.mem_of_start hu)

theorem Remembers.awayBeforeReturn_update (h : Remembers config past k)
    (hpast : ∀ u ∈ past, u.now ≤ now) (signals : PresenceSignals) :
    (k.update now signals).2.awayBeforeReturn =
      if lastState past = some .away ∧ (k.update now signals).2.state ≠ .away then
        lasted .away past now else 0 := by
  rw [← h.state]
  by_cases hback : k.state = some .away ∧ (k.update now signals).2.state ≠ .away
  · have hle : 0 ≤ now - k.awaySince := sub_nonneg.mpr (h.awaySince_le hback.1 hpast)
    rw [if_pos hback, h.lasted_away hback.1]
    have hclassify : k.classify now signals ≠ .away := hback.2
    simp [PresenceTracker.update, hback.1, hclassify, hle]
  · rw [if_neg hback]
    have hclassify : ¬ (k.state = some .away ∧ k.classify now signals ≠ .away) := hback
    simp only [PresenceTracker.update, PresenceTracker.state_updateFocus, if_neg hclassify]

theorem Remembers.returnedFromAway_update (h : Remembers config past k)
    (hpast : ∀ u ∈ past, u.now ≤ now) (signals : PresenceSignals) :
    (k.update now signals).2.returnedFromAway = true ↔
      lastState past = some .away ∧ (k.update now signals).2.state ≠ .away ∧
        config.returnMinSeconds ≤ lasted .away past now := by
  have hreturned : (k.update now signals).2.returnedFromAway = true ↔
      (k.state = some .away ∧ (k.update now signals).2.state ≠ .away) ∧
        k.config.returnMinSeconds ≤ (k.update now signals).2.awayBeforeReturn := by
    simp [PresenceTracker.update]
  rw [hreturned, h.awayBeforeReturn_update hpast, h.state, h.config_eq]
  constructor
  · rintro ⟨hback, hlong⟩
    rw [if_pos hback] at hlong
    exact ⟨hback.1, hback.2, hlong⟩
  · rintro ⟨haway, hnew, hlong⟩
    refine ⟨⟨haway, hnew⟩, ?_⟩
    rwa [if_pos ⟨haway, hnew⟩]

theorem Remembers.matchesHistory (h : Remembers config past k)
    (hpast : ∀ u ∈ past, u.now ≤ now) (signals : PresenceSignals) :
    MatchesHistory config past { now, report := (k.update now signals).2 } := by
  have hafter := h.update now signals
  refine ⟨h.returnedFromAway_update hpast signals, h.awayBeforeReturn_update hpast signals,
    ?_, ?_, ?_⟩
  · rw [← h.state]
    have hleft : (k.update now signals).2.justLeft = true ↔
        (k.update now signals).2.state = .away ∧ k.state ≠ none ∧ k.state ≠ some .away := by
      simp [PresenceTracker.update]
    rw [hleft]
    cases k.state <;> simp
  · by_cases haway : (k.update now signals).2.state = .away
    · rw [if_pos haway, hafter.lasted_away (congrArg some haway)]
      exact if_pos haway
    · rw [if_neg haway]
      exact if_neg haway
  · by_cases hignoring : (k.update now signals).2.state = .presentIgnoring
    · rw [if_pos hignoring, hafter.lasted_state (congrArg some hignoring)]
      exact if_pos hignoring
    · rw [if_neg hignoring]
      exact if_neg hignoring

variable {calls : List TrackerCall} {c : TrackerCall}

namespace PresenceTracker

theorem updates_nil (k : PresenceTracker) : k.updates [] = [] := rfl

theorem updates_note : k.updates (.noteInteraction now :: calls) =
    (k.noteInteraction now).updates calls := List.reduceOption_cons_of_none _

theorem updates_update : k.updates (.update now signals :: calls) =
    ⟨now, (k.update now signals).2⟩ :: (k.update now signals).1.updates calls :=
  List.reduceOption_cons_of_some _ _

end PresenceTracker

/-- What every update shows of the updates before it, while the tracker keeps agreeing with
them, every update of a run shows. The condition is on the steps of the run. -/
theorem updates_induction {J : List Update → PresenceTracker → Prop}
    {P : List Update → Update → Prop} {C : PresenceTracker → TrackerCall → Prop}
    (hnote : ∀ {past k} now, J past k → J past (k.noteInteraction now))
    (hupdate : ∀ {past k} now signals, J past k → (∀ u ∈ past, u.now ≤ now) →
      C k (.update now signals) →
      J (past ++ [⟨now, (k.update now signals).2⟩]) (k.update now signals).1 ∧
        P past ⟨now, (k.update now signals).2⟩)
    (h : J past k) (hpast : ∀ u ∈ past, ∀ c ∈ calls, u.now ≤ c.now)
    (hmono : (calls.map TrackerCall.now).Pairwise (· ≤ ·))
    (hmet : Meets PresenceTracker.call C k calls)
    {before after : List Update} (hsplit : k.updates calls = before ++ u :: after) :
    P (past ++ before) u := by
  induction calls generalizing k past before with
  | nil => simp [PresenceTracker.updates_nil] at hsplit
  | cons c calls ih =>
    obtain ⟨hfirst, hrest⟩ := List.pairwise_cons.mp hmono
    have hold : ∀ u ∈ past, ∀ c ∈ calls, u.now ≤ c.now := fun u hu c hc =>
      hpast u hu c (List.mem_cons_of_mem _ hc)
    obtain ⟨hnow, hlater⟩ := hmet
    cases c with
    | noteInteraction now =>
      rw [PresenceTracker.updates_note] at hsplit
      exact ih (hnote now h) hold hrest hlater hsplit
    | update now signals =>
      rw [PresenceTracker.updates_update] at hsplit
      have hearlier : ∀ u ∈ past, u.now ≤ now := fun u hu => hpast u hu _ List.mem_cons_self
      obtain ⟨hafter, hshown⟩ := hupdate now signals h hearlier hnow
      cases before with
      | nil =>
        obtain ⟨rfl, -⟩ := List.cons.inj hsplit
        simpa using hshown
      | cons v before =>
        obtain ⟨rfl, hrestSplit⟩ := List.cons.inj hsplit
        have hnew : ∀ u ∈ past ++ [⟨now, (k.update now signals).2⟩], ∀ c ∈ calls,
            u.now ≤ c.now := by
          intro u hu c hc
          rcases List.mem_append.mp hu with hu | hu
          · exact hold u hu c hc
          · obtain rfl := List.mem_singleton.mp hu
            exact hfirst c.now (List.mem_map_of_mem hc)
        simpa using ih hafter hnew hrest hlater hrestSplit

/-- Every report of a run matches the updates before it. -/
theorem reports_match_history (config : PresenceConfig) (lastInteraction : ℚ)
    (calls : List TrackerCall) (hmono : (calls.map TrackerCall.now).Pairwise (· ≤ ·))
    (before after : List Update) (u : Update)
    (hsplit : PresenceTracker.updates { config, lastInteraction } calls =
      before ++ u :: after) : MatchesHistory config before u := by
  have hfresh := remembers_fresh config lastInteraction
  refine updates_induction (J := Remembers config) (P := MatchesHistory config)
    (C := fun _ _ => True) ?_ ?_ hfresh (by simp) hmono
    (meets_of_forall (fun _ _ _ => trivial) _) hsplit
  · intro past k now h
    exact h.noteInteraction now
  · intro past k now signals h hpast _
    exact ⟨h.update now signals, h.matchesHistory hpast signals⟩

/-- Absent at 100 by an explicit source, and present again at 400. -/
def comingBack : List TrackerCall :=
  [.noteInteraction 5, .update 100 { present := some false }, .update 400 { present := some true }]

theorem reports_match_history_comingBack :
    MatchesHistory .default ((PresenceTracker.updates {} comingBack).take 1)
      { now := 400
        report :=
          { state := .presentIgnoring
            ignoredSeconds := 0
            awaySeconds := 0
            returnedFromAway := true
            awayBeforeReturn := 300
            focusApp := none
            focusSeconds := 0
            focusPressure := 0 } } :=
  reports_match_history .default 0 comingBack (by decide) _ [] _ (by decide +kernel)

end Hologotchi.Presence
