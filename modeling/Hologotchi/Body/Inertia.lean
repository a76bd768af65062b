import Hologotchi.Body.Ticks
import Mathlib.Tactic.NormNum

/-! How long a nap lasts when nothing wakes the body but the model's own proposals. -/
namespace Hologotchi.Body

open Python Protocol Presence Library

/-- Nothing in the tick itself is a reason to wake. -/
def Tick.Quiet (t : Tick) : Prop :=
  t.input.eventSource ∉ wakeTriggerSources ∧
    reported t.input.report (·.returnedFromAway) = false ∧
    reported t.input.report (·.engaged) = false ∧
    t.situation.sleepPressure = true ∧ t.input.behavior.alert = false

/-- The tick starts drowsy and the model proposes to be awake. -/
def Tick.ProposesToWake (t : Tick) : Prop :=
  t.before.state = .drowsy ∧ t.input.proposed.bind BodyState.coerce = some .awake

instance : DecidablePred Tick.Quiet := fun t =>
  inferInstanceAs (Decidable (t.input.eventSource ∉ wakeTriggerSources ∧
    reported t.input.report (·.returnedFromAway) = false ∧
    reported t.input.report (·.engaged) = false ∧
    t.situation.sleepPressure = true ∧ t.input.behavior.alert = false))

instance : DecidablePred Tick.ProposesToWake := fun t =>
  inferInstanceAs (Decidable (t.before.state = .drowsy ∧
    t.input.proposed.bind BodyState.coerce = some .awake))

/-- No tick before the nap minimum leaves a body asleep since `t₀` awake. -/
def SleepInertia (m : BodyModel) (t₀ : ℚ) (is : List TickInput) : Prop :=
  ∀ t ∈ ticks m is, t.input.now < t₀ + m.config.minNapSeconds → t.after.state ≠ .awake

variable {m : BodyModel} {i : TickInput} {is : List TickInput} {s : BodyState} {f : Flags}
  {deadline : ℚ}

theorem evaluate_quiet (hs : s = .sleeping ∨ s = .drowsy) (hw : f.wakeTrigger = false)
    (he : f.engaged = false) (hp : f.sleepPressure = true) :
    (evaluate s f).2 ≠ .awake ∧ .waking ∉ (evaluate s f).1 ∧
      (.awake ∈ (evaluate s f).1 ↔ s = .drowsy) := by
  rcases hs with rfl | rfl
  · simp [evaluate, hw, hp, mem_order]
  · by_cases hr : f.drowsyReady = true
    · simp [evaluate, hw, he, hp, hr, mem_order]
    · simp [evaluate, hw, he, hp, hr, mem_order]

theorem force_state_of_ne_waking {now : ℚ} (h : m.state ≠ .waking) :
    (m.force now).state = m.state := by
  rcases force_state m now with he | ⟨hw, -⟩
  · exact he
  · exact absurd hw h

/-- A quiet tick of a resting body ends resting, unless it starts drowsy and the model
proposes to wake: then it ends awake. -/
theorem quiet_tick (hs : m.state = .sleeping ∨ m.state = .drowsy) (hq : (tick m i).Quiet) :
    ((tick m i).after.state = .awake ↔ (tick m i).ProposesToWake) ∧
      (tick m i).after.state ≠ .waking := by
  obtain ⟨hsource, hreturn, hengaged, hpressure, halert⟩ := hq
  rw [tick_input] at hsource hreturn hengaged halert
  have hstate : (m.force i.now).state = m.state := by
    apply force_state_of_ne_waking
    rcases hs with hs | hs <;> simp [hs]
  have hwake : (i.flags (m.force i.now)).wakeTrigger = false := by
    simp [TickInput.flags, BodyModel.flags, wakeTrigger, hsource, hreturn]
  have hoptions : (tick m i).situation.defaultState ≠ .awake ∧
      .waking ∉ (tick m i).situation.allowedStates ∧
      (.awake ∈ (tick m i).situation.allowedStates ↔ (m.force i.now).state = .drowsy) :=
    evaluate_quiet (hstate ▸ hs) hwake hengaged hpressure
  obtain ⟨hdefault, hwaking, hallowed⟩ := hoptions
  constructor
  · rw [tick_after_state, target_eq_iff halert hdefault]
    rw [hallowed, hstate]
    exact And.comm
  · intro hafter
    rcases tick_after_allowed (m := m) (i := i) with hmem | ⟨ha, -⟩
    · exact hwaking (hafter ▸ hmem)
    · simp [halert] at ha

/-- Over a quiet run, waking before the deadline always goes through such a proposal. -/
theorem rests_until_iff (hs : m.state = .sleeping ∨ m.state = .drowsy)
    (hq : ∀ t ∈ ticks m is, t.Quiet) (hmono : (is.map TickInput.now).Pairwise (· ≤ ·)) :
    (∀ t ∈ ticks m is, t.input.now < deadline → t.after.state ≠ .awake) ↔
      ∀ t ∈ ticks m is, t.input.now < deadline → ¬ t.ProposesToWake := by
  induction is generalizing m with
  | nil => simp [ticks]
  | cons i is ih =>
    have hcons : ticks m (i :: is) = tick m i :: ticks (tick m i).after is := rfl
    obtain ⟨hfirst, hmono⟩ := List.pairwise_cons.mp hmono
    rw [hcons] at hq ⊢
    obtain ⟨hstep, hwaking⟩ := quiet_tick hs (hq _ List.mem_cons_self)
    have hrest := fun t ht => hq t (List.mem_cons_of_mem _ ht)
    by_cases hi : i.now < deadline
    · by_cases hawake : (tick m i).after.state = .awake
      · -- Both sides fail at this tick.
        refine iff_of_false (fun h => ?_) (fun h => ?_)
        · exact h _ List.mem_cons_self hi hawake
        · exact h _ List.mem_cons_self hi (hstep.mp hawake)
      · have hnext : (tick m i).after.state = .sleeping ∨ (tick m i).after.state = .drowsy := by
          cases h : (tick m i).after.state <;> simp_all
        have hno : ¬ (tick m i).ProposesToWake := by
          intro h
          exact hawake (hstep.mpr h)
        simp only [List.forall_mem_cons, tick_input, hi, forall_true_left, ne_eq, hawake, hno,
          not_false_eq_true, true_and]
        exact ih hnext hrest hmono
    · -- The deadline has passed for this tick and every later one.
      have hpast : ∀ t ∈ tick m i :: ticks (tick m i).after is, ¬ t.input.now < deadline := by
        intro t ht hlt
        rcases List.mem_cons.mp ht with rfl | ht
        · exact hi hlt
        · obtain ⟨before, later, hsplit⟩ := List.append_of_mem ht
          obtain ⟨js, j, ks, rfl, -, rfl⟩ := answers_eq_append hsplit
          have hle : i.now ≤ j.now := hfirst _ (by simp)
          exact hi (lt_of_le_of_lt hle hlt)
      exact iff_of_true (fun t ht hlt => absurd hlt (hpast t ht))
        (fun t ht hlt => absurd hlt (hpast t ht))

theorem setState_config (t : BodyState) (now : ℚ) : (m.setState t now).config = m.config := by
  simp only [BodyModel.setState]
  split <;> rfl

/-- Once `resolve` leaves the body asleep at `t₀`, a quiet run keeps the nap minimum exactly
when no earlier tick has a drowsy body and a proposal to be awake. -/
theorem sleep_inertia_iff (m : BodyModel) (situation : BodySituation) (behavior : BehaviorCommand)
    (proposed : Option Str) (t₀ : ℚ) (is : List TickInput)
    (hasleep : (m.resolve situation behavior proposed t₀).1.state = .sleeping)
    (hmono : (is.map TickInput.now).Pairwise (· ≤ ·))
    (hquiet : ∀ t ∈ ticks (m.resolve situation behavior proposed t₀).1 is, t.Quiet) :
    SleepInertia (m.resolve situation behavior proposed t₀).1 t₀ is ↔
      ∀ t ∈ ticks (m.resolve situation behavior proposed t₀).1 is,
        t.input.now < t₀ + m.config.minNapSeconds → ¬ t.ProposesToWake := by
  have hconfig : (m.resolve situation behavior proposed t₀).1.config = m.config :=
    setState_config _ _
  simp only [SleepInertia]
  rw [hconfig]
  exact rests_until_iff (.inl hasleep) hquiet hmono

/-- A quiet tick of a tired body with a proposed next state. -/
def tiredProposal (now : ℚ) (state : String) : TickInput where
  now := now
  affect := { sleepiness := 80 }
  report := none
  eventSource := str "idle"
  localHour := 14
  behavior := ⟨.calm, .idle, none, false, 5000⟩
  proposed := some (str state)

/-- A tired body, drowsy for long enough to fall asleep at 1000. -/
def tiredBody : BodyModel := { state := .drowsy, stateSince := 700 }

def tiredSituation : BodySituation := (tick tiredBody (tiredProposal 1000 "sleeping")).situation

theorem sleep_inertia_iff_stirring :
    SleepInertia (tiredBody.resolve tiredSituation ⟨.calm, .idle, none, false, 5000⟩ none 1000).1
      1000 [tiredProposal 1006 "drowsy", tiredProposal 1012 "sleeping"] :=
  (sleep_inertia_iff tiredBody tiredSituation ⟨.calm, .idle, none, false, 5000⟩ none 1000
    [tiredProposal 1006 "drowsy", tiredProposal 1012 "sleeping"] (by decide +kernel)
    (by decide +kernel) (by decide +kernel)).mpr (by decide +kernel)

/-- Two proposals in a row, drowsy and then awake, end a nap after twelve seconds. -/
theorem sleep_inertia_fails :
    ¬ ∀ (m : BodyModel) (situation : BodySituation) (behavior : BehaviorCommand)
      (proposed : Option Str) (t₀ : ℚ) (is : List TickInput), m.state ≠ .sleeping →
      (m.resolve situation behavior proposed t₀).1.state = .sleeping →
      (∀ i ∈ is, t₀ ≤ i.now) → (is.map TickInput.now).Pairwise (· ≤ ·) →
      (∀ t ∈ ticks (m.resolve situation behavior proposed t₀).1 is, t.Quiet) →
      SleepInertia (m.resolve situation behavior proposed t₀).1 t₀ is := by
  intro h
  have hinertia := h tiredBody tiredSituation ⟨.calm, .idle, none, false, 5000⟩ none 1000
    [tiredProposal 1006 "drowsy", tiredProposal 1012 "awake"] (by decide) (by decide +kernel)
    (by decide +kernel) (by decide +kernel) (by decide +kernel)
  revert hinertia
  simp only [SleepInertia]
  decide +kernel

end Hologotchi.Body
