import Hologotchi.Body.Ticks

/-! A rested body by day and the one way it can still end a tick asleep. -/
namespace Hologotchi.Body

open Python Protocol Presence

variable {m : BodyModel} {i : TickInput} {s : BodyState} {f : Flags}

/-- The affect of the tick is well rested, and its hour is not late. -/
def TickInput.RestedByDay (i : TickInput) (m : BodyModel) : Prop :=
  wellRested i.affect = true ∧ m.config.isLateNight i.localHour = false

instance : Decidable (i.RestedByDay m) := instDecidableAnd

/-- The body is asleep, something wakes it, and the model proposes to stay asleep. -/
def TickInput.KeptAsleep (i : TickInput) (m : BodyModel) : Prop :=
  m.state = .sleeping ∧ wakeTrigger i.eventSource i.report = true ∧
    i.proposed.bind BodyState.coerce = some .sleeping ∧ i.behavior.alert = false

instance : Decidable (i.KeptAsleep m) := instDecidableAnd

theorem not_isSleepy_of_wellRested {affect : Affect} (h : wellRested affect = true) :
    affect.isSleepy = false := by
  obtain ⟨henergy, hsleepiness⟩ := of_decide_eq_true h
  refine decide_eq_false ?_
  rintro (hsleepy | htired)
  · have hlevel : Affect.sleepyLevel ≤ wellRestedSleepiness := hsleepy.trans hsleepiness
    exact absurd hlevel (by decide)
  · have hlevel : wellRestedEnergy < Affect.withdrawnEnergy := henergy.trans_lt htired
    exact absurd hlevel (by decide)

/-- Being away is pressure to sleep only on a tired body. -/
theorem sleepPressure_of_wellRested {c : BodyConfig} {affect : Affect}
    {report : Option PresenceReport} {localHour : ℤ} (h : wellRested affect = true)
    (hday : c.isLateNight localHour = false) :
    c.sleepPressure affect report localHour = false := by
  simp [BodyConfig.sleepPressure, not_isSleepy_of_wellRested h, hday, h]

/-- Without pressure to sleep a rested body is never put to sleep by default. -/
theorem evaluate_rested_default (hp : f.sleepPressure = false) (hr : f.wellRested = true) :
    (evaluate s f).2 ≠ .sleeping := by
  cases s <;> simp only [evaluate, hp, hr] <;> split_ifs <;> simp_all

/-- Of all the branches, only the one for a sleeper with a reason to wake offers sleep: it comes
before the one that refuses it. -/
theorem sleeping_mem_evaluate_rested (hp : f.sleepPressure = false) (hr : f.wellRested = true) :
    .sleeping ∈ (evaluate s f).1 ↔ s = .sleeping ∧ f.wakeTrigger = true := by
  constructor
  · intro hmem
    rcases sleeping_mem_evaluate hmem with rfl | ⟨rfl, -, hpressure, -⟩
    · refine ⟨rfl, ?_⟩
      by_contra hw
      simp [evaluate, hw, hp, hr, mem_order] at hmem
    · simp [hp] at hpressure
  · rintro ⟨rfl, hw⟩
    simp [evaluate, hw, mem_order]

theorem force_config (m : BodyModel) (now : ℚ) : (m.force now).config = m.config := by
  unfold BodyModel.force
  simp only
  split_ifs <;> rfl

theorem force_sleeping_iff (m : BodyModel) (now : ℚ) :
    (m.force now).state = .sleeping ↔ m.state = .sleeping := by
  rcases force_state m now with hsame | ⟨hwaking, hawake⟩
  · rw [hsame]
  · simp [hwaking, hawake]

/-- A rested body ends a day tick asleep only when something wakes it and it is proposed to
sleep on. -/
theorem rested_not_sleeping_iff (m : BodyModel) (i : TickInput) (hrested : i.RestedByDay m) :
    (tick m i).after.state ≠ .sleeping ↔ ¬ i.KeptAsleep m := by
  obtain ⟨hwell, hday⟩ := hrested
  have hpressure : (i.flags (m.force i.now)).sleepPressure = false :=
    sleepPressure_of_wellRested hwell ((force_config m i.now).symm ▸ hday)
  have hdefault : (tick m i).situation.defaultState ≠ .sleeping :=
    evaluate_rested_default hpressure hwell
  have hallowed : .sleeping ∈ (tick m i).situation.allowedStates ↔
      m.state = .sleeping ∧ wakeTrigger i.eventSource i.report = true := by
    rw [← force_sleeping_iff m i.now]
    exact sleeping_mem_evaluate_rested hpressure hwell
  refine not_congr ?_
  rw [tick_after_state, TickInput.KeptAsleep]
  cases halert : i.behavior.alert with
  | true => simp [BodyModel.target, halert]
  | false =>
    rw [target_eq_iff halert hdefault, hallowed]
    tauto

/-- A full-energy body asleep since 1000, touched five seconds later while the model proposes
`state`. -/
def touchedSleeper : BodyModel := { state := .sleeping, stateSince := 1000, sleepStartedAt := 1000 }

def restedTouch (state : String) : TickInput where
  now := 1005
  affect := { energy := 100, sleepiness := 0 }
  report := none
  eventSource := str "touch"
  localHour := 14
  behavior := ⟨.calm, .nap, none, false, 5000⟩
  proposed := some (str state)

theorem rested_not_sleeping_iff_stirring :
    (tick touchedSleeper (restedTouch "drowsy")).after.state ≠ .sleeping :=
  (rested_not_sleeping_iff touchedSleeper (restedTouch "drowsy") (by decide +kernel)).mpr
    (by decide +kernel)

theorem rested_sleeper_stays_asleep :
    ¬ ∀ (m : BodyModel) (i : TickInput), i.RestedByDay m →
      (tick m i).after.state ≠ .sleeping := by
  intro h
  exact h touchedSleeper (restedTouch "sleeping") (by decide +kernel) (by decide +kernel)

end Hologotchi.Body
