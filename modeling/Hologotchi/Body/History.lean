import Hologotchi.Body.Ticks
import Hologotchi.Library.Stretches
import Mathlib.Tactic.Linarith

/-! The two timestamps of the body model carry the history of its runs. -/
namespace Hologotchi.Body

open Python Protocol Presence Library

/-- The forced transition or the resolved one changed the state. -/
def Tick.changed (t : Tick) : Bool :=
  t.before.state != t.situation.state || t.situation.state != t.after.state

/-- When the state, held without interruption up to the end of `ts`, was entered. -/
def enteredAt (s : BodyState) (ts : List Tick) : Option ℚ :=
  (ts.rtakeWhile fun t => t.after.state = s).head?.map fun t => t.input.now

/-- The time of the last state change, or of the first tick when there was none. -/
def lastChange (ts : List Tick) : Option ℚ :=
  ((ts.filter Tick.changed).getLast?.or ts.head?).map fun t => t.input.now

/-- A body model that has not ticked yet. -/
def BodyModel.fresh (config : BodyConfig) : BodyModel := { config }

/-- What holds of a tick `t` that follows the ticks `ts` of the same run. -/
structure Coherent (ts : List Tick) (t : Tick) : Prop where
  /-- The sleep clock runs exactly while sleeping, at every point of the tick. -/
  sleep_clock : ∀ m ∈ [t.before, t.advanced, t.after],
    (0 < m.sleepStartedAt ↔ m.state = .sleeping)
  sleep_since : t.after.state = .sleeping →
    enteredAt .sleeping (ts ++ [t]) = some t.after.sleepStartedAt
  state_since : lastChange (ts ++ [t]) = some t.after.stateSince
  /-- Falling asleep takes an uninterrupted drowsy stretch and a tick with nothing to wake for. -/
  falls_asleep : t.before.state ≠ .sleeping → t.after.state = .sleeping →
    t.before.state = .drowsy ∧ t.situation.state = .drowsy ∧
    (∃ t₀, enteredAt .drowsy ts = some t₀ ∧
      t.before.config.drowsyAfterSeconds ≤ t.input.now - t₀) ∧
    t.situation.sleepPressure = true ∧ t.situation.wakeTrigger = false ∧
    reported t.input.report (·.engaged) = false
  wakes_up : t.before.state ≠ .waking → t.after.state = .waking → t.before.state = .sleeping
  waking_ends : t.situation.state = .waking →
    ∃ t₀, enteredAt .waking ts = some t₀ ∧ t.input.now < t₀ + t.before.config.wakingSeconds
  default_allowed : t.situation.defaultState ∈ t.situation.allowedStates
  resolved_allowed : t.after.state ∈ t.situation.allowedStates ∨
    (t.input.behavior.alert = true ∧ t.after.state = .awake)

/-- The model agrees with the ticks that led to it. -/
structure Tracks (config : BodyConfig) (ts : List Tick) (m : BodyModel) : Prop where
  config_eq : m.config = config
  fresh : ts = [] → m.state = .awake ∧ m.stateSince = 0
  started : ts ≠ [] → 0 < m.stateSince ∧ lastChange ts = some m.stateSince
  sleep_clock : 0 < m.sleepStartedAt ↔ m.state = .sleeping
  sleep_since : m.state = .sleeping → m.sleepStartedAt = m.stateSince
  entered : m.state ≠ .awake → enteredAt m.state ts = some m.stateSince
  not_entered : ∀ s, s ≠ m.state → enteredAt s ts = none

variable {config : BodyConfig} {ts : List Tick} {t : Tick} {m : BodyModel} {i : TickInput}
  {s : BodyState}

theorem enteredAt_append (h : t.after.state = s) :
    enteredAt s (ts ++ [t]) = (enteredAt s ts).or (some t.input.now) := by
  have hstart := Stretches.start_append (p := fun t : Tick => t.after.state = s) (l := ts)
    (decide_eq_true h)
  rw [enteredAt, ← Stretches.start, hstart, enteredAt, ← Stretches.start]
  cases Stretches.start (fun t : Tick => t.after.state = s) ts <;> rfl

theorem enteredAt_append_of_ne (h : t.after.state ≠ s) : enteredAt s (ts ++ [t]) = none := by
  have hstart := Stretches.start_append_of_not (p := fun t : Tick => t.after.state = s) (l := ts)
    (by simpa using h)
  rw [enteredAt, ← Stretches.start, hstart]
  rfl

theorem lastChange_append : lastChange (ts ++ [t]) =
    if t.changed = true ∨ ts = [] then some t.input.now else lastChange ts := by
  simp only [lastChange]
  cases hc : t.changed with
  | true => simp [hc]
  | false =>
    cases ts with
    | nil => simp [hc]
    | cons u us => simp [hc]

theorem tracks_fresh (config : BodyConfig) : Tracks config [] (.fresh config) where
  config_eq := rfl
  fresh _ := ⟨rfl, rfl⟩
  started h := absurd rfl h
  sleep_clock := by simp [BodyModel.fresh]
  sleep_since h := by simp [BodyModel.fresh] at h
  entered h := absurd rfl h
  not_entered _ _ := rfl

/-- What the forced transitions do to a model that agrees with its history. -/
structure Forced (ts : List Tick) (m : BodyModel) (now : ℚ) (m' : BodyModel) : Prop where
  config_eq : m'.config = m.config
  sleep_eq : m'.sleepStartedAt = m.sleepStartedAt
  since_pos : 0 < m'.stateSince
  state : (m'.state = m.state ∧ (ts = [] → m'.stateSince = now) ∧
      (ts ≠ [] → m'.stateSince = m.stateSince)) ∨
    (m.state = .waking ∧ m'.state = .awake ∧ m'.stateSince = now)
  waking : m'.state = .waking → now - m.stateSince < m.config.wakingSeconds

theorem forced_force {now : ℚ} (h : Tracks config ts m) (hnow : 0 < now) :
    Forced ts m now (m.force now) := by
  have hsleep : ¬ (m.state = .sleeping ∧ m.sleepStartedAt ≤ 0) := by
    rintro ⟨hs, hle⟩
    exact absurd (h.sleep_clock.mpr hs) (not_lt.mpr hle)
  by_cases hts : ts = []
  · obtain ⟨hs, hz⟩ := h.fresh hts
    have hforce : m.force now = { m with stateSince := now } := by
      simp [BodyModel.force, hs, hz]
    rw [hforce]
    exact ⟨rfl, rfl, hnow, .inl ⟨rfl, fun _ => rfl, fun hn => absurd hts hn⟩, by simp [hs]⟩
  · have hpos := (h.started hts).1
    by_cases hw : m.state = .waking ∧ m.config.wakingSeconds ≤ now - m.stateSince
    · have hforce : m.force now = { m with state := .awake, stateSince := now } := by
        simp [BodyModel.force, not_le.mpr hpos, hw.1, hw.2]
      rw [hforce]
      exact ⟨rfl, rfl, hnow, .inr ⟨hw.1, rfl, rfl⟩, by simp⟩
    · have hforce : m.force now = m := by
        simp only [BodyModel.force, not_le.mpr hpos, if_false, hsleep, hw]
      rw [hforce]
      refine ⟨rfl, rfl, hpos, .inl ⟨rfl, fun hn => absurd hn hts, fun _ => rfl⟩, fun hs => ?_⟩
      exact not_le.mp fun hle => hw ⟨hs, hle⟩

/-- A tick that changes the state after `advance` never returns to the state before it. -/
theorem tick_after_ne (hne : (tick m i).after.state ≠ (m.force i.now).state) :
    (tick m i).after.state ≠ m.state := by
  rcases force_state m i.now with he | ⟨hw, ha⟩
  · rwa [← he]
  · rw [hw]
    intro hback
    rcases tick_after_allowed (m := m) (i := i) with hmem | ⟨-, hawake⟩
    · rw [hback] at hmem
      rcases waking_mem_evaluate hmem with hs | hs <;> simp [ha] at hs
    · exact hne (hawake.trans ha.symm)

/-- A tick that ends in the state `advance` left changes the model no further. -/
theorem tick_after_same (he : (tick m i).after.state = (m.force i.now).state) :
    (tick m i).after = m.force i.now := by
  rw [tick_after_state] at he
  rw [tick_after, he]
  exact if_pos rfl

theorem tick_after_changed (hne : (tick m i).after.state ≠ (m.force i.now).state) :
    (tick m i).after = { m.force i.now with
      state := (tick m i).after.state
      stateSince := i.now
      sleepStartedAt := if (tick m i).after.state = .sleeping then i.now else 0 } := by
  rw [tick_after_state] at hne ⊢
  exact if_neg hne

theorem changed_tick : (tick m i).changed = true ↔
    m.state ≠ (m.force i.now).state ∨ (m.force i.now).state ≠ (tick m i).after.state := by
  simp [Tick.changed, tick_situation_state]

/-- A state other than awake was not forced. -/
theorem Forced.state_eq {now : ℚ} {m' : BodyModel} (hf : Forced ts m now m')
    (h : m'.state ≠ .awake) : m'.state = m.state := by
  rcases hf.state with ⟨hs, -⟩ | ⟨-, ha, -⟩
  · exact hs
  · exact absurd ha h

/-- The first tick is taken awake. -/
theorem Tracks.ne_nil (h : Tracks config ts m) (hm : m.state ≠ .awake) : ts ≠ [] :=
  fun hts => hm (h.fresh hts).1

/-- Nothing changed; only the very first tick starts the clock. -/
theorem tracks_unchanged (h : Tracks config ts m) (hf : Forced ts m i.now (m.force i.now))
    (hne : (tick m i).after.state = (m.force i.now).state) (hs : (m.force i.now).state = m.state)
    (hfirst : ts = [] → (m.force i.now).stateSince = i.now)
    (hlater : ts ≠ [] → (m.force i.now).stateSince = m.stateSince)
    (hother : ∀ s, s ≠ (tick m i).after.state → enteredAt s (ts ++ [tick m i]) = none) :
    Tracks config (ts ++ [tick m i]) (tick m i).after := by
  have hsame := tick_after_same hne
  have hentered : enteredAt (m.force i.now).state (ts ++ [tick m i]) = _ := enteredAt_append hne
  have hchanged : ¬ (tick m i).changed = true := by
    rw [changed_tick, hne, hs]
    simp
  refine ⟨?_, by simp, fun _ => ⟨?_, ?_⟩, ?_, ?_, ?_, hother⟩
  · rw [hsame, hf.config_eq, h.config_eq]
  · rw [hsame]
    exact hf.since_pos
  · rw [lastChange_append, hsame]
    by_cases hts : ts = []
    · rw [if_pos (.inr hts), hfirst hts, tick_input]
    · rw [if_neg (by simp [hchanged, hts]), hlater hts, (h.started hts).2]
  · rw [hsame, hf.sleep_eq, hs]
    exact h.sleep_clock
  · rw [hsame, hf.sleep_eq, hs]
    intro hsl
    rw [hlater (h.ne_nil (by simp [hsl]))]
    exact h.sleep_since hsl
  · rw [hne, hsame, hentered, hs]
    intro haw
    rw [h.entered haw, hlater (h.ne_nil haw)]
    rfl

/-- Waking just ran its course. -/
theorem tracks_woken (h : Tracks config ts m) (hf : Forced ts m i.now (m.force i.now))
    (hne : (tick m i).after.state = (m.force i.now).state) (hw : m.state = .waking)
    (ha : (m.force i.now).state = .awake) (hsince : (m.force i.now).stateSince = i.now)
    (hother : ∀ s, s ≠ (tick m i).after.state → enteredAt s (ts ++ [tick m i]) = none) :
    Tracks config (ts ++ [tick m i]) (tick m i).after := by
  have hsame := tick_after_same hne
  have hchanged : (tick m i).changed = true := changed_tick.mpr (.inl (by simp [hw, ha]))
  have hzero : ¬ 0 < m.sleepStartedAt := by
    intro hpos
    simp [h.sleep_clock.mp hpos] at hw
  refine ⟨?_, by simp, fun _ => ⟨?_, ?_⟩, ?_, ?_, ?_, hother⟩
  · rw [hsame, hf.config_eq, h.config_eq]
  · rw [hsame]
    exact hf.since_pos
  · rw [lastChange_append, if_pos (.inl hchanged), hsame, hsince, tick_input]
  · rw [hsame, hf.sleep_eq, ha]
    simpa using hzero
  · rw [hsame, ha]
    simp
  · rw [hsame, ha]
    simp

/-- The resolved transition entered another state. -/
theorem tracks_entered (h : Tracks config ts m) (hf : Forced ts m i.now (m.force i.now))
    (hnow : 0 < i.now) (hne : (tick m i).after.state ≠ (m.force i.now).state)
    (hother : ∀ s, s ≠ (tick m i).after.state → enteredAt s (ts ++ [tick m i]) = none) :
    Tracks config (ts ++ [tick m i]) (tick m i).after := by
  have hset := tick_after_changed hne
  have hchanged : (tick m i).changed = true := changed_tick.mpr (.inr (Ne.symm hne))
  have hfresh := h.not_entered _ (tick_after_ne hne)
  have hsince : (tick m i).after.stateSince = i.now := by rw [hset]
  have hclock : (tick m i).after.sleepStartedAt =
      if (tick m i).after.state = .sleeping then i.now else 0 := by rw [hset]
  refine ⟨?_, by simp, fun _ => ⟨?_, ?_⟩, ?_, ?_, ?_, hother⟩
  · rw [hset, ← h.config_eq, ← hf.config_eq]
  · rw [hsince]
    exact hnow
  · rw [lastChange_append, if_pos (.inl hchanged), hsince, tick_input]
  · rw [hclock]
    by_cases hsl : (tick m i).after.state = .sleeping
    · rw [if_pos hsl]
      exact iff_of_true hnow hsl
    · rw [if_neg hsl]
      exact iff_of_false (lt_irrefl 0) hsl
  · intro hsl
    rw [hclock, if_pos hsl, hsince]
  · intro _
    rw [enteredAt_append rfl, hfresh, hsince]
    rfl

/-- One tick keeps the model in agreement with the history. -/
theorem tracks_step (h : Tracks config ts m) (hnow : 0 < i.now) :
    Tracks config (ts ++ [tick m i]) (tick m i).after := by
  have hf := forced_force h hnow
  have hother : ∀ s, s ≠ (tick m i).after.state → enteredAt s (ts ++ [tick m i]) = none :=
    fun s hs => enteredAt_append_of_ne hs.symm
  by_cases hne : (tick m i).after.state = (m.force i.now).state
  · rcases hf.state with ⟨hs, hfirst, hlater⟩ | ⟨hw, ha, hsince⟩
    · exact tracks_unchanged h hf hne hs hfirst hlater hother
    · exact tracks_woken h hf hne hw ha hsince hother
  · exact tracks_entered h hf hnow hne hother

/-- A state other than awake is one that the forced state allows. -/
theorem tick_after_mem (hawake : (tick m i).after.state ≠ .awake) :
    (tick m i).after.state ∈ (evaluate (m.force i.now).state (i.flags (m.force i.now))).1 := by
  rcases tick_after_allowed (m := m) (i := i) with hmem | ⟨-, ha⟩
  · exact hmem
  · exact absurd ha hawake

/-- Asleep after a tick that was not begun asleep: drowsy long enough, with nothing to wake for. -/
theorem tick_falls_asleep (h : Tracks config ts m) (hnow : 0 < i.now) (hawake : m.state ≠ .sleeping)
    (hasleep : (tick m i).after.state = .sleeping) :
    m.state = .drowsy ∧ (tick m i).situation.state = .drowsy ∧
      (∃ t₀, enteredAt .drowsy ts = some t₀ ∧ m.config.drowsyAfterSeconds ≤ i.now - t₀) ∧
      (tick m i).situation.sleepPressure = true ∧ (tick m i).situation.wakeTrigger = false ∧
      reported i.report (·.engaged) = false := by
  have hf := forced_force h hnow
  have hmem := tick_after_mem (m := m) (i := i) (by simp [hasleep])
  rw [hasleep] at hmem
  rcases sleeping_mem_evaluate hmem with hs | ⟨hd, hready, hpressure, hwake, hengaged⟩
  · exact absurd ((hf.state_eq (by simp [hs])).symm.trans hs) hawake
  · have hm : m.state = .drowsy := (hf.state_eq (by simp [hd])).symm.trans hd
    have hsince : (m.force i.now).stateSince = m.stateSince := by
      rcases hf.state with ⟨-, -, hlater⟩ | ⟨hw, -⟩
      · exact hlater (h.ne_nil (by simp [hm]))
      · simp [hm] at hw
    refine ⟨hm, hd, ⟨m.stateSince, ?_, ?_⟩, hpressure, hwake, hengaged⟩
    · rw [← hm]
      exact h.entered (by simp [hm])
    · -- The maximum with zero is the elapsed time, since the threshold is positive.
      have hmax : m.config.drowsyAfterSeconds ≤ max 0 (i.now - m.stateSince) := by
        have hlong := of_decide_eq_true hready
        rwa [hf.config_eq, BodyModel.secondsInState, hsince] at hlong
      rcases le_max_iff.mp hmax with hle | hle
      · exact absurd m.config.drowsyAfter_pos (not_lt.mpr hle)
      · exact hle

/-- Waking after a tick: it was waking before, or asleep. -/
theorem tick_wakes_up (h : Tracks config ts m) (hnow : 0 < i.now)
    (hwaking : (tick m i).after.state = .waking) : m.state = .sleeping ∨ m.state = .waking := by
  have hf := forced_force h hnow
  have hmem := tick_after_mem (m := m) (i := i) (by simp [hwaking])
  rw [hwaking] at hmem
  rcases waking_mem_evaluate hmem with hs | hs
  · exact .inl ((hf.state_eq (by simp [hs])).symm.trans hs)
  · exact .inr ((hf.state_eq (by simp [hs])).symm.trans hs)

/-- A model that agrees with its history ticks coherently. -/
theorem coherent_tick (h : Tracks config ts m) (hnow : 0 < i.now) : Coherent ts (tick m i) := by
  have hf := forced_force h hnow
  have hnext := tracks_step h hnow
  refine ⟨?_, ?_, ?_, ?_, ?_, ?_, evaluate_default_mem _ _, tick_after_allowed⟩
  · have hforced : 0 < (m.force i.now).sleepStartedAt ↔ (m.force i.now).state = .sleeping := by
      rw [hf.sleep_eq, h.sleep_clock]
      rcases hf.state with ⟨hs, -, -⟩ | ⟨hw, ha, -⟩
      · rw [hs]
      · simp [hw, ha]
    intro m' hm'
    simp only [List.mem_cons, List.not_mem_nil, or_false] at hm'
    rcases hm' with rfl | rfl | rfl
    · exact h.sleep_clock
    · exact hforced
    · exact hnext.sleep_clock
  · intro hs
    rw [hnext.sleep_since hs, ← hs]
    exact hnext.entered (by simp [hs])
  · exact (hnext.started (by simp)).2
  · intro hawake hasleep
    exact tick_falls_asleep h hnow hawake hasleep
  · intro hbefore hwaking
    rcases tick_wakes_up h hnow hwaking with hm | hm
    · exact hm
    · exact absurd hm hbefore
  · intro hwaking
    have hforce : (m.force i.now).state = .waking := hwaking
    have hm : m.state = .waking := (hf.state_eq (by simp [hforce])).symm.trans hforce
    have hlt := hf.waking hwaking
    refine ⟨m.stateSince, ?_, by rw [tick_before, tick_input]; linarith⟩
    rw [← hm]
    exact h.entered (by simp [hm])

theorem tracks_run {is : List TickInput} (hpos : ∀ i ∈ is, 0 < i.now) :
    Tracks config (ticks (.fresh config) is) (finalState step (.fresh config) is) := by
  induction is using List.reverseRecOn with
  | nil => exact tracks_fresh config
  | append_singleton is i ih =>
    have hrun := ih fun j hj => hpos j (by simp [hj])
    simp only [ticks] at hrun ⊢
    rw [answers_append, finalState_append]
    exact tracks_step hrun (hpos i (by simp))

/-- Every tick of every run from a fresh model is coherent with the ticks before it. -/
theorem run_coherent (config : BodyConfig) (is : List TickInput) (hpos : ∀ i ∈ is, 0 < i.now)
    (before : List Tick) (t : Tick) (later : List Tick)
    (hrun : ticks (.fresh config) is = before ++ t :: later) : Coherent before t := by
  obtain ⟨js, i, ks, rfl, rfl, rfl⟩ := answers_eq_append hrun
  have htracks : Tracks config _ _ := tracks_run fun j hj => hpos j (List.mem_append_left _ hj)
  exact coherent_tick htracks (hpos i (by simp))

/-- A quiet tick of a tired body, left to the defaults. -/
def tiredTick (now : ℚ) : TickInput where
  now := now
  affect := { sleepiness := 80 }
  report := none
  eventSource := str "idle"
  localHour := 14
  behavior := ⟨.calm, .idle, none, false, 5000⟩
  proposed := none

/-- The run in which a tired body settles, gets drowsy and falls asleep. -/
theorem run_coherent_tired :
    (tick (finalState step (.fresh .default) [tiredTick 10, tiredTick 80]) (tiredTick 270)).after.state =
        .sleeping ∧
      Coherent (ticks (.fresh .default) [tiredTick 10, tiredTick 80])
        (tick (finalState step (.fresh .default) [tiredTick 10, tiredTick 80]) (tiredTick 270)) := by
  refine ⟨by decide +kernel, ?_⟩
  refine run_coherent .default [tiredTick 10, tiredTick 80, tiredTick 270] ?_ _ _ [] rfl
  decide +kernel

end Hologotchi.Body
