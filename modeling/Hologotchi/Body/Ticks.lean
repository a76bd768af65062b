import Hologotchi.Body.Model
import Hologotchi.Library.Runs

/-! Runs of body ticks, each `advance` then `resolve` at the same time, and what one tick
can do. -/
namespace Hologotchi.Body

open Python Protocol Presence Library

structure TickInput where
  now : ℚ
  affect : Affect
  report : Option PresenceReport
  eventSource : Str
  localHour : ℤ
  behavior : BehaviorCommand
  proposed : Option Str

/-- One tick as it happened. -/
structure Tick where
  input : TickInput
  before : BodyModel
  advanced : BodyModel
  situation : BodySituation
  after : BodyModel
  command : BehaviorCommand

def tick (m : BodyModel) (i : TickInput) : Tick :=
  let (advanced, situation) := m.advance i.now i.affect i.report i.eventSource i.localHour
  let (after, command, _) := advanced.resolve situation i.behavior i.proposed i.now
  { input := i, before := m, advanced, situation, after, command }

def step (m : BodyModel) (i : TickInput) : BodyModel × Tick := ((tick m i).after, tick m i)

/-- The ticks of a run. -/
def ticks (m : BodyModel) (is : List TickInput) : List Tick := answers step m is

/-- The flags `_evaluate` gets on this tick. -/
def TickInput.flags (i : TickInput) (m : BodyModel) : Flags :=
  m.flags i.now i.affect i.report i.eventSource i.localHour

variable {m : BodyModel} {i : TickInput} {s : BodyState} {f : Flags}

@[simp] theorem tick_input : (tick m i).input = i := rfl
@[simp] theorem tick_before : (tick m i).before = m := rfl
theorem tick_situation_state : (tick m i).situation.state = (m.force i.now).state := rfl

theorem tick_after : (tick m i).after =
    (m.force i.now).setState (BodyModel.target (tick m i).situation i.behavior i.proposed) i.now :=
  rfl

theorem mem_order {states : List BodyState} : s ∈ order states ↔ s ∈ states := by
  cases s <;> simp [order, stateOrder]

theorem evaluate_default_mem (s : BodyState) (f : Flags) : (evaluate s f).2 ∈ (evaluate s f).1 := by
  cases s <;> simp only [evaluate] <;> split_ifs <;> simp [mem_order]

/-- Falling asleep is offered only to a sleeper, or to a body drowsy for long enough that
nothing keeps awake. -/
theorem sleeping_mem_evaluate (h : .sleeping ∈ (evaluate s f).1) :
    s = .sleeping ∨ (s = .drowsy ∧ f.drowsyReady = true ∧ f.sleepPressure = true ∧
      f.wakeTrigger = false ∧ f.engaged = false) := by
  cases s with
  | sleeping => exact .inl rfl
  | drowsy =>
    simp only [evaluate] at h
    split_ifs at h <;> simp_all [mem_order]
  | waking => simp [evaluate, mem_order] at h
  | awake =>
    simp only [evaluate] at h
    split_ifs at h <;> simp [mem_order] at h

theorem waking_mem_evaluate (h : .waking ∈ (evaluate s f).1) : s = .sleeping ∨ s = .waking := by
  cases s with
  | sleeping => exact .inl rfl
  | waking => exact .inr rfl
  | drowsy =>
    simp only [evaluate] at h
    split_ifs at h <;> simp [mem_order] at h
  | awake =>
    simp only [evaluate] at h
    split_ifs at h <;> simp [mem_order] at h

theorem setState_state (t : BodyState) (now : ℚ) : (m.setState t now).state = t := by
  simp only [BodyModel.setState]
  split <;> simp_all

theorem tick_after_state : (tick m i).after.state =
    BodyModel.target (tick m i).situation i.behavior i.proposed := setState_state _ _

/-- The command of a tick is clamped to the state it ends in. -/
theorem tick_command : (tick m i).command = clampBehavior i.behavior (tick m i).after.state
    (decide ((tick m i).after.state = .sleeping ∧ (tick m i).advanced.state ≠ .sleeping)) := by
  rw [tick_after_state]
  rfl

/-- Without an alert, `resolve` picks a state that is not the default only when it is proposed
and allowed. -/
theorem target_eq_iff {situation : BodySituation} {behavior : BehaviorCommand}
    {proposed : Option Str} (ha : behavior.alert = false) (hd : situation.defaultState ≠ s) :
    BodyModel.target situation behavior proposed = s ↔
      proposed.bind BodyState.coerce = some s ∧ s ∈ situation.allowedStates := by
  simp only [BodyModel.target]
  rw [if_neg (by simp [ha])]
  cases proposed.bind BodyState.coerce with
  | none => simp [hd]
  | some state =>
    by_cases hs : state ∈ situation.allowedStates
    · simp only [hs, if_true, Option.some.injEq]
      constructor
      · intro h
        exact ⟨h, h ▸ hs⟩
      · exact And.left
    · simp only [hs, if_false, Option.some.injEq]
      constructor
      · intro h
        exact absurd h hd
      · rintro ⟨rfl, h⟩
        exact absurd h hs

/-- `resolve` stays within the options, or wakes for an alert. -/
theorem tick_after_allowed : (tick m i).after.state ∈ (tick m i).situation.allowedStates ∨
    (i.behavior.alert = true ∧ (tick m i).after.state = .awake) := by
  have hdefault : (tick m i).situation.defaultState ∈ (tick m i).situation.allowedStates :=
    evaluate_default_mem _ _
  rw [tick_after_state]
  simp only [BodyModel.target]
  by_cases ha : i.behavior.alert = true
  · exact .inr ⟨ha, if_pos ha⟩
  · left
    rw [if_neg ha]
    cases i.proposed.bind BodyState.coerce with
    | none => exact hdefault
    | some s =>
      simp only
      split
      · assumption
      · exact hdefault

/-- The only forced transition ends waking. -/
theorem force_state (m : BodyModel) (now : ℚ) :
    (m.force now).state = m.state ∨ (m.state = .waking ∧ (m.force now).state = .awake) := by
  unfold BodyModel.force
  simp only
  split_ifs <;> simp_all

end Hologotchi.Body
