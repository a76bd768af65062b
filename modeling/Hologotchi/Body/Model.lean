import Hologotchi.Affect
import Hologotchi.Presence.Report
import Mathlib.Tactic.NormNum

/-! Body-state continuity (`host/body.py`). Times are rationals. -/
namespace Hologotchi.Body

open Python Protocol Presence

inductive BodyState
  | awake
  | drowsy
  | sleeping
  | waking
  deriving DecidableEq, Repr

namespace BodyState

def name : BodyState → String
  | .awake => "awake"
  | .drowsy => "drowsy"
  | .sleeping => "sleeping"
  | .waking => "waking"

def all : List BodyState := [.awake, .drowsy, .sleeping, .waking]

/-- `_coerce_state` of a string. -/
def coerce (value : Str) : Option BodyState := all.find? fun s => str s.name == value

end BodyState

def sleepAnimations : List Animation := [.nap, .sleepy, .blink]
/-- Gentle mid-sleep beats, kept as they are while already asleep. -/
def sleepBeat : List Animation := [.sleepy, .blink]
def drowsyAnimations : List Animation := [.sleepy, .nap, .blink, .lookAround, .confused, .idle]
def wakingAnimations : List Animation := [.sleepy, .blink, .lookAround, .confused, .idle]

/-- `_ANIMATIONS_FOR_STATE`; awake has no entry. -/
def animationsForState : BodyState → List Animation
  | .sleeping => sleepAnimations
  | .drowsy => drowsyAnimations
  | .waking => wakingAnimations
  | .awake => []

/-- `_DEFAULT_ANIMATION`; the awake entry is never read. -/
def defaultAnimation : BodyState → Animation
  | .sleeping => .nap
  | .drowsy | .waking => .sleepy
  | .awake => .idle

def canonicalAnimations : List Animation :=
  [.idle, .blink, .lookAround, .confused, .walk, .happy, .play, .excited, .sleepy, .nap,
    .worried, .alert]

def wakeTriggerSources : List Str := [str "important_alert", str "direct_message", str "touch"]

def wellRestedEnergy : ℚ := 85
def wellRestedSleepiness : ℚ := 20

/-- The durations are checked positive on construction. -/
structure BodyConfig where
  settleSeconds : ℚ := 60
  drowsyAfterSeconds : ℚ := 180
  minNapSeconds : ℚ := 360
  wakingSeconds : ℚ := 20
  lateNightStartHour : ℤ := 22
  lateNightEndHour : ℤ := 6
  settle_pos : 0 < settleSeconds := by norm_num
  drowsyAfter_pos : 0 < drowsyAfterSeconds := by norm_num
  minNap_pos : 0 < minNapSeconds := by norm_num
  waking_pos : 0 < wakingSeconds := by norm_num

def BodyConfig.default : BodyConfig := {}

structure BodySituation where
  state : BodyState
  secondsInState : ℚ
  asleepSeconds : ℚ
  minNapElapsed : Bool
  sleepPressure : Bool
  wakeTrigger : Bool
  lateNight : Bool
  allowedStates : List BodyState
  allowedAnimations : List Animation
  defaultState : BodyState

structure BodyModel where
  state : BodyState := .awake
  stateSince : ℚ := 0
  sleepStartedAt : ℚ := 0
  lastTouchAt : ℚ := 0
  config : BodyConfig := .default

def stateOrder : List BodyState := [.sleeping, .drowsy, .waking, .awake]

def order (states : List BodyState) : List BodyState := stateOrder.filter (· ∈ states)

/-- What `_evaluate` is told about the tick. -/
structure Flags where
  sleepPressure : Bool
  wakeTrigger : Bool
  reunionPerk : Bool
  engaged : Bool
  wellRested : Bool
  minNapElapsed : Bool
  settleReady : Bool
  drowsyReady : Bool

/-- The allowed next states and the default among them. -/
def evaluate (state : BodyState) (f : Flags) : List BodyState × BodyState :=
  match state with
  | .sleeping =>
    if f.wakeTrigger then
      (order ([.sleeping, .drowsy, .waking] ++ if f.reunionPerk then [.awake] else []), .waking)
    else if !f.sleepPressure && f.wellRested then (order [.drowsy, .waking, .awake], .waking)
    else if f.minNapElapsed && !f.sleepPressure then
      (order [.sleeping, .drowsy, .waking, .awake], .waking)
    else (order [.sleeping, .drowsy], .sleeping)
  | .drowsy =>
    if f.wakeTrigger || f.engaged || !f.sleepPressure then (order [.drowsy, .awake], .awake)
    else if f.drowsyReady then (order [.drowsy, .awake, .sleeping], .sleeping)
    else (order [.drowsy, .awake], .drowsy)
  | .waking =>
    (order [.waking, .awake, .drowsy],
      if f.sleepPressure && !f.wakeTrigger then .drowsy else .awake)
  | .awake =>
    if f.sleepPressure && !f.engaged && !f.wakeTrigger then
      (order [.awake, .drowsy], if f.settleReady then .drowsy else .awake)
    else (order [.awake], .awake)

def awakeAnimations (affect : Affect) (report : Option PresenceReport) : List Animation :=
  affect.suggestedAnimations ++
    (match report with
      | none => []
      | some r =>
        (if r.returnedFromAway || r.engaged then [.happy, .excited, .play, .lookAround] else []) ++
          if r.ignoring then [.lookAround, .walk, .play, .worried, .idle] else []) ++ [.idle]

def allowedAnimations (allowed : List BodyState) (affect : Affect)
    (report : Option PresenceReport) (allowAlert : Bool) : List Animation :=
  let options := allowed.flatMap fun s =>
    match s with
    | .awake => awakeAnimations affect report
    | s => animationsForState s
  let options := if allowAlert then .alert :: options else options.filter (· ≠ .alert)
  let ordered := canonicalAnimations.filter (· ∈ options)
  if ordered = [] then [.idle] else ordered

def BodyConfig.isLateNight (c : BodyConfig) (localHour : ℤ) : Bool :=
  if c.lateNightStartHour ≤ c.lateNightEndHour then
    c.lateNightStartHour ≤ localHour ∧ localHour < c.lateNightEndHour
  else c.lateNightStartHour ≤ localHour ∨ localHour < c.lateNightEndHour

def wellRested (affect : Affect) : Bool :=
  wellRestedEnergy ≤ affect.energy ∧ affect.sleepiness ≤ wellRestedSleepiness

/-- `bool(report and report.p)`. -/
def reported (report : Option PresenceReport) (p : PresenceReport → Bool) : Bool := report.any p

def BodyConfig.sleepPressure (c : BodyConfig) (affect : Affect) (report : Option PresenceReport)
    (localHour : ℤ) : Bool :=
  affect.isSleepy || c.isLateNight localHour ||
    (reported report (·.away) && !wellRested affect)

def wakeTrigger (eventSource : Str) (report : Option PresenceReport) : Bool :=
  eventSource ∈ wakeTriggerSources || reported report (·.returnedFromAway)

namespace BodyModel

/-- The forced transitions at the head of `advance`. -/
def force (m : BodyModel) (now : ℚ) : BodyModel :=
  let m := if m.stateSince ≤ 0 then { m with stateSince := now } else m
  let m := if m.state = .sleeping ∧ m.sleepStartedAt ≤ 0 then { m with sleepStartedAt := now }
    else m
  -- Waking is transient: once it has run its course the body is simply awake.
  if m.state = .waking ∧ m.config.wakingSeconds ≤ now - m.stateSince then
    { m with state := .awake, stateSince := now }
  else m

def secondsInState (m : BodyModel) (now : ℚ) : ℚ := max 0 (now - m.stateSince)

def asleepSeconds (m : BodyModel) (now : ℚ) : ℚ :=
  if m.state = .sleeping then max 0 (now - m.sleepStartedAt) else 0

def minNapElapsed (m : BodyModel) (now : ℚ) : Bool :=
  m.state = .sleeping ∧ m.config.minNapSeconds ≤ m.asleepSeconds now

def flags (m : BodyModel) (now : ℚ) (affect : Affect) (report : Option PresenceReport)
    (eventSource : Str) (localHour : ℤ) : Flags where
  sleepPressure := m.config.sleepPressure affect report localHour
  wakeTrigger := wakeTrigger eventSource report
  reunionPerk := reported report (·.returnedFromAway) && decide (eventSource ∉ wakeTriggerSources)
  engaged := reported report (·.engaged)
  wellRested := wellRested affect
  minNapElapsed := m.minNapElapsed now
  settleReady := m.config.settleSeconds ≤ m.secondsInState now
  drowsyReady := m.config.drowsyAfterSeconds ≤ m.secondsInState now

/-- `advance`: forced transitions, then the options of this tick. -/
def advance (m : BodyModel) (now : ℚ) (affect : Affect) (report : Option PresenceReport)
    (eventSource : Str) (localHour : ℤ) : BodyModel × BodySituation :=
  let m := m.force now
  let f := m.flags now affect report eventSource localHour
  let e := evaluate m.state f
  (m, {
    state := m.state
    secondsInState := m.secondsInState now
    asleepSeconds := m.asleepSeconds now
    minNapElapsed := f.minNapElapsed
    sleepPressure := f.sleepPressure
    wakeTrigger := f.wakeTrigger
    lateNight := m.config.isLateNight localHour
    allowedStates := e.1
    allowedAnimations := allowedAnimations e.1 affect report (eventSource == str "important_alert")
    defaultState := e.2 })

def setState (m : BodyModel) (target : BodyState) (now : ℚ) : BodyModel :=
  if target = m.state then m
  else { m with
    state := target
    stateSince := now
    sleepStartedAt := if target = .sleeping then now else 0 }

end BodyModel

/-- The animation that fits a body that is not awake. -/
def clampAnimation (animation : Animation) (target : BodyState) (enteredSleep : Bool) :
    Animation :=
  -- Only the frame that falls asleep is a real nap.
  if target = .sleeping ∧ enteredSleep then .nap
  else if target = .sleeping then if animation ∈ sleepBeat then animation else .sleepy
  else if animation ∈ animationsForState target then animation
  else defaultAnimation target

def clampBehavior (behavior : BehaviorCommand) (target : BodyState) (enteredSleep : Bool) :
    BehaviorCommand :=
  if target = .awake then behavior
  else
    let animation := clampAnimation behavior.animation target enteredSleep
    if animation = behavior.animation ∧ !behavior.alert then behavior
    else
      { mood := animation.toMood
        animation := animation
        text := if animation = behavior.animation then behavior.text else none
        alert := false
        durationMs := behavior.durationMs }

namespace BodyModel

/-- The state `resolve` picks: the default, an allowed proposal, or awake for an alert. -/
def target (situation : BodySituation) (behavior : BehaviorCommand) (proposed : Option Str) :
    BodyState :=
  if behavior.alert then .awake
  else match proposed.bind BodyState.coerce with
    | some s => if s ∈ situation.allowedStates then s else situation.defaultState
    | none => situation.defaultState

def resolve (m : BodyModel) (situation : BodySituation) (behavior : BehaviorCommand)
    (proposed : Option Str) (now : ℚ) : BodyModel × BehaviorCommand × BodyState :=
  let t := target situation behavior proposed
  let enteredSleep := t = .sleeping ∧ m.state ≠ .sleeping
  (m.setState t now, clampBehavior behavior t enteredSleep, t)

end BodyModel

/-- What is stored of a body. -/
structure BodyRow where
  state : Str
  stateSince : ℚ
  sleepStartedAt : ℚ
  lastTouchAt : ℚ
  deriving DecidableEq

namespace BodyModel

def toRow (m : BodyModel) : BodyRow where
  state := str m.state.name
  stateSince := m.stateSince
  sleepStartedAt := m.sleepStartedAt
  lastTouchAt := m.lastTouchAt

/-- `from_row`: an unknown state reads as awake. -/
def fromRow (row : BodyRow) (config : BodyConfig) : BodyModel where
  state := (BodyState.coerce row.state).getD .awake
  stateSince := row.stateSince
  sleepStartedAt := row.sleepStartedAt
  lastTouchAt := row.lastTouchAt
  config := config

theorem fromRow_toRow (m : BodyModel) : fromRow m.toRow m.config = m := by
  have hstate : BodyState.coerce (str m.state.name) = some m.state := by
    cases m.state <;> decide
  simp [fromRow, toRow, hstate]

end BodyModel

end Hologotchi.Body
