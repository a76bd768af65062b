import Hologotchi.Protocol

/-! The affect drives and the views of them that choose behavior (`host/affect.py`).
Stats and times are rationals. -/
namespace Hologotchi

/-- `overall_state`. -/
inductive InnerState
  | content
  | restless
  | needy
  | sad
  | grumpy
  | withdrawn
  deriving DecidableEq, Repr

structure Affect where
  social : ℚ := 60
  play : ℚ := 55
  rest : ℚ := 65
  stimulation : ℚ := 55
  energy : ℚ := 55
  sleepiness : ℚ := 25
  affection : ℚ := 70
  trust : ℚ := 60
  loneliness : ℚ := 20
  frustration : ℚ := 10
  bond : ℚ := 10
  lastUpdate : ℚ := 0
  deriving DecidableEq, Repr

namespace Affect

def withdrawnEnergy : ℚ := 25
def distressLevel : ℚ := 60
def sadLoneliness : ℚ := 60
def needyLoneliness : ℚ := 40
def needySocial : ℚ := 35
def needyPlay : ℚ := 25
def restlessStimulation : ℚ := 35
def restlessPlay : ℚ := 45
def sleepyLevel : ℚ := 70

def overallState (a : Affect) : InnerState :=
  if a.energy < withdrawnEnergy ∧ (a.loneliness > distressLevel ∨ a.frustration > distressLevel)
  then .withdrawn
  else if a.frustration ≥ distressLevel then .grumpy
  else if a.loneliness ≥ sadLoneliness then .sad
  else if a.loneliness ≥ needyLoneliness ∨ a.social < needySocial ∨ a.play < needyPlay then .needy
  else if a.stimulation < restlessStimulation ∨ a.play < restlessPlay then .restless
  else .content

def isSleepy (a : Affect) : Bool := a.sleepiness ≥ sleepyLevel ∨ a.energy < withdrawnEnergy

/-- `SUGGESTED_ANIMATIONS`. -/
def suggestedFor : InnerState → List Animation
  | .content => [.idle, .blink, .lookAround, .walk, .happy]
  | .restless => [.walk, .lookAround, .play]
  | .needy => [.play, .lookAround, .happy, .walk]
  | .sad => [.worried, .sleepy, .idle]
  | .grumpy => [.worried, .lookAround, .walk]
  | .withdrawn => [.nap, .sleepy, .idle]

def suggestedAnimations (a : Affect) : List Animation :=
  if (a.overallState = .content ∨ a.overallState = .restless ∨ a.overallState = .needy) ∧ a.isSleepy
  then [.sleepy, .nap, .idle]
  else suggestedFor a.overallState

def minStat : ℚ := 0
def maxStat : ℚ := 100

def clamp (value : ℚ) : ℚ := min maxStat (max minStat value)
def rise (value amount : ℚ) : ℚ := clamp (value + amount)
def drop (value amount : ℚ) : ℚ := clamp (value - amount)

/-- `register_behavior`: what showing an animation does to the drives. -/
def registerBehavior (a : Affect) : Animation → Affect
  | .nap => { a with
      rest := rise a.rest 30, sleepiness := drop a.sleepiness 35, energy := rise a.energy 18 }
  | .sleepy => { a with
      rest := rise a.rest 8, sleepiness := drop a.sleepiness 6, energy := rise a.energy 4 }
  | .play => { a with
      play := rise a.play 26, stimulation := rise a.stimulation 14, energy := drop a.energy 6 }
  | .excited => { a with
      play := rise a.play 18, stimulation := rise a.stimulation 18, energy := drop a.energy 10 }
  | .happy => { a with play := rise a.play 10, stimulation := rise a.stimulation 8 }
  | .walk => { a with stimulation := rise a.stimulation 12, energy := drop a.energy 4 }
  | .lookAround => { a with stimulation := rise a.stimulation 8 }
  | .blink | .idle => { a with rest := rise a.rest 2 }
  | .confused | .worried | .alert => a

/-- No drive suggests an alert. -/
theorem alert_notMem_suggestedAnimations (a : Affect) : .alert ∉ a.suggestedAnimations := by
  simp only [suggestedAnimations]
  split
  · decide
  · cases a.overallState <;> decide

end Affect

end Hologotchi
