import Hologotchi.Memory.Reflection
import Hologotchi.PetLoop.Model

/-! The rare special moments of the pet loop, and the memories of build and test results
(`host/pet_loop.py`). -/
namespace Hologotchi.PetLoop

open Python Library.Fallible Memory

def milestoneTotals : List ℕ := [3, 10, 25, 50, 100]

/-- The totals that are celebrated. -/
def isMilestone (total : ℕ) : Bool := total ∈ milestoneTotals ∨ total % 100 = 0

def resultSources : List Str := [str "build_result", str "test_result"]

/-- `_is_failure`: how the sentence up to the first period ends. -/
def isFailure (eventText : Str) : Bool :=
  (str "failed").isSuffixOf (lower (strip (eventText.takeWhile (· ≠ 46))))

/-- What `_capture_memory` stores of a build or test result. -/
def resultMoment (event : LoopEvent) : Moment :=
  let label := event.source.takeWhile (· ≠ 95)
  if isFailure event.event then
    { source := event.source
      summary := event.event
      kind := Kind.episodic.text
      tags := some [label, str "fail"]
      valence := -60
      intensity := 65 }
  else
    { source := event.source
      summary := event.event
      kind := Kind.episodic.text
      tags := some [label, str "pass"]
      valence := 50
      intensity := 55 }

/-- What special moments read and write of the `PetState`. -/
structure MomentState where
  greenBuildTotal : ℕ := 0
  greenBuildStreak : ℕ := 0
  failureStreak : ℕ := 0
  lastInteractionDay : Str := []
  lastDaybeatKey : Str := []

inductive SpecialMoment
  | firstInteraction
  | thirdFailure
  | milestone (total : ℕ)
  | fiveGreens
  | lateNight
  | night
  deriving DecidableEq

/-- `_ordinal`. -/
def ordinal (value : ℕ) : Str :=
  let suffix :=
    if value % 100 ∈ [11, 12, 13] then "th"
    else match value % 10 with
      | 1 => "st"
      | 2 => "nd"
      | 3 => "rd"
      | _ => "th"
  Library.FlatJson.decimal value ++ str suffix

/-- The note for the prompt. -/
def SpecialMoment.note (petName : Str) : SpecialMoment → Str
  | .firstInteraction =>
    str "first direct interaction of the day; greet the owner like a small reunion."
  | .thirdFailure => str "third failure in a row; be worried but bounded and recoverable."
  | .milestone total =>
    ordinal total ++ str " green build/test result; celebrate an earned milestone."
  | .fiveGreens => str "five green results in a row; act proud and playful."
  | .lateNight =>
    str "late-night desk beat; " ++ petName ++ str " may get sleepy or gently dramatic."
  | .night => str "night desk beat; " ++ petName ++ str " may wind down toward sleep."

/-- `_green_result_total`. -/
def greenResultTotal (state : MomentState) (memory : Option Store) : Except Error ℕ :=
  match memory with
  | none => .ok state.greenBuildTotal
  | some store => do
    let stored ← store.countBy { tag := some (str "pass") }
    .ok (max state.greenBuildTotal stored)

/-- `_record_special_moment`, with the local day and hour of `now`. -/
def recordSpecialMoment (state : MomentState) (event : LoopEvent) (day : Str) (hour : ℤ)
    (memory : Option Store) : Except Error (MomentState × Option SpecialMoment) :=
  if event.source = str "direct_message" then
    if state.lastInteractionDay = day then .ok (state, none)
    else .ok ({ state with lastInteractionDay := day }, some .firstInteraction)
  else if event.source ∈ resultSources then
    if isFailure event.event then
      .ok ({ state with failureStreak := state.failureStreak + 1, greenBuildStreak := 0 },
        if state.failureStreak + 1 = 3 then some .thirdFailure else none)
    else
      let state := { state with
        failureStreak := 0
        greenBuildTotal := state.greenBuildTotal + 1
        greenBuildStreak := state.greenBuildStreak + 1 }
      do
        let total ← greenResultTotal state memory
        .ok (state,
          if isMilestone total then some (.milestone total)
          else if state.greenBuildStreak = 5 then some .fiveGreens
          else none)
  else if event.source = str "idle" then
    if hour < 6 ∧ state.lastDaybeatKey ≠ day ++ str ":late" then
      .ok ({ state with lastDaybeatKey := day ++ str ":late" }, some .lateNight)
    else if 22 ≤ hour ∧ state.lastDaybeatKey ≠ day ++ str ":night" then
      .ok ({ state with lastDaybeatKey := day ++ str ":night" }, some .night)
    else .ok (state, none)
  else .ok (state, none)

end Hologotchi.PetLoop
