import Hologotchi.Affect
import Mathlib.Data.Rat.Lemmas

/-! How the drives move: decay over elapsed time, owner and touch events, and the row they are
kept in (`host/affect.py`). -/
namespace Hologotchi.Affect

open Python

def socialDecay : ℚ := 7 / 10
def playDecay : ℚ := 9 / 10
def restDecay : ℚ := 5 / 10
def stimulationDecay : ℚ := 11 / 10
def sleepinessGain : ℚ := 4 / 10
def energyDecay : ℚ := 2 / 10

def ignoringSocialMult : ℚ := 25 / 10
def awayStimulationMult : ℚ := 3 / 10

def socialComfort : ℚ := 55
def lonelinessRate : ℚ := 6 / 10
def ignoringLonelinessMult : ℚ := 22 / 10
def lonelinessAwayEase : ℚ := 2 / 10
def focusLonelinessRate : ℚ := 8 / 10
def focusFrustrationRate : ℚ := 5 / 10
def frustrationDecay : ℚ := 6 / 10
def affectionBaseline : ℚ := 60
def affectionCool : ℚ := 5 / 100
def bondNeglectDecay : ℚ := 2 / 100
def neglectLoneliness : ℚ := 60

def maxCatchupSeconds : ℚ := 900

/-- `_toward`. Unlike `rise` and `drop` it does not clamp to the range. -/
def toward (value target amount : ℚ) : ℚ :=
  if value > target then max target (value - amount)
  else if value < target then min target (value + amount)
  else value

/-- `_advance_loneliness`, after `social` has been updated. -/
def advanceLoneliness (a : Affect) (minutes : ℚ) (ignoring away : Bool) (focusPressure : ℚ) :
    Affect :=
  if away then { a with loneliness := drop a.loneliness (lonelinessAwayEase * minutes) }
  else if a.social ≥ socialComfort then
    { a with loneliness := drop a.loneliness (lonelinessRate * minutes) }
  else
    let deficit := (socialComfort - a.social) / socialComfort
    let gain := lonelinessRate * minutes * deficit
    let gain :=
      if ignoring then gain * ignoringLonelinessMult + focusPressure * focusLonelinessRate * minutes
      else gain
    { a with loneliness := rise a.loneliness gain }

/-- The first six updates of `advance`: the drives and the body. -/
def decayDrives (a : Affect) (minutes : ℚ) (ignoring away : Bool) : Affect :=
  let socialMult := if away then 0 else if ignoring then ignoringSocialMult else 1
  let stimMult := if away then awayStimulationMult else 1
  { a with
    social := drop a.social (socialDecay * minutes * socialMult)
    play := drop a.play (playDecay * minutes)
    rest := drop a.rest (restDecay * minutes)
    stimulation := drop a.stimulation (stimulationDecay * minutes * stimMult)
    sleepiness := rise a.sleepiness (sleepinessGain * minutes)
    energy := drop a.energy (energyDecay * minutes) }

/-- What `advance` does to frustration. -/
def settleFrustration (a : Affect) (minutes : ℚ) (ignoring : Bool) (focusPressure : ℚ) : Affect :=
  let a := { a with frustration := drop a.frustration (frustrationDecay * minutes) }
  if ignoring ∧ focusPressure > 0 then
    { a with frustration := rise a.frustration (focusPressure * focusFrustrationRate * minutes) }
  else a

/-- The last two updates of `advance`. -/
def coolRelationship (a : Affect) (minutes : ℚ) : Affect :=
  let a := { a with affection := toward a.affection affectionBaseline (affectionCool * minutes) }
  if a.loneliness > neglectLoneliness then
    { a with bond := drop a.bond (bondNeglectDecay * minutes) }
  else a

/-- `advance` once the elapsed minutes are known. -/
def decay (a : Affect) (minutes : ℚ) (ignoring away : Bool) (focusPressure : ℚ) : Affect :=
  (((a.decayDrives minutes ignoring away).advanceLoneliness minutes ignoring away
    focusPressure).settleFrustration minutes ignoring focusPressure).coolRelationship minutes

/-- `Affect.advance`. The first call only starts the clock, and a clock that ran backwards only
resets it. -/
def advance (a : Affect) (now : ℚ) (ignoring away : Bool) (focusPressure : ℚ) : Affect :=
  if a.lastUpdate ≤ 0 then { a with lastUpdate := now }
  else
    let elapsed := now - a.lastUpdate
    let a := { a with lastUpdate := now }
    if elapsed ≤ 0 then a
    else a.decay (min elapsed maxCatchupSeconds / 60) ignoring away (max 0 (min 1 focusPressure))

/-- A call only marks its time, or lets some minutes pass. Which of the two, and how many, depends
on the clock alone. -/
theorem advance_cases (clock now : ℚ) :
    (∀ a : Affect, a.lastUpdate = clock → ∀ ignoring away focusPressure,
        a.advance now ignoring away focusPressure = { a with lastUpdate := now }) ∨
      ∃ minutes, 0 ≤ minutes ∧ ∀ a : Affect, a.lastUpdate = clock →
        ∀ ignoring away focusPressure, a.advance now ignoring away focusPressure =
          { a with lastUpdate := now }.decay minutes ignoring away
            (max 0 (min 1 focusPressure)) := by
  by_cases hstarted : clock ≤ 0
  · left
    rintro a rfl ignoring away focusPressure
    exact if_pos hstarted
  · by_cases helapsed : now - clock ≤ 0
    · left
      rintro a rfl ignoring away focusPressure
      simp only [advance, if_neg hstarted, if_pos helapsed]
    · right
      have hmin : 0 ≤ min (now - clock) maxCatchupSeconds :=
        le_min (not_le.mp helapsed).le (by decide)
      refine ⟨min (now - clock) maxCatchupSeconds / 60, div_nonneg hmin (by decide), ?_⟩
      rintro a rfl ignoring away focusPressure
      simp only [advance, if_neg hstarted, if_neg helapsed]

/-! Each of the later updates moves its own stats only. -/

theorem advanceLoneliness_frame (a : Affect) (minutes : ℚ) (ignoring away : Bool)
    (focusPressure : ℚ) :
    a.advanceLoneliness minutes ignoring away focusPressure =
      { a with
        loneliness := (a.advanceLoneliness minutes ignoring away focusPressure).loneliness } := by
  unfold advanceLoneliness
  split
  · rfl
  · split <;> rfl

theorem settleFrustration_frame (a : Affect) (minutes : ℚ) (ignoring : Bool) (focusPressure : ℚ) :
    a.settleFrustration minutes ignoring focusPressure =
      { a with frustration := (a.settleFrustration minutes ignoring focusPressure).frustration } := by
  simp only [settleFrustration]
  split <;> rfl

theorem coolRelationship_frame (a : Affect) (minutes : ℚ) :
    a.coolRelationship minutes =
      { a with
        affection := toward a.affection affectionBaseline (affectionCool * minutes)
        bond := (a.coolRelationship minutes).bond } := by
  simp only [coolRelationship]
  split <;> rfl

/-! Time alone moves no trust. -/

@[simp] theorem trust_advanceLoneliness (a : Affect) (minutes : ℚ) (ignoring away : Bool)
    (focusPressure : ℚ) :
    (a.advanceLoneliness minutes ignoring away focusPressure).trust = a.trust := by
  rw [advanceLoneliness_frame]

@[simp] theorem trust_settleFrustration (a : Affect) (minutes : ℚ) (ignoring : Bool)
    (focusPressure : ℚ) :
    (a.settleFrustration minutes ignoring focusPressure).trust = a.trust := by
  rw [settleFrustration_frame]

@[simp] theorem trust_coolRelationship (a : Affect) (minutes : ℚ) :
    (a.coolRelationship minutes).trust = a.trust := by
  rw [coolRelationship_frame]

theorem trust_decay (a : Affect) (minutes : ℚ) (ignoring away : Bool) (focusPressure : ℚ) :
    (a.decay minutes ignoring away focusPressure).trust = a.trust := by
  simp [decay, decayDrives]

theorem trust_advance (a : Affect) (now : ℚ) (ignoring away : Bool) (focusPressure : ℚ) :
    (a.advance now ignoring away focusPressure).trust = a.trust := by
  rcases advance_cases a.lastUpdate now with hmarks | ⟨minutes, -, hdecays⟩
  · rw [hmarks a rfl]
  · rw [hdecays a rfl, trust_decay]

/-! Nor the decay marker, which a call sets to its own time. -/

@[simp] theorem lastUpdate_decay (a : Affect) (minutes : ℚ) (ignoring away : Bool)
    (focusPressure : ℚ) :
    (a.decay minutes ignoring away focusPressure).lastUpdate = a.lastUpdate := by
  rw [decay, coolRelationship_frame, settleFrustration_frame, advanceLoneliness_frame]
  rfl

@[simp] theorem lastUpdate_advance (a : Affect) (now : ℚ) (ignoring away : Bool)
    (focusPressure : ℚ) : (a.advance now ignoring away focusPressure).lastUpdate = now := by
  rcases advance_cases a.lastUpdate now with hmarks | ⟨minutes, -, hdecays⟩
  · rw [hmarks a rfl]
  · rw [hdecays a rfl, lastUpdate_decay]

def registerAttention (a : Affect) : Affect :=
  { a with
    social := rise a.social 35
    stimulation := rise a.stimulation 12
    loneliness := drop a.loneliness 30
    affection := rise a.affection 4
    trust := rise a.trust 2
    bond := rise a.bond 1 }

def registerPraise (a : Affect) : Affect :=
  let a := a.registerAttention
  { a with
    affection := rise a.affection 8
    trust := rise a.trust 4
    frustration := drop a.frustration 20
    bond := rise a.bond 2 }

def registerHarsh (a : Affect) : Affect :=
  { a with
    affection := drop a.affection 6
    trust := drop a.trust 4
    frustration := rise a.frustration 18
    social := rise a.social 10
    loneliness := drop a.loneliness 8 }

def registerApology (a : Affect) : Affect :=
  { a with
    frustration := drop a.frustration 35
    loneliness := drop a.loneliness 15
    trust := rise a.trust 6
    affection := rise a.affection 4
    social := rise a.social 10 }

def registerGoodOutcome (a : Affect) : Affect :=
  { a with
    stimulation := rise a.stimulation 12
    frustration := drop a.frustration 14
    affection := rise a.affection 3
    trust := rise a.trust 3
    bond := rise a.bond 1 }

def registerBadOutcome (a : Affect) : Affect :=
  { a with
    frustration := rise a.frustration 16
    energy := drop a.energy 4 }

def registerAlert (a : Affect) : Affect :=
  { a with
    stimulation := rise a.stimulation 10
    energy := rise a.energy 8 }

/-- `register_return_after_away`, which drops its argument. -/
def registerReturnAfterAway (a : Affect) (_awaySeconds : ℚ) : Affect :=
  { a with
    social := rise a.social 20
    stimulation := rise a.stimulation 18
    loneliness := drop a.loneliness 18
    energy := rise a.energy 6 }

def registerBoop (a : Affect) : Affect :=
  { a with
    social := rise a.social 18
    stimulation := rise a.stimulation 14
    energy := rise a.energy 6
    loneliness := drop a.loneliness 12
    affection := rise a.affection 3
    trust := rise a.trust 1 }

def registerPet (a : Affect) : Affect :=
  { a with
    social := rise a.social 25
    affection := rise a.affection 12
    trust := rise a.trust 5
    loneliness := drop a.loneliness 25
    frustration := drop a.frustration 25
    stimulation := rise a.stimulation 4
    rest := rise a.rest 6
    bond := rise a.bond 2 }

def registerPlayInvite (a : Affect) : Affect :=
  { a with
    play := rise a.play 26
    stimulation := rise a.stimulation 16
    social := rise a.social 15
    energy := drop a.energy 6
    loneliness := drop a.loneliness 15
    affection := rise a.affection 3 }

/-- `register_behavior` of any string: one that names no animation matches no case. -/
def registerBehaviorName (a : Affect) (animation : Str) : Affect :=
  match Animation.ofName animation with
  | some animation => a.registerBehavior animation
  | none => a

/-- `to_row`, with the names of the columns in the order of the fields. -/
def toRow (a : Affect) : List (String × ℚ) :=
  [("social", a.social), ("play", a.play), ("rest", a.rest), ("stimulation", a.stimulation),
    ("energy", a.energy), ("sleepiness", a.sleepiness), ("affection", a.affection),
    ("trust", a.trust), ("loneliness", a.loneliness), ("frustration", a.frustration),
    ("bond", a.bond), ("last_update", a.lastUpdate)]

/-- `from_row`: an unknown column is skipped, a missing one keeps the default. -/
def fromRow (row : List (String × ℚ)) : Affect :=
  let fresh : Affect := {}
  let column (name : String) (unset : ℚ) : ℚ := (row.lookup name).getD unset
  { social := column "social" fresh.social
    play := column "play" fresh.play
    rest := column "rest" fresh.rest
    stimulation := column "stimulation" fresh.stimulation
    energy := column "energy" fresh.energy
    sleepiness := column "sleepiness" fresh.sleepiness
    affection := column "affection" fresh.affection
    trust := column "trust" fresh.trust
    loneliness := column "loneliness" fresh.loneliness
    frustration := column "frustration" fresh.frustration
    bond := column "bond" fresh.bond
    lastUpdate := column "last_update" fresh.lastUpdate }

/-- Whatever else the row holds after its own columns, the affect reads back as it was. -/
theorem fromRow_toRow (a : Affect) (others : List (String × ℚ)) :
    fromRow (a.toRow ++ others) = a := by
  simp [fromRow, toRow, List.lookup_cons]

/-- Everything that can happen to an `Affect`. -/
inductive Event
  | advance (now : ℚ) (ignoring away : Bool) (focusPressure : ℚ)
  | attention
  | praise
  | harsh
  | apology
  | goodOutcome
  | badOutcome
  | alert
  | returnAfterAway (awaySeconds : ℚ)
  | boop
  | pet
  | playInvite
  | behavior (animation : Str)
  | saveAndLoad

def apply (a : Affect) : Event → Affect
  | .advance now ignoring away focusPressure => a.advance now ignoring away focusPressure
  | .attention => a.registerAttention
  | .praise => a.registerPraise
  | .harsh => a.registerHarsh
  | .apology => a.registerApology
  | .goodOutcome => a.registerGoodOutcome
  | .badOutcome => a.registerBadOutcome
  | .alert => a.registerAlert
  | .returnAfterAway awaySeconds => a.registerReturnAfterAway awaySeconds
  | .boop => a.registerBoop
  | .pet => a.registerPet
  | .playInvite => a.registerPlayInvite
  | .behavior animation => a.registerBehaviorName animation
  | .saveAndLoad => fromRow a.toRow

def run (a : Affect) (events : List Event) : Affect := events.foldl apply a

end Hologotchi.Affect
