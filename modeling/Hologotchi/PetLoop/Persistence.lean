import Hologotchi.Memory.PetState
import Hologotchi.PetLoop.Alerts
import Hologotchi.PetLoop.Moments
import Hologotchi.Presence.Tracker

/-! What the pet loop carries from tick to tick and stores in `pet_state`
(`host/pet_loop.py`, `host/state.py`). -/
namespace Hologotchi.PetLoop

open Python Library Protocol Presence Body Inputs Memory

def praiseWords : List Str :=
  ["good", "love", "nice", "great", "proud", "yay", "best", "thanks", "thank", "awesome", "clever",
    "cute", "amazing", "yes", "win"].map str
def harshWords : List Str :=
  ["bad", "stop", "no", "quiet", "shut", "stupid", "annoying", "hate", "ugh", "dumb"].map str
def apologyWords : List Str :=
  ["sorry", "apology", "apologies", "apologize", "forgive", "oops"].map str

inductive MessageKind
  | praise
  | harsh
  | apology
  | neutral
  deriving DecidableEq

def classifyMessage (text : Str) : MessageKind :=
  let words := (split text).map fun word => lower (Library.Trim.trim (· ∈ str ".,!?\"'") word)
  if words.any (· ∈ apologyWords) then .apology
  else if words.any (· ∈ harshWords) then .harsh
  else if words.any (· ∈ praiseWords) then .praise
  else .neutral

def playInviteMinEnergy : ℚ := 30

def applyTouchEffects (affect : Affect) (gesture : Option Str) : Affect :=
  if gesture = some (str "hold") then affect.registerPet
  else if gesture = some (str "doubletap") ∧ playInviteMinEnergy ≤ affect.energy then
    affect.registerPlayInvite
  -- A tap, or a play invite with too little energy to accept.
  else affect.registerBoop

def applyOwnerEffects (affect : Affect) (event : LoopEvent) : Affect :=
  if event.source = str "direct_message" then
    match classifyMessage event.event with
    | .praise => affect.registerPraise
    | .harsh => affect.registerHarsh
    | .apology => affect.registerApology
    | .neutral => affect.registerAttention
  else if event.source ∈ resultSources then
    if isFailure event.event then affect.registerBadOutcome else affect.registerGoodOutcome
  else if event.source = str "important_alert" then affect.registerAlert
  else if event.source = str touchSource then applyTouchEffects affect event.gesture
  else affect

def effectSources : List Str :=
  [str "direct_message", str "build_result", str "test_result", str "important_alert",
    str touchSource]

def engagementSources : List Str := [str "direct_message", str touchSource]

def hasPresenceEvidence (signals : PresenceSignals) (config : PresenceConfig) : Bool :=
  if signals.present = some true then true
  else if signals.present = some false ∨ signals.screenLocked = some true then false
  else match signals.idleSeconds with
    | some idle => idle.lt (.finite config.awayIdleSeconds)
    | none => signals.screenLocked = some false ∨ signals.foregroundApp.any (· ≠ [])

/-- What the clock, the inputs, the presence signals and the model give to a tick. -/
structure LoopInput where
  now : ℚ
  signals : PresenceSignals := {}
  pending : Option LoopEvent := none
  localHour : ℤ
  outcome : Option BehaviorProposal
  /-- The clock of the store at `save_affect`. -/
  savedAt : ℚ

/-- The loop beside its database. -/
structure Running where
  loop : Loop := {}
  presence : PresenceTracker := {}
  database : Database := {}

namespace Running

def track (k : Running) (i : LoopInput) : PresenceTracker × PresenceReport :=
  let presence :=
    if i.pending.any (·.source ∈ engagementSources) then k.presence.noteInteraction i.now
    else k.presence
  presence.update i.now i.signals

/-- The affect after the updates at the head of the tick. -/
def feel (k : Running) (i : LoopInput) : Affect :=
  let report := (k.track i).2
  let affect := k.loop.state.affect.advance i.now report.ignoring report.away report.focusPressure
  let affect :=
    if report.returnedFromAway then affect.registerReturnAfterAway report.awayBeforeReturn
    else affect
  match i.pending with
  | some event => if event.source ∈ effectSources then applyOwnerEffects affect event else affect
  | none => affect

/-- The event of the tick; the loop describes the moment itself when nothing or only a presence
signal is pending. -/
def eventOf (i : LoopInput) (situation : Str) : LoopEvent :=
  match i.pending with
  | some event =>
    if event.source = str "presence_signal" then ⟨event.id, event.source, situation, none⟩
    else event
  | none => ⟨str "idle", str "idle", situation, none⟩

def tickInput (k : Running) (i : LoopInput) (situation : Str) : TickInput where
  now := i.now
  event := eventOf i situation
  affect := k.feel i
  report := (k.track i).2
  localHour := i.localHour
  hasPresence := hasPresenceEvidence i.signals k.presence.config
  outcome := i.outcome

/-- A tick up to `save_affect`, with what it captured and recalled. -/
def tick (e : Engine) (config : PetLoopConfig) (k : Running) (i : LoopInput) (situation : Str)
    (calls : List Memory.Call) : Running :=
  let (loop, sent) := PetLoop.tick config k.loop (k.tickInput i situation)
  let affect := (k.feel i).registerBehavior sent.main.animation
  let presence := (k.track i).1
  let database := k.database.mapStore fun s => finalState (perform e) s calls
  { loop := { loop with state := { loop.state with affect } }
    presence
    database := database.saveAffect i.savedAt affect.toRow presence.lastInteraction }

end Running

/-- What can happen to the loop and its database. -/
inductive Event
  /-- A tick, with the words it described the moment by and its calls on the memories. -/
  | tick (input : LoopInput) (situation : Str) (calls : List Memory.Call)
  /-- `save_body` at the end of a tick. -/
  | saveBody (now : ℚ)
  /-- `POST /memory/reset`. -/
  | reset
  /-- `POST /memory/writes`. -/
  | setWritesEnabled (enabled : Bool)

namespace Running

def reset (k : Running) : Running := { k with database := k.database.reset }

def next (e : Engine) (config : PetLoopConfig) (k : Running) : Event → Running
  | .tick input situation calls => k.tick e config input situation calls
  | .saveBody now => { k with database := k.database.saveBody now (some k.loop.body.toRow) }
  | .reset => k.reset
  | .setWritesEnabled enabled =>
    { k with database := k.database.mapStore (·.setWritesEnabled enabled) }

/-- A step, and the row of `pet_state` after it. -/
def step (e : Engine) (config : PetLoopConfig) (k : Running) (event : Event) :
    Running × Option PetRow :=
  (k.next e config event, (k.next e config event).database.petState)

end Running

/-- A call on the memories alone. -/
def onMemories : Memory.Call → Prop
  | .reset | .setWritesEnabled _ => False
  | _ => True

/-- The same clock, inputs, presence signals and model outputs; what the ticks say to the model
and what they capture and recall may differ. -/
inductive Event.Alike : Event → Event → Prop
  | tick {input : LoopInput} {situation other : Str} {calls others : List Memory.Call}
      (memories : ∀ call ∈ calls, onMemories call) (memories' : ∀ call ∈ others, onMemories call) :
      Alike (.tick input situation calls) (.tick input other others)
  | saveBody (now : ℚ) : Alike (.saveBody now) (.saveBody now)
  | reset : Alike .reset .reset
  | setWritesEnabled (enabled : Bool) : Alike (.setWritesEnabled enabled) (.setWritesEnabled enabled)

/-- What of the past a loop carries into the rows it will store. -/
structure Running.Carries (k l : Running) : Prop where
  affect : k.loop.state.affect = l.loop.state.affect
  recentAnimations : k.loop.state.recentAnimations = l.loop.state.recentAnimations
  lastMicromotionAt : k.loop.state.lastMicromotionAt = l.loop.state.lastMicromotionAt
  body : k.loop.body = l.loop.body
  presence : k.presence = l.presence

variable {config : PetLoopConfig} {l m : Loop} {i j : TickInput} {c d : BehaviorCommand}

/-- Two commands may differ in text and duration only. -/
def SamePose (c d : BehaviorCommand) : Prop := c.animation = d.animation ∧ c.alert = d.alert

theorem SamePose.applyNovelty {state other : PetState} {event remark : LoopEvent}
    (haffect : state.affect = other.affect)
    (hrecent : state.recentAnimations = other.recentAnimations)
    (hsource : event.source = remark.source) (c : BehaviorCommand) :
    SamePose (applyNovelty c state event) (applyNovelty c other remark) := by
  refine ⟨?_, (applyNovelty_alert ..).trans (applyNovelty_alert ..).symm⟩
  simp only [PetLoop.applyNovelty, haffect, hrecent, hsource]
  split
  · rfl
  · split <;> rfl

theorem SamePose.clampBehavior (h : SamePose c d) (target : BodyState) (entered : Bool) :
    SamePose (clampBehavior c target entered) (clampBehavior d target entered) := by
  by_cases hawake : target = .awake
  · simpa only [Body.clampBehavior, if_pos hawake] using h
  · obtain ⟨hc, hcalm⟩ := clampBehavior_asleep hawake c entered
    obtain ⟨hd, hcalm'⟩ := clampBehavior_asleep hawake d entered
    exact ⟨by rw [hc, hd, h.1], hcalm.trans hcalm'.symm⟩

theorem SamePose.adaptLoopBehavior (h : SamePose c d) (config : PetLoopConfig) :
    SamePose (adaptLoopBehavior c config) (adaptLoopBehavior d config) := by
  obtain ⟨hc, hcalm⟩ := adaptLoopBehavior_animation c config
  obtain ⟨hd, hcalm'⟩ := adaptLoopBehavior_animation d config
  exact ⟨by rw [hc, hd, h.1], by rw [hcalm, hcalm', h.2]⟩

theorem SamePose.burnInGuardrail (h : SamePose c d) (state other : PetState)
    (hrecent : state.recentAnimations = other.recentAnimations)
    (hmicro : state.lastMicromotionAt = other.lastMicromotionAt) (target : BodyState) (now : ℚ) :
    SamePose (burnInGuardrail c state target now).1 (burnInGuardrail d other target now).1 ∧
      (burnInGuardrail c state target now).2.lastMicromotionAt =
        (burnInGuardrail d other target now).2.lastMicromotionAt ∧
      (burnInGuardrail c state target now).2.recentAnimations =
        (burnInGuardrail d other target now).2.recentAnimations := by
  simp only [PetLoop.burnInGuardrail, h.1, hrecent, hmicro]
  split
  · exact ⟨h, rfl, rfl⟩
  · split
    · exact ⟨h, rfl, rfl⟩
    · split
      · exact ⟨h, hmicro, hrecent⟩
      · exact ⟨⟨rfl, rfl⟩, rfl, rfl⟩

/-- The same inputs of a tick, up to the words of its event. -/
structure TickInput.Alike (i j : TickInput) : Prop where
  now : i.now = j.now
  source : i.event.source = j.event.source
  affect : i.affect = j.affect
  report : i.report = j.report
  localHour : i.localHour = j.localHour
  outcome : i.outcome = j.outcome

theorem TickInput.Alike.unpackProposal (h : i.Alike j) :
    PetLoop.unpackProposal i.event i.outcome = PetLoop.unpackProposal j.event j.outcome := by
  simp only [PetLoop.unpackProposal, fallbackBehavior, h.source, h.outcome]

theorem TickInput.Alike.proposed (h : i.Alike j)
    (hrecent : l.state.recentAnimations = m.state.recentAnimations) :
    SamePose (i.proposed l) (j.proposed m) := by
  simp only [TickInput.proposed, h.unpackProposal]
  apply SamePose.applyNovelty
  · exact h.affect
  · exact hrecent
  · exact h.source

theorem bodyTick_after : (i.bodyTick l).after = (i.bodyTick l).advanced.setState
    (BodyModel.target (i.bodyTick l).situation (i.proposed l)
      (PetLoop.unpackProposal i.event i.outcome).2) i.now := rfl

/-- The body of a tick takes nothing from the recent phrases. -/
theorem TickInput.Alike.bodyTick (h : i.Alike j) (hbody : l.body = m.body)
    (hrecent : l.state.recentAnimations = m.state.recentAnimations) :
    (i.bodyTick l).after = (j.bodyTick m).after ∧
      SamePose (i.bodyTick l).command (j.bodyTick m).command := by
  have hpose := h.proposed hrecent
  have hadvanced : (i.bodyTick l).advanced = (j.bodyTick m).advanced ∧
      (i.bodyTick l).situation = (j.bodyTick m).situation := by
    simp only [TickInput.bodyTick, Body.tick, h.now, h.source, h.affect, h.report, h.localHour,
      hbody, and_self]
  have htarget : ∀ situation proposed, BodyModel.target situation (i.proposed l) proposed =
      BodyModel.target situation (j.proposed m) proposed := by
    intro situation proposed
    simp only [BodyModel.target, hpose.2]
  have hafter : (i.bodyTick l).after = (j.bodyTick m).after := by
    rw [bodyTick_after, bodyTick_after, hadvanced.1, hadvanced.2, h.unpackProposal, htarget, h.now]
  refine ⟨hafter, ?_⟩
  rw [bodyTick_command, bodyTick_command, hafter, hadvanced.1]
  exact hpose.clampBehavior _ _

/-- What a tick shows and keeps of its pose depends on the body, the recent animations and the
last micromotion alone. -/
theorem tick_alike (config : PetLoopConfig) (h : i.Alike j) (hbody : l.body = m.body)
    (hrecent : l.state.recentAnimations = m.state.recentAnimations)
    (hmicro : l.state.lastMicromotionAt = m.state.lastMicromotionAt) :
    (tick config l i).1.body = (tick config m j).1.body ∧
      (tick config l i).2.main.animation = (tick config m j).2.main.animation ∧
      (tick config l i).1.state.recentAnimations = (tick config m j).1.state.recentAnimations ∧
      (tick config l i).1.state.lastMicromotionAt =
        (tick config m j).1.state.lastMicromotionAt := by
  obtain ⟨hafter, hcommand⟩ := h.bodyTick hbody hrecent
  obtain ⟨hpose, hmoved, hkept⟩ := (hcommand.adaptLoopBehavior config).burnInGuardrail
    { l.state with affect := i.affect } { m.state with affect := j.affect } hrecent hmicro
    (i.bodyTick l).after.state i.now
  rw [hafter, h.now] at hpose hmoved hkept
  have hmain : (tick config l i).2.main.animation = (tick config m j).2.main.animation := by
    rw [tick_main, tick_main, hafter, h.now]
    exact hpose.1
  refine ⟨by rw [tick_body, tick_body, hafter], hmain, ?_, ?_⟩
  · rw [tick_state, tick_state, hafter, h.now, observe_recentAnimations, observe_recentAnimations,
      hmain]
    exact congrArg (fun recent => (recent ++ [_]).rtake recentAnimationLimit) hkept
  · rw [tick_state, tick_state, hafter, h.now]
    exact hmoved

variable {e : Engine} {k r : Running} {event other : Event}

theorem perform_writesEnabled {s : Store} {call : Memory.Call} (h : onMemories call) :
    (perform e s call).1.writesEnabled = s.writesEnabled := by
  have hcaptured {t u : Store} {now : ℚ} {m : Moment} {memoryId : Option ℕ}
      (ht : t.writesEnabled = s.writesEnabled) (hcapture : t.capture e now m = .ok (memoryId, u)) :
      u.writesEnabled = s.writesEnabled := by
    rcases capture_ok hcapture with rfl | ⟨row, -, rfl⟩ | ⟨kind, -, -, -, rfl⟩
    · exact ht
    · exact ht
    · exact ht
  refine perform_keeps (P := fun t => t.writesEnabled = s.writesEnabled) id hcaptured ?_
    (fun _ => id) rfl
  rintro t enabled rfl
  exact h.elim

theorem finalState_writesEnabled {s : Store} {calls : List Memory.Call}
    (h : ∀ call ∈ calls, onMemories call) :
    (finalState (perform e) s calls).writesEnabled = s.writesEnabled :=
  finalState_keeps (P := fun t : Store => t.writesEnabled = s.writesEnabled)
    (fun _ _ hcall hsame => (perform_writesEnabled hcall).trans hsame) rfl h

/-- Two databases with the same row of `pet_state` and the same flag. -/
structure SameRow (d c : Database) : Prop where
  petState : d.petState = c.petState
  writesEnabled : d.store.writesEnabled = c.store.writesEnabled

theorem SameRow.saveAffect {d c : Database} (h : SameRow d c) (now : ℚ)
    (affect : List (String × ℚ)) (lastInteraction : ℚ) :
    SameRow (d.saveAffect now affect lastInteraction) (c.saveAffect now affect lastInteraction) := by
  simp only [Database.saveAffect, Database.upsertAffect, h.petState, h.writesEnabled]
  split
  · exact h
  · exact ⟨rfl, h.writesEnabled⟩

theorem SameRow.saveBody {d c : Database} (h : SameRow d c) (now : ℚ) (body : Option BodyRow) :
    SameRow (d.saveBody now body) (c.saveBody now body) := by
  simp only [Database.saveBody, Database.upsertBody, h.petState, h.writesEnabled]
  split
  · exact h
  · exact ⟨rfl, h.writesEnabled⟩

/-- What two loops share from a reset on. -/
structure Running.Shares (k r : Running) : Prop where
  carries : k.Carries r
  row : SameRow k.database r.database

theorem Running.Carries.track (h : k.Carries r) (i : LoopInput) : k.track i = r.track i := by
  simp only [Running.track, h.presence]

theorem Running.Carries.feel (h : k.Carries r) (i : LoopInput) : k.feel i = r.feel i := by
  simp only [Running.feel, h.track, h.affect]

theorem eventOf_source (i : LoopInput) (situation words : Str) :
    (Running.eventOf i situation).source = (Running.eventOf i words).source := by
  cases hpending : i.pending with
  | none => simp only [Running.eventOf, hpending]
  | some event =>
    simp only [Running.eventOf, hpending]
    split <;> rfl

/-- The same input brings two such loops to the same drives, presence and event. -/
theorem Running.Carries.tickInput (h : k.Carries r) (i : LoopInput) (situation words : Str) :
    (k.tickInput i situation).Alike (r.tickInput i words) where
  now := rfl
  source := eventOf_source i situation words
  affect := h.feel i
  report := congrArg Prod.snd (h.track i)
  localHour := rfl
  outcome := rfl

theorem Running.Shares.tick (h : k.Shares r) {i : LoopInput} {situation words : Str}
    {calls others : List Memory.Call} (hcalls : ∀ call ∈ calls, onMemories call)
    (hothers : ∀ call ∈ others, onMemories call) :
    (k.tick e config i situation calls).Shares (r.tick e config i words others) := by
  obtain ⟨hcarries, hrow⟩ := h
  obtain ⟨hbody, hmain, hrecent, hmicro⟩ := tick_alike config
    (hcarries.tickInput i situation words) hcarries.body hcarries.recentAnimations
    hcarries.lastMicromotionAt
  have hflag : (finalState (perform e) k.database.store calls).writesEnabled =
      (finalState (perform e) r.database.store others).writesEnabled := by
    rw [finalState_writesEnabled hcalls, finalState_writesEnabled hothers, hrow.writesEnabled]
  have haffect : (k.tick e config i situation calls).loop.state.affect =
      (r.tick e config i words others).loop.state.affect := by
    simp only [Running.tick, hcarries.feel, hmain]
  have hpresence : (k.tick e config i situation calls).presence =
      (r.tick e config i words others).presence := by
    simp only [Running.tick, hcarries.track]
  refine ⟨⟨haffect, hrecent, hmicro, hbody, hpresence⟩, ?_⟩
  have hsaved := SameRow.saveAffect (d := k.database.mapStore (finalState (perform e) · calls))
    (c := r.database.mapStore (finalState (perform e) · others)) ⟨hrow.petState, hflag⟩ i.savedAt
  simp only [Running.tick, hcarries.feel, hcarries.track, hmain]
  exact hsaved _ _

theorem Running.Shares.next (e : Engine) (config : PetLoopConfig) (h : k.Shares r)
    (halike : event.Alike other) :
    (k.next e config event).Shares (r.next e config other) := by
  obtain ⟨⟨haffect, hrecent, hmicro, hbody, hpresence⟩, hrow⟩ := h
  cases halike with
  | tick memories memories' =>
    have hshares : k.Shares r := ⟨⟨haffect, hrecent, hmicro, hbody, hpresence⟩, hrow⟩
    exact hshares.tick memories memories'
  | saveBody now =>
    refine ⟨⟨haffect, hrecent, hmicro, hbody, hpresence⟩, ?_⟩
    simp only [Running.next, hbody]
    exact hrow.saveBody now _
  | reset => exact ⟨⟨haffect, hrecent, hmicro, hbody, hpresence⟩, rfl, hrow.writesEnabled⟩
  | setWritesEnabled enabled =>
    exact ⟨⟨haffect, hrecent, hmicro, hbody, hpresence⟩, hrow.petState, rfl⟩

theorem Running.Shares.rows {events others : List Event} (h : k.Shares r)
    (halike : List.Forall₂ Event.Alike events others) :
    answers (Running.step e config) k events = answers (Running.step e config) r others := by
  induction halike generalizing k r with
  | nil => rfl
  | cons hfirst _ ih =>
    have hnext := h.next e config hfirst
    simp only [answers_cons, Running.step]
    rw [hnext.row.petState, ih hnext]

/-- Two loops that share the store after a reset, and that carry the same affect, presence, body,
recent animations and last micromotion over it, store the same rows from then on: nothing else of
what they went through before the reset is written back. -/
theorem reset_rows_agree (e : Engine) (config : PetLoopConfig) (k r : Running)
    (events others : List Event) (hreset : k.database.reset = r.database.reset)
    (hcarries : k.Carries r) (halike : List.Forall₂ Event.Alike events others) :
    answers (Running.step e config) k.reset events =
      answers (Running.step e config) r.reset others := by
  have hshares : k.reset.Shares r.reset := by
    refine ⟨⟨hcarries.affect, hcarries.recentAnimations, hcarries.lastMicromotionAt, hcarries.body,
      hcarries.presence⟩, ?_, ?_⟩
    · exact congrArg Database.petState hreset
    · exact congrArg (·.store.writesEnabled) hreset
  exact hshares.rows halike

theorem trust_registerBehavior (a : Affect) (animation : Animation) :
    (a.registerBehavior animation).trust = a.trust := by
  cases animation <;> rfl

/-- An idle tick after a reset stores the trust from before it. -/
theorem trust_written_back (e : Engine) (config : PetLoopConfig) (k : Running) (i : LoopInput)
    (situation : Str) (hidle : i.pending = none)
    (hwrites : k.database.store.writesEnabled = true) :
    ∃ row affect, (k.reset.tick e config i situation []).database.petState = some row ∧
      row.affect = some affect ∧ affect.lookup "trust" = some k.loop.state.affect.trust := by
  have htrust : (k.reset.feel i).trust = k.loop.state.affect.trust := by
    simp only [Running.feel, hidle]
    split
    · exact Affect.trust_advance ..
    · exact Affect.trust_advance ..
  have henabled : k.reset.database.store.writesEnabled = true := hwrites
  simp only [Running.tick, Database.saveAffect, Database.mapStore, Database.upsertAffect,
    finalState_nil, henabled]
  exact ⟨_, _, rfl, rfl, congrArg some ((trust_registerBehavior ..).trans htrust)⟩

/-- The loop after its first tick, in which the owner said something. -/
def heard (text : String) : Running :=
  ({} : Running).tick (.stable fun _ => 1) .default
    { now := 1
      pending := some {
        id := str "direct-1"
        source := str "direct_message"
        event := str ("Direct user message: " ++ text) }
      localHour := 12
      outcome := none
      savedAt := 1 } [] []

theorem heard_reset (text : String) : (heard text).database.reset = {} := by
  simp only [heard, Running.tick, finalState_nil, Database.mapStore, Database.saveAffect]
  rfl

/-- An idle tick without the model. -/
def idleTick (situation : String) : Event :=
  .tick { now := 7, localHour := 12, outcome := none, savedAt := 7 } (str situation) []

theorem idleTick_alike (situation words : String) :
    List.Forall₂ Event.Alike [idleTick situation] [idleTick words] :=
  .cons (.tick (by simp) (by simp)) .nil

/-- The phrases of one of two loops are forgotten with the reset. -/
theorem reset_rows_agree_phrases :
    answers (Running.step (.stable fun _ => 1) .default) (heard "good dog").reset
        [idleTick "Quiet desk time."] =
      answers (Running.step (.stable fun _ => 1) .default)
        ({ heard "good dog" with loop.state.recentPhrases := [str "hi"] } : Running).reset
        [idleTick "Quiet desk time. A tail wags."] :=
  reset_rows_agree (.stable fun _ => 1) .default (heard "good dog")
    { heard "good dog" with loop.state.recentPhrases := [str "hi"] } _ _ rfl
    ⟨rfl, rfl, rfl, rfl, rfl⟩ (idleTick_alike _ _)

/-- Praise or harsh words before the reset show in the row after it. -/
theorem reset_keeps_affect :
    (heard "good dog").database.reset = (heard "bad dog").database.reset ∧
      List.Forall₂ Event.Alike [idleTick "Quiet desk time."] [idleTick "Quiet desk time."] ∧
      answers (Running.step (.stable fun _ => 1) .default) (heard "good dog").reset
          [idleTick "Quiet desk time."] ≠
        answers (Running.step (.stable fun _ => 1) .default) (heard "bad dog").reset
          [idleTick "Quiet desk time."] := by
  refine ⟨(heard_reset _).trans (heard_reset _).symm, idleTick_alike _ _, ?_⟩
  decide +kernel

end Hologotchi.PetLoop
