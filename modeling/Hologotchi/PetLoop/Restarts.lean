import Hologotchi.Affect.Bounds
import Hologotchi.Body.History
import Hologotchi.Library.Transitions
import Hologotchi.PetLoop.Persistence
import Hologotchi.Presence.History

/-! The loop killed and started again on its database (`_restore_persistent_state` in
`host/pet_loop.py`, `load_affect` in `host/memory.py`). -/
namespace Hologotchi.Memory

open Body

/-- `_StoredState`. -/
structure StoredState where
  affect : Option (List (String × ℚ)) := none
  lastInteraction : Option ℚ := none
  body : Option BodyRow := none

def Database.loadAffect (d : Database) : StoredState :=
  match d.petState with
  | none => {}
  | some row => { affect := row.affect, lastInteraction := row.lastInteraction, body := row.body }

end Hologotchi.Memory

namespace Hologotchi.PetLoop

open Python Library Protocol Presence Body Inputs Memory

/-- What the command line gives to a process. -/
structure Settings where
  loop : PetLoopConfig
  presence : PresenceConfig := .default
  body : BodyConfig := .default

namespace Running

/-- `_restore_persistent_state`; an empty row of drives counts as none. -/
def restorePersistentState (k : Running) : Running :=
  let stored := k.database.loadAffect
  let affect := match stored.affect.filter (· ≠ []) with
    | some row => Affect.fromRow row
    | none => k.loop.state.affect
  let body := match stored.body with
    | some row =>
      let restored := BodyModel.fromRow row k.loop.body.config
      { k.loop.body with
        state := restored.state
        stateSince := restored.stateSince
        sleepStartedAt := restored.sleepStartedAt
        lastTouchAt := restored.lastTouchAt }
    | none => k.loop.body
  { loop := { state := { k.loop.state with affect }, body }
    presence := { k.presence with
      lastInteraction := stored.lastInteraction.getD k.presence.lastInteraction }
    database := k.database }

/-- A new process, up to the first cycle of `run_pet_loop`. -/
def start (settings : Settings) (database : Database) : Running :=
  restorePersistentState {
    loop := { body := { config := settings.body } }
    presence := { config := settings.presence }
    database := database.mapStore (·.setWritesEnabled true) }

end Running

structure Process where
  settings : Settings
  running : Running
  /-- The drives of the tick are stored, its body not yet. -/
  saving : Bool := false

inductive LifeEvent
  /-- A tick up to `save_affect`. -/
  | tick (input : LoopInput) (situation : Str) (calls : List Memory.Call)
  | saveBody (now : ℚ)
  /-- Calls on the memories, of a request or of a tick that does not come to its saves. -/
  | calls (calls : List Memory.Call)
  | reset
  | setWritesEnabled (enabled : Bool)
  /-- The process ends, at whatever point it is, and another one starts. -/
  | restart (settings : Settings)

namespace Process

def start (settings : Settings) (database : Database) : Process :=
  { settings, running := .start settings database }

def setDatabase (p : Process) (database : Database) : Process :=
  { p with running := { p.running with database } }

def setSaving (p : Process) (saving : Bool) : Process := { p with saving }

end Process

inductive Lives (e : Engine) : Process → LifeEvent → Process → Prop
  | tick {p : Process} (i : LoopInput) (situation : Str) (calls : List Memory.Call)
      (hsaved : p.saving = false) (hcalls : ∀ call ∈ calls, onMemories call) :
      Lives e p (.tick i situation calls)
        { p with running := p.running.tick e p.settings.loop i situation calls, saving := true }
  | saveBody {p : Process} (now : ℚ) (hsaving : p.saving = true) :
      Lives e p (.saveBody now)
        ((p.setDatabase (p.running.database.saveBody now
          (some p.running.loop.body.toRow))).setSaving false)
  | calls {p : Process} (calls : List Memory.Call) (hcalls : ∀ call ∈ calls, onMemories call) :
      Lives e p (.calls calls)
        (p.setDatabase (p.running.database.mapStore (finalState (perform e) · calls)))
  | reset {p : Process} : Lives e p .reset (p.setDatabase p.running.database.reset)
  | setWritesEnabled {p : Process} (enabled : Bool) : Lives e p (.setWritesEnabled enabled)
      (p.setDatabase (p.running.database.mapStore (·.setWritesEnabled enabled)))
  | restart {p : Process} (settings : Settings) :
      Lives e p (.restart settings) (.start settings p.running.database)

/-- The ticks that made the body of the process and the one in the database, over all the lives
it goes back to; and the drives and the last interaction that a tick stored last. -/
structure Past where
  ticks : List Body.Tick := []
  storedTicks : List Body.Tick := []
  storedAffect : Option (Affect × ℚ) := none

namespace Past

/-- The body tick of a cycle that the process goes through. -/
def bodyTick (p : Process) (i : LoopInput) (situation : Str) : Body.Tick :=
  (p.running.tickInput i situation).bodyTick p.running.loop

/-- What a step from `p` to `q` adds. Nothing is stored while writes are disabled, a reset forgets
what is stored, and a new process goes on from there. -/
def next (w : Past) (p : Process) (event : LifeEvent) (q : Process) : Past :=
  match event with
  | .tick i situation _ =>
    { w with
      ticks := w.ticks ++ [bodyTick p i situation]
      storedAffect :=
        if q.running.database.store.writesEnabled then
          some (q.running.loop.state.affect, q.running.presence.lastInteraction)
        else w.storedAffect }
  | .saveBody _ =>
    if q.running.database.store.writesEnabled then { w with storedTicks := w.ticks } else w
  | .reset => { w with storedTicks := [], storedAffect := none }
  | .restart _ => { w with ticks := w.storedTicks }
  | .calls _ | .setWritesEnabled _ => w

/-- The past of a run. -/
def ofRun (w : Past) : Process → List (LifeEvent × Process) → Past
  | _, [] => w
  | p, (event, q) :: run => (w.next p event q).ofRun q run

end Past

/-- The body that its ticks have led to. -/
def lastBody (config : BodyConfig) (ts : List Body.Tick) : BodyModel :=
  match ts.getLast? with
  | some t => { t.after with config }
  | none => .fresh config

/-- The process and its database are what their past has made of them. -/
structure Recalls (w : Past) (p : Process) : Prop where
  body : p.running.loop.body = lastBody p.settings.body w.ticks
  tracks : ∀ config, Tracks config w.ticks (lastBody config w.ticks)
  storedTracks : ∀ config, Tracks config w.storedTicks (lastBody config w.storedTicks)
  storedBody : p.running.database.loadAffect.body = w.storedTicks.getLast?.map (·.after.toRow)
  storedAffect : p.running.database.loadAffect.affect = w.storedAffect.map (·.1.toRow)
  storedInteraction : p.running.database.loadAffect.lastInteraction = w.storedAffect.map (·.2)
  bounded : p.running.loop.state.affect.Bounded
  storedBounded : ∀ stored ∈ w.storedAffect, stored.1.Bounded
  saving : p.saving = true → w.ticks ≠ []

variable {e : Engine} {config other : BodyConfig} {ts : List Body.Tick} {m n : BodyModel}
  {p q : Process} {w : Past} {i : LoopInput} {situation : Str} {event : LifeEvent}
  {settings : Settings} {run : List (LifeEvent × Process)}

/-- Neither the thresholds nor the last touch are part of the history. -/
theorem tracks_congr (h : Tracks config ts m) (hconfig : n.config = other)
    (hstate : n.state = m.state) (hsince : n.stateSince = m.stateSince)
    (hsleep : n.sleepStartedAt = m.sleepStartedAt) : Tracks other ts n := by
  obtain ⟨-, hfresh, hstarted, hclock, hsleepSince, hentered, hnot⟩ := h
  rw [← hstate, ← hsince] at hfresh hentered
  rw [← hsince] at hstarted
  rw [← hsleep, ← hstate] at hclock
  rw [← hsleep, ← hsince, ← hstate] at hsleepSince
  rw [← hstate] at hnot
  exact ⟨hconfig, hfresh, hstarted, hclock, hsleepSince, hentered, hnot⟩

@[simp] theorem lastBody_append (config : BodyConfig) (ts : List Body.Tick) (t : Body.Tick) :
    lastBody config (ts ++ [t]) = { t.after with config } := by
  simp [lastBody]

theorem config_lastBody (config : BodyConfig) (ts : List Body.Tick) :
    (lastBody config ts).config = config := by
  unfold lastBody
  split <;> rfl

/-- A cycle ticks the body that it starts with, touched or not. -/
theorem bodyTick_eq (p : Process) (i : LoopInput) (situation : Str) : ∃ touch : ℚ,
    Past.bodyTick p i situation = Body.tick { p.running.loop.body with lastTouchAt := touch }
      (Past.bodyTick p i situation).input := by
  by_cases htouched : (p.running.tickInput i situation).event.source = str touchSource
  · refine ⟨i.now, ?_⟩
    rw [Past.bodyTick, TickInput.bodyTick, if_pos htouched]
    rfl
  · refine ⟨p.running.loop.body.lastTouchAt, ?_⟩
    rw [Past.bodyTick, TickInput.bodyTick, if_neg htouched]
    rfl

theorem Recalls.tracks_touched (h : Recalls w p) (touch : ℚ) : Tracks p.settings.body w.ticks
    { p.running.loop.body with lastTouchAt := touch } := by
  rw [h.body]
  exact tracks_congr (h.tracks p.settings.body) (config_lastBody ..) rfl rfl rfl

/-- The ticks of a process are coherent with all that went before it. -/
theorem Recalls.coherent (h : Recalls w p) (hnow : 0 < i.now) (situation : Str) :
    Coherent w.ticks (Past.bodyTick p i situation) := by
  obtain ⟨touch, htick⟩ := bodyTick_eq p i situation
  rw [htick]
  exact coherent_tick (h.tracks_touched touch) hnow

theorem Recalls.tracks_tick (h : Recalls w p) (hnow : 0 < i.now) (situation : Str) :
    Tracks p.settings.body (w.ticks ++ [Past.bodyTick p i situation])
      (Past.bodyTick p i situation).after := by
  obtain ⟨touch, htick⟩ := bodyTick_eq p i situation
  rw [htick]
  exact tracks_step (h.tracks_touched touch) hnow

theorem bounded_fresh : ({} : Affect).Bounded := by
  constructor <;> decide

theorem bounded_applyOwnerEffects {a : Affect} (h : a.Bounded) (event : LoopEvent) :
    (applyOwnerEffects a event).Bounded := by
  unfold applyOwnerEffects
  split
  · cases classifyMessage event.event with
    | praise => exact h.apply .praise
    | harsh => exact h.apply .harsh
    | apology => exact h.apply .apology
    | neutral => exact h.apply .attention
  · split
    · split
      · exact h.apply .badOutcome
      · exact h.apply .goodOutcome
    · split
      · exact h.apply .alert
      · split
        · unfold applyTouchEffects
          split
          · exact h.apply .pet
          · split
            · exact h.apply .playInvite
            · exact h.apply .boop
        · exact h

theorem bounded_return {a : Affect} (h : a.Bounded) (returned : Bool) (awaySeconds : ℚ) :
    (if returned then a.registerReturnAfterAway awaySeconds else a).Bounded := by
  split
  · exact h.apply (.returnAfterAway awaySeconds)
  · exact h

theorem bounded_feel {k : Running} (h : k.loop.state.affect.Bounded) (i : LoopInput) :
    (k.feel i).Bounded := by
  have hadvanced : (k.loop.state.affect.advance i.now (k.track i).2.ignoring (k.track i).2.away
      (k.track i).2.focusPressure).Bounded := h.advance i.now
  have hreturned := bounded_return hadvanced (k.track i).2.returnedFromAway
    (k.track i).2.awayBeforeReturn
  simp only [Running.feel]
  split
  · split
    · exact bounded_applyOwnerEffects hreturned _
    · exact hreturned
  · exact hreturned

variable {d : Database} {now : ℚ}

theorem loadAffect_saveAffect (d : Database) (now : ℚ) (affect : List (String × ℚ))
    (lastInteraction : ℚ) : (d.saveAffect now affect lastInteraction).loadAffect =
      if d.store.writesEnabled then
        { d.loadAffect with affect := some affect, lastInteraction := some lastInteraction }
      else d.loadAffect := by
  cases hwrites : d.store.writesEnabled with
  | false => simp [Database.saveAffect, hwrites]
  | true => cases hrow : d.petState <;>
      simp [Database.saveAffect, Database.upsertAffect, Database.loadAffect, hwrites, hrow]

theorem loadAffect_saveBody (d : Database) (now : ℚ) (body : Option BodyRow) :
    (d.saveBody now body).loadAffect =
      if d.store.writesEnabled then { d.loadAffect with body := body } else d.loadAffect := by
  cases hwrites : d.store.writesEnabled with
  | false => simp [Database.saveBody, hwrites]
  | true => cases hrow : d.petState <;>
      simp [Database.saveBody, Database.upsertBody, Database.loadAffect, hwrites, hrow]

@[simp] theorem loadAffect_mapStore (d : Database) (change : Store → Store) :
    (d.mapStore change).loadAffect = d.loadAffect := rfl

@[simp] theorem loadAffect_reset (d : Database) : d.reset.loadAffect = {} := rfl

@[simp] theorem store_saveAffect (d : Database) (now : ℚ) (affect : List (String × ℚ))
    (lastInteraction : ℚ) : (d.saveAffect now affect lastInteraction).store = d.store := by
  unfold Database.saveAffect
  split <;> rfl

@[simp] theorem store_saveBody (d : Database) (now : ℚ) (body : Option BodyRow) :
    (d.saveBody now body).store = d.store := by
  unfold Database.saveBody
  split <;> rfl

theorem start_state {stored : Option (Affect × ℚ)}
    (h : d.loadAffect.affect = stored.map (·.1.toRow)) :
    (Running.start settings d).loop.state = { affect := (stored.map (·.1)).getD {} } := by
  have hread (a : Affect) : Affect.fromRow a.toRow = a := by
    simpa using Affect.fromRow_toRow a []
  simp only [Running.start, Running.restorePersistentState, loadAffect_mapStore, h]
  cases stored with
  | none => rfl
  | some stored => exact congrArg (fun affect => ({ affect } : PetState)) (hread stored.1)

theorem start_presence {stored : Option (Affect × ℚ)}
    (h : d.loadAffect.lastInteraction = stored.map (·.2)) :
    (Running.start settings d).presence =
      { config := settings.presence, lastInteraction := (stored.map (·.2)).getD 0 } := by
  simp only [Running.start, Running.restorePersistentState, loadAffect_mapStore, h]

theorem start_body (h : d.loadAffect.body = ts.getLast?.map (·.after.toRow)) :
    (Running.start settings d).loop.body = lastBody settings.body ts := by
  simp only [Running.start, Running.restorePersistentState, loadAffect_mapStore, h, lastBody]
  cases ts.getLast? with
  | none => rfl
  | some t =>
    have hread := congrArg BodyModel.state (BodyModel.fromRow_toRow t.after)
    simp only [Option.map_some, BodyModel.fromRow, BodyModel.toRow] at hread ⊢
    rw [hread]

/-- A tracker without an update behind it reports no return. -/
theorem track_first {k : Running} (h : k.presence.state = none) (i : LoopInput) :
    (k.track i).2.returnedFromAway = false := by
  have hfirst (k : PresenceTracker) (h : k.state = none) :
      (k.update i.now i.signals).2.returnedFromAway = false := by
    simp [PresenceTracker.update, h]
  unfold Running.track
  split
  · exact hfirst (k.presence.noteInteraction i.now) h
  · exact hfirst k.presence h

/-- The clock of a tick shows a time after the epoch. -/
def LifeEvent.Dated : LifeEvent → Prop
  | .tick i _ _ => 0 < i.now
  | _ => True

theorem recalls_start (h : Recalls w p) (settings : Settings) :
    Recalls { w with ticks := w.storedTicks } (.start settings p.running.database) := by
  have haffect : (Running.start settings p.running.database).loop.state.affect =
      (w.storedAffect.map (·.1)).getD {} := congrArg PetState.affect (start_state h.storedAffect)
  refine ⟨start_body h.storedBody, h.storedTracks, h.storedTracks, h.storedBody, h.storedAffect,
    h.storedInteraction, ?_, h.storedBounded, by simp [Process.start]⟩
  change (Running.start settings p.running.database).loop.state.affect.Bounded
  rw [haffect]
  cases hstored : w.storedAffect with
  | none => exact bounded_fresh
  | some stored => exact h.storedBounded stored hstored

/-- The database is not touched where it is not written. -/
theorem recalls_setDatabase (h : Recalls w p) {d : Database}
    (hd : d.loadAffect = p.running.database.loadAffect) : Recalls w (p.setDatabase d) := by
  obtain ⟨hbody, htracks, hstored, hbodyRow, haffectRow, hinteraction, hbounded, hkept,
    hsaving⟩ := h
  refine ⟨hbody, htracks, hstored, ?_, ?_, ?_, hbounded, hkept, hsaving⟩
  · rw [← hbodyRow]
    exact congrArg StoredState.body hd
  · rw [← haffectRow]
    exact congrArg StoredState.affect hd
  · rw [← hinteraction]
    exact congrArg StoredState.lastInteraction hd

theorem recalls_saveBody (h : Recalls w p) (now : ℚ) (hsaving : p.saving = true) :
    let q := (p.setDatabase (p.running.database.saveBody now
      (some p.running.loop.body.toRow))).setSaving false
    Recalls (w.next p (.saveBody now) q) q := by
  intro q
  have hload : q.running.database.loadAffect = _ :=
    loadAffect_saveBody p.running.database now (some p.running.loop.body.toRow)
  have hflag : q.running.database.store.writesEnabled = p.running.database.store.writesEnabled :=
    congrArg Store.writesEnabled (store_saveBody ..)
  by_cases hwrites : p.running.database.store.writesEnabled = true
  · rw [if_pos hwrites] at hload
    rw [Past.next, if_pos (hflag.trans hwrites)]
    refine ⟨h.body, h.tracks, h.tracks, ?_, ?_, ?_, h.bounded, h.storedBounded, nofun⟩
    · obtain ⟨ts, t, hticks⟩ := (List.eq_nil_or_concat w.ticks).resolve_left (h.saving hsaving)
      rw [hload, h.body, hticks, List.concat_eq_append, lastBody_append, List.getLast?_append]
      rfl
    · rw [hload, ← h.storedAffect]
    · rw [hload, ← h.storedInteraction]
  · rw [if_neg hwrites] at hload
    rw [Past.next, if_neg (by rwa [hflag])]
    have hsame := recalls_setDatabase h hload
    exact { hsame with saving := nofun }

theorem recalls_tick (h : Recalls w p) (hnow : 0 < i.now) {calls : List Memory.Call} :
    let q := { p with
      running := p.running.tick e p.settings.loop i situation calls, saving := true }
    Recalls (w.next p (.tick i situation calls) q) q := by
  intro q
  have htracks := h.tracks_tick hnow situation
  have hbody : q.running.loop.body = (Past.bodyTick p i situation).after := rfl
  have hbounded : q.running.loop.state.affect.Bounded :=
    (bounded_feel h.bounded i).registerBehavior _
  have hload : q.running.database.loadAffect = _ := loadAffect_saveAffect
    (p.running.database.mapStore (finalState (perform e) · calls)) i.savedAt
    q.running.loop.state.affect.toRow q.running.presence.lastInteraction
  have hflag : q.running.database.store.writesEnabled = (p.running.database.mapStore
      (finalState (perform e) · calls)).store.writesEnabled :=
    congrArg Store.writesEnabled (store_saveAffect ..)
  have hlast : ∀ config, Tracks config (w.ticks ++ [Past.bodyTick p i situation])
      (lastBody config (w.ticks ++ [Past.bodyTick p i situation])) := by
    intro config
    rw [lastBody_append]
    exact tracks_congr htracks rfl rfl rfl rfl
  have hafter : q.running.loop.body =
      lastBody q.settings.body (w.ticks ++ [Past.bodyTick p i situation]) := by
    rw [lastBody_append, hbody, ← htracks.config_eq]
  rw [← hflag, loadAffect_mapStore] at hload
  by_cases hwrites : q.running.database.store.writesEnabled = true
  · rw [if_pos hwrites] at hload
    rw [Past.next, if_pos hwrites]
    refine ⟨hafter, hlast, h.storedTracks, ?_, ?_, ?_, hbounded, ?_, by simp⟩
    · rw [hload]
      exact h.storedBody
    · rw [hload]
      rfl
    · rw [hload]
      rfl
    · rintro stored ⟨⟩
      exact hbounded
  · rw [if_neg hwrites] at hload
    rw [Past.next, if_neg hwrites]
    refine ⟨hafter, hlast, h.storedTracks, ?_, ?_, ?_, hbounded, h.storedBounded, by simp⟩
    · rw [hload]
      exact h.storedBody
    · rw [hload]
      exact h.storedAffect
    · rw [hload]
      exact h.storedInteraction

theorem recalls_step (h : Recalls w p) (hdated : event.Dated)
    (hstep : Lives e p event q) : Recalls (w.next p event q) q := by
  cases hstep with
  | tick i situation calls hsaved hcalls => exact recalls_tick h hdated
  | saveBody now hsaving => exact recalls_saveBody h now hsaving
  | calls calls hcalls => exact recalls_setDatabase h rfl
  | reset =>
    obtain ⟨hbody, htracks, -, -, -, -, hbounded, -, hsaving⟩ := h
    exact ⟨hbody, htracks, fun config => tracks_fresh config, rfl, rfl, rfl, hbounded,
      by simp [Past.next], hsaving⟩
  | setWritesEnabled enabled => exact recalls_setDatabase h rfl
  | restart settings => exact recalls_start h settings

theorem recalls_run (h : Trace (Lives e) p run q) (hdated : ∀ a ∈ run, a.1.Dated)
    (hw : Recalls w p) : Recalls (w.ofRun p run) q := by
  induction h generalizing w with
  | nil => exact hw
  | cons first _ ih =>
    have hfirst := recalls_step hw (hdated _ List.mem_cons_self) first
    exact ih (fun a ha => hdated a (List.mem_cons_of_mem _ ha)) hfirst

theorem recalls_fresh (settings : Settings) : Recalls {} (.start settings {}) := by
  exact ⟨rfl, fun config => tracks_fresh config, fun config => tracks_fresh config, rfl, rfl, rfl,
    bounded_fresh, by simp, by simp [Process.start]⟩

/-- Neither `POST /memory/reset` nor `POST /memory/writes`. -/
def LifeEvent.Keeps : LifeEvent → Prop
  | .reset | .setWritesEnabled _ => False
  | _ => True

/-- All ticks of the process are stored, or all but the one that is being saved. -/
structure Safe (w : Past) (p : Process) : Prop where
  writes : p.running.database.store.writesEnabled = true
  saved : p.saving = false → w.ticks = w.storedTicks
  saving : p.saving = true → ∃ t, w.ticks = w.storedTicks ++ [t]

theorem safe_step (h : Safe w p) (hkeeps : event.Keeps) (hstep : Lives e p event q) :
    Safe (w.next p event q) q := by
  cases hstep with
  | tick i situation calls hsaved hcalls =>
    have hwrites : (p.running.tick e p.settings.loop i situation
        calls).database.store.writesEnabled = true :=
      (congrArg Store.writesEnabled (store_saveAffect ..)).trans
        ((finalState_writesEnabled hcalls).trans h.writes)
    refine ⟨hwrites, by simp, fun _ => ⟨Past.bodyTick p i situation, ?_⟩⟩
    exact congrArg (· ++ [_]) (h.saved hsaved)
  | saveBody now hsaving =>
    have hwrites : (p.running.database.saveBody now
        (some p.running.loop.body.toRow)).store.writesEnabled = true :=
      (congrArg Store.writesEnabled (store_saveBody ..)).trans h.writes
    have hnext : w.next p (.saveBody now) ((p.setDatabase (p.running.database.saveBody now
        (some p.running.loop.body.toRow))).setSaving false) = { w with storedTicks := w.ticks } :=
      if_pos hwrites
    exact ⟨hwrites, fun _ => by rw [hnext], nofun⟩
  | calls calls hcalls =>
    exact ⟨(finalState_writesEnabled hcalls).trans h.writes, h.saved, h.saving⟩
  | reset => exact hkeeps.elim
  | setWritesEnabled enabled => exact hkeeps.elim
  | restart settings => exact ⟨rfl, fun _ => rfl, by simp [Process.start]⟩

theorem safe_run (h : Trace (Lives e) p run q) (hkeeps : ∀ a ∈ run, a.1.Keeps) (hw : Safe w p) :
    Safe (w.ofRun p run) q := by
  induction h generalizing w with
  | nil => exact hw
  | cons first _ ih =>
    have hfirst := safe_step hw (hkeeps _ List.mem_cons_self) first
    exact ih (fun a ha => hkeeps a (List.mem_cons_of_mem _ ha)) hfirst

/-- Over any number of lives, each ended at any point: the next process takes up the drives, the
last interaction and the body as they were last stored since the last reset, and greets nobody
for the time it was away; a body that slept has slept since it fell asleep, in whichever life;
every tick is coherent with all the ticks its body goes back to; and where memory is neither
reset nor paused, a kill loses no tick but the one that is being saved. -/
theorem restart_resumes (e : Engine) (settings : Settings)
    (h : Trace (Lives e) (.start settings {}) run p) (hdated : ∀ a ∈ run, a.1.Dated) :
    let past := Past.ofRun {} (.start settings {}) run
    (∀ settings : Settings,
      let k := Running.start settings p.running.database
      k.loop.state = { affect := (past.storedAffect.map (·.1)).getD {} } ∧
        k.presence = { config := settings.presence
                       lastInteraction := (past.storedAffect.map (·.2)).getD 0 } ∧
        k.loop.body = lastBody settings.body past.storedTicks ∧
        (k.loop.body.state = .sleeping →
          enteredAt .sleeping past.storedTicks = some k.loop.body.sleepStartedAt) ∧
        ∀ i, (k.track i).2.returnedFromAway = false) ∧
    p.running.loop.state.affect.Bounded ∧
    (∀ i situation, 0 < i.now → Coherent past.ticks (Past.bodyTick p i situation)) ∧
    ((∀ a ∈ run, a.1.Keeps) →
      past.ticks = past.storedTicks ∨ ∃ t, past.ticks = past.storedTicks ++ [t]) := by
  intro past
  have hpast : Recalls past p := recalls_run h hdated (recalls_fresh settings)
  refine ⟨?_, hpast.bounded, fun i situation hnow => hpast.coherent hnow situation, ?_⟩
  · intro settings k
    have hbody : k.loop.body = lastBody settings.body past.storedTicks :=
      start_body hpast.storedBody
    have hpresence : k.presence = _ := start_presence hpast.storedInteraction
    refine ⟨start_state hpast.storedAffect, hpresence, hbody, ?_, ?_⟩
    · rw [hbody]
      intro hasleep
      have htracks := hpast.storedTracks settings.body
      rw [htracks.sleep_since hasleep, ← hasleep]
      exact htracks.entered (by simp [hasleep])
    · intro i
      exact track_first (by rw [hpresence]) i
  · intro hkeeps
    have hsafe : Safe past p := safe_run h hkeeps ⟨rfl, fun _ => rfl, by simp [Process.start]⟩
    cases hsaving : p.saving with
    | false => exact .inl (hsafe.saved hsaving)
    | true => exact .inr (hsafe.saving hsaving)

/-- A first tick, in which the owner said something. -/
def greetedInput : LoopInput where
  now := 1
  pending := some {
    id := str "direct-1"
    source := str "direct_message"
    event := str "Direct user message: good dog" }
  localHour := 12
  outcome := none
  savedAt := 1

def homeSettings : Settings where
  loop := .default

/-- The drives of the tick are stored, and the process is killed. -/
def greeted : Process where
  settings := homeSettings
  running := (Running.start homeSettings {}).tick (.stable fun _ => 1) .default greetedInput [] []
  saving := true

/-- What was said is not forgotten, and the body starts anew. -/
theorem restart_resumes_greeted :
    (Running.start homeSettings greeted.running.database).loop.state.affect =
        greeted.running.loop.state.affect ∧
      (Running.start homeSettings greeted.running.database).loop.body = .fresh .default := by
  have hrun : Trace (Lives (.stable fun _ => 1)) (.start homeSettings {})
      [(.tick greetedInput [] [], greeted)] greeted :=
    .single (.tick greetedInput [] [] rfl (by simp))
  have hdated : ∀ a ∈ [(LifeEvent.tick greetedInput [] [], greeted)], a.1.Dated := by
    simp [LifeEvent.Dated, greetedInput]
  obtain ⟨hresumes, -⟩ := restart_resumes (.stable fun _ => 1) homeSettings hrun hdated
  obtain ⟨hstate, -, hbody, -⟩ := hresumes homeSettings
  refine ⟨?_, hbody⟩
  rw [hstate]
  rfl

end Hologotchi.PetLoop
