import Hologotchi.Library.Locking
import Hologotchi.Memory.PetState
import Hologotchi.Memory.Reflection

/-! Calls on the memory store from several threads while writes are paused (`host/memory.py`). -/
namespace Hologotchi.Memory

open Python Library Body

/-- What is read by `_writes_enabled`. -/
def writesFlag : Flag Database where
  get d := d.store.writesEnabled
  set enabled d := d.mapStore (·.setWritesEnabled enabled)
  get_set _ _ := rfl
  set_get _ := rfl

/-- A call from a thread, with what the clock read. -/
inductive ThreadCall
  | capture (now : ℚ) (m : Moment)
  | retrieve (now : ℚ) (q : Query)
  | spontaneousCallback (now : ℚ) (limits : CallbackLimits)
  | saveAffect (now : ℚ) (affect : List (String × ℚ)) (lastInteraction : ℚ)
  | saveBody (now : ℚ) (body : Option BodyRow)
  | setWritesEnabled (enabled : Bool)

/-! ### The calls step by step -/

variable (e : Engine)

/-- `capture` from the lock on. -/
def captureLocked (now : ℚ) (m : Moment) (kind : Kind) : Program Database :=
  .acquire <| .query fun d =>
    match (do bindText m.source; bindText (cleanSummary m.summary) : Except Error Unit) with
    | .error _ => .release .done
    | .ok () =>
      match d.store.findRecentDuplicate e m.source (cleanSummary m.summary) now with
      | some existing =>
        .write (·.mapStore (·.bumpExisting existing (clampUnsigned m.intensity) now)) (.release .done)
      | none => .query fun d =>
        if d.store.importanceOf m < importanceThreshold then .release .done
        else .write (·.mapStore (·.insert (d.store.newRow m kind now))) (.release .done)

def captureProgram (now : ℚ) (m : Moment) : Program Database :=
  .test fun enabled =>
    if !enabled then .done
    else if cleanSummary m.summary = [] then .done
    else match checkKind m.kind with
      | .error _ => .done
      | .ok kind => captureLocked e now m kind

/-- Mark the rows as recalled if writes are enabled, with the lock. -/
def markFound (found : List Row) (now : ℚ) : Program Database :=
  if found = [] then .release .done
  else .test fun enabled =>
    if enabled then .write (·.mapStore (·.markRecalled (found.map (·.id)) now)) (.release .done)
    else .release .done

/-- The rows `retrieve` returns of what its statements selected. -/
def Query.rank (q : Query) (now : ℚ) (textRows strongRows : List Row) : List Row :=
  let textIds := textRows.map (·.id)
  let value (row : Row) : ℚ :=
    effectiveImportance e row now + if textIds.contains row.id then textMatchBonus else 0
  let baseRows := if normalizeTags q.tags = [] then strongRows ++ textRows else strongRows
  ((candidates baseRows).mergeSort fun a b => value b ≤ value a).take q.limit.toNat

/-- `retrieve` from the lock on, where the statements can be given the pool or raise. -/
def retrieveLocked (now : ℚ) (q : Query) (pool : Except Error Unit) : Program Database :=
  .acquire <| .query fun d =>
    match pool with
    | .error _ => .release .done
    | .ok () =>
      let textRows := if q.tokens = [] then [] else d.store.searchRows e q.tokens q.pool
      .query fun d =>
        let strongRows :=
          if normalizeTags q.tags = [] then d.store.recentStrong e q.pool
          else d.store.tagRows e (normalizeTags q.tags) q.pool
        markFound (q.rank e now textRows strongRows) now

def retrieveProgram (now : ℚ) (q : Query) : Program Database :=
  if q.limit < 1 then .done else retrieveLocked e now q (bindInt q.pool)

def spontaneousCallbackProgram (now : ℚ) (limits : CallbackLimits) : Program Database :=
  .acquire <| .query fun d =>
    markFound (e.orderBy callbackOrder (d.store.rows.filter (limits.admits now))).head?.toList now

def saveAffectLocked (now : ℚ) (affect : List (String × ℚ)) (lastInteraction : ℚ) :
    Program Database :=
  .acquire <| .write (·.upsertAffect now affect lastInteraction) (.release .done)

def saveAffectProgram (now : ℚ) (affect : List (String × ℚ)) (lastInteraction : ℚ) :
    Program Database :=
  .test fun enabled => if !enabled then .done else saveAffectLocked now affect lastInteraction

def saveBodyLocked (now : ℚ) (body : Option BodyRow) : Program Database :=
  .acquire <| .write (·.upsertBody now body) (.release .done)

def saveBodyProgram (now : ℚ) (body : Option BodyRow) : Program Database :=
  .test fun enabled => if !enabled then .done else saveBodyLocked now body

def setWritesEnabledProgram (enabled : Bool) : Program Database :=
  .acquire <| .set enabled (.release .done)

def ThreadCall.program : ThreadCall → Program Database
  | .capture now m => captureProgram e now m
  | .retrieve now q => retrieveProgram e now q
  | .spontaneousCallback now limits => spontaneousCallbackProgram e now limits
  | .saveAffect now affect lastInteraction => saveAffectProgram now affect lastInteraction
  | .saveBody now body => saveBodyProgram now body
  | .setWritesEnabled enabled => setWritesEnabledProgram enabled

/-! ### A call alone -/

/-- What a call does when no other thread is in one. -/
def Database.serve (e : Engine) (d : Database) : ThreadCall → Database
  | .capture now m => d.mapStore fun s => (perform e s (.capture now m)).1
  | .retrieve now q => d.mapStore fun s => (perform e s (.retrieve now q)).1
  | .spontaneousCallback now limits =>
    d.mapStore fun s => (perform e s (.spontaneousCallback now limits)).1
  | .saveAffect now affect lastInteraction => d.saveAffect now affect lastInteraction
  | .saveBody now body => d.saveBody now body
  | .setWritesEnabled enabled => d.mapStore (·.setWritesEnabled enabled)

variable {e} {d : Database} {c : ThreadCall} {rest : Program Database}

theorem alone_markFound (found : List Row) (now : ℚ) :
    Program.alone writesFlag d (markFound found now) =
      d.mapStore fun s =>
        if found = [] ∨ !s.writesEnabled then s else s.markRecalled (found.map (·.id)) now := by
  by_cases hfound : found = []
  · simp [markFound, hfound, Program.alone, Database.mapStore]
  · cases hwrites : d.store.writesEnabled with
    | true => simp [markFound, hfound, Program.alone, Database.mapStore, writesFlag, hwrites]
    | false => simp [markFound, hfound, Program.alone, Database.mapStore, writesFlag, hwrites]

theorem alone_captureLocked (now : ℚ) {m : Moment} {kind : Kind}
    (hwrites : d.store.writesEnabled = true) (hsummary : cleanSummary m.summary ≠ [])
    (hkind : checkKind m.kind = .ok kind) :
    Program.alone writesFlag d (captureLocked e now m kind) =
      d.mapStore fun s => (perform e s (.capture now m)).1 := by
  simp only [captureLocked, Program.alone, Database.mapStore, perform, Store.capture, hwrites,
    hsummary, hkind]
  cases bindText m.source with
  | error x => simp [bind, Except.bind, settle, Program.alone]
  | ok _ =>
    cases bindText (cleanSummary m.summary) with
    | error x => simp [bind, Except.bind, settle, Program.alone]
    | ok _ =>
      cases d.store.findRecentDuplicate e m.source (cleanSummary m.summary) now with
      | some existing => simp [bind, Except.bind, settle, Program.alone]
      | none =>
        by_cases hlow : d.store.importanceOf m < importanceThreshold
        · simp [bind, Except.bind, settle, Program.alone, hlow]
        · simp [bind, Except.bind, settle, Program.alone, hlow]

theorem rank_selected (s : Store) (now : ℚ) (q : Query) :
    q.rank e now (if q.tokens = [] then [] else s.searchRows e q.tokens q.pool)
      (if normalizeTags q.tags = [] then s.recentStrong e q.pool
        else s.tagRows e (normalizeTags q.tags) q.pool) = s.ranked e now q := by
  by_cases htags : normalizeTags q.tags = []
  · simp [Query.rank, Store.ranked, htags]
  · simp [Query.rank, Store.ranked, htags]

theorem alone_capture (now : ℚ) (m : Moment) :
    Program.alone writesFlag d (captureProgram e now m) =
      d.mapStore fun s => (perform e s (.capture now m)).1 := by
  cases hwrites : d.store.writesEnabled with
  | false =>
    simp [captureProgram, Program.alone, Database.mapStore, writesFlag, perform, Store.capture,
      settle, hwrites]
  | true =>
    by_cases hsummary : cleanSummary m.summary = []
    · simp [captureProgram, Program.alone, Database.mapStore, writesFlag, perform, Store.capture,
        settle, hwrites, hsummary]
    · cases hkind : checkKind m.kind with
      | error x =>
        simp [captureProgram, Program.alone, Database.mapStore, writesFlag, perform, Store.capture,
          settle, hwrites, hsummary, hkind, bind, Except.bind]
      | ok kind =>
        have hlocked := alone_captureLocked (e := e) now hwrites hsummary hkind
        simpa [captureProgram, Program.alone, writesFlag, hwrites, hsummary, hkind] using hlocked

theorem alone_retrieve (now : ℚ) (q : Query) :
    Program.alone writesFlag d (retrieveProgram e now q) =
      d.mapStore fun s => (perform e s (.retrieve now q)).1 := by
  simp only [retrieveProgram, perform, Store.retrieve]
  generalize bindInt q.pool = pool
  by_cases hlimit : q.limit < 1
  · simp [hlimit, Program.alone, settle, Database.mapStore]
  · cases pool with
    | error x =>
      simp [hlimit, retrieveLocked, Program.alone, settle, Database.mapStore, bind, Except.bind]
    | ok _ =>
      have hmarked := alone_markFound (d := d) (d.store.ranked e now q) now
      simp only [hlimit, if_false, retrieveLocked, Program.alone, rank_selected, hmarked,
        Database.mapStore, bind, Except.bind]
      split
      · rfl
      · rfl

theorem alone_spontaneousCallback (now : ℚ) (limits : CallbackLimits) :
    Program.alone writesFlag d (spontaneousCallbackProgram e now limits) =
      d.mapStore fun s => (perform e s (.spontaneousCallback now limits)).1 := by
  have hmarked := alone_markFound (d := d)
    (e.orderBy callbackOrder (d.store.rows.filter (limits.admits now))).head?.toList now
  simp only [spontaneousCallbackProgram, Program.alone, hmarked, Database.mapStore, perform,
    settle, Store.spontaneousCallback]
  cases (e.orderBy callbackOrder (d.store.rows.filter (limits.admits now))).head? with
  | none => simp
  | some row => cases d.store.writesEnabled <;> simp

theorem alone_saveAffect (now : ℚ) (affect : List (String × ℚ)) (lastInteraction : ℚ) :
    Program.alone writesFlag d (saveAffectProgram now affect lastInteraction) =
      d.saveAffect now affect lastInteraction := by
  cases hwrites : d.store.writesEnabled with
  | false => simp [saveAffectProgram, Program.alone, Database.saveAffect, writesFlag, hwrites]
  | true =>
    simp [saveAffectProgram, saveAffectLocked, Program.alone, Database.saveAffect, writesFlag,
      hwrites]

theorem alone_saveBody (now : ℚ) (body : Option BodyRow) :
    Program.alone writesFlag d (saveBodyProgram now body) = d.saveBody now body := by
  cases hwrites : d.store.writesEnabled with
  | false => simp [saveBodyProgram, Program.alone, Database.saveBody, writesFlag, hwrites]
  | true =>
    simp [saveBodyProgram, saveBodyLocked, Program.alone, Database.saveBody, writesFlag, hwrites]

/-- A call that runs alone does what the model of single calls says. -/
theorem alone_program : Program.alone writesFlag d (c.program e) = d.serve e c := by
  cases c with
  | capture now m => exact alone_capture now m
  | retrieve now q => exact alone_retrieve now q
  | spontaneousCallback now limits => exact alone_spontaneousCallback now limits
  | saveAffect now affect lastInteraction => exact alone_saveAffect now affect lastInteraction
  | saveBody now body => exact alone_saveBody now body
  | setWritesEnabled enabled => rfl

/-! ### What is left of a call -/

/-- What holds when the call returns from under the lock. -/
def ThreadCall.Ensures : ThreadCall → Database → Prop
  | .setWritesEnabled enabled, d => d.store.writesEnabled = enabled
  | _, _ => True

/-- The moment is stored, or marks the row it repeats. -/
def Database.Takes (e : Engine) (d : Database) (now : ℚ) (m : Moment) : Prop :=
  (bindText m.source).isOk = true ∧ (bindText (cleanSummary m.summary)).isOk = true ∧
    (d.store.findRecentDuplicate e m.source (cleanSummary m.summary) now ≠ none ∨
      importanceThreshold ≤ d.store.importanceOf m)

/-- The call found writes enabled and waits for the lock, to write what it was given. -/
def ThreadCall.Cleared (e : Engine) (d : Database) : ThreadCall → Program Database → Prop
  | .capture now m, .acquire _ => d.Takes e now m
  | .saveAffect .., .acquire _ => True
  | .saveBody .., .acquire _ => True
  | _, _ => False

theorem markFound_inside {found : List Row} {now : ℚ} :
    Program.Inside writesFlag (fun _ => True) d (markFound found now) := by
  unfold markFound
  split
  · exact ⟨rfl, trivial⟩
  · simp only [Program.Inside]
    split
    · exact ⟨rfl, trivial⟩
    · exact ⟨rfl, trivial⟩

theorem captureLocked_outside {now : ℚ} {m : Moment} {kind : Kind} :
    Program.Outside writesFlag (fun _ => True) (captureLocked e now m kind) := by
  intro d
  simp only [Program.Inside]
  split
  · exact ⟨rfl, trivial⟩
  · split
    · exact ⟨rfl, trivial⟩
    · simp only [Program.Inside]
      split
      · exact ⟨rfl, trivial⟩
      · exact ⟨rfl, trivial⟩

theorem retrieveLocked_outside {now : ℚ} {q : Query} {pool : Except Error Unit} :
    Program.Outside writesFlag (fun _ => True) (retrieveLocked e now q pool) := by
  intro d
  cases pool with
  | error x => exact ⟨rfl, trivial⟩
  | ok _ => exact markFound_inside

theorem program_outside (c : ThreadCall) :
    Program.Outside writesFlag c.Ensures (c.program e) := by
  cases c with
  | capture now m =>
    intro enabled
    cases enabled with
    | false => trivial
    | true =>
      simp only [Bool.not_true, Bool.false_eq_true, if_false]
      split
      · trivial
      · split
        · trivial
        · exact captureLocked_outside
  | retrieve now q =>
    simp only [ThreadCall.program, retrieveProgram]
    split
    · trivial
    · exact retrieveLocked_outside
  | spontaneousCallback now limits => exact fun _ => markFound_inside
  | saveAffect now affect lastInteraction =>
    intro enabled
    cases enabled with
    | false => trivial
    | true => exact fun _ => ⟨rfl, trivial⟩
  | saveBody now body =>
    intro enabled
    cases enabled with
    | false => trivial
    | true => exact fun _ => ⟨rfl, trivial⟩
  | setWritesEnabled enabled => exact fun _ => ⟨rfl, rfl⟩

theorem markFound_quiet {found : List Row} {now : ℚ} : (markFound found now).Quiet d := by
  unfold markFound
  split
  · trivial
  · trivial

theorem retrieveLocked_quiet {now : ℚ} {q : Query} {pool : Except Error Unit} :
    (retrieveLocked e now q pool).Quiet d := by
  cases pool with
  | error x => trivial
  | ok _ => exact markFound_quiet

/-- A call that starts while writes are paused writes nothing. -/
theorem program_quiet (d : Database) (c : ThreadCall) : (c.program e).Quiet d := by
  cases c with
  | capture now m => trivial
  | retrieve now q =>
    simp only [ThreadCall.program, retrieveProgram]
    generalize bindInt q.pool = pool
    split
    · trivial
    · exact retrieveLocked_quiet
  | spontaneousCallback now limits => exact markFound_quiet
  | saveAffect now affect lastInteraction => trivial
  | saveBody now body => trivial
  | setWritesEnabled enabled => exact .inr trivial

/-- With the lock, a capture writes exactly the moments it takes. -/
theorem captureLocked_quiet_iff {now : ℚ} {m : Moment} {kind : Kind} :
    (captureLocked e now m kind).Quiet d ↔ ¬ d.Takes e now m := by
  simp only [captureLocked, Program.Quiet, Database.Takes]
  cases hsource : bindText m.source with
  | error x => simp [bind, Except.bind, Except.isOk, Except.toBool, Program.Quiet]
  | ok _ =>
    cases hsummary : bindText (cleanSummary m.summary) with
    | error x => simp [bind, Except.bind, Except.isOk, Except.toBool, Program.Quiet]
    | ok _ =>
      cases hdup : d.store.findRecentDuplicate e m.source (cleanSummary m.summary) now with
      | some existing => simp [bind, Except.bind, Except.isOk, Except.toBool, Program.Quiet]
      | none =>
        by_cases hlow : d.store.importanceOf m < importanceThreshold
        · simp [bind, Except.bind, Except.isOk, Except.toBool, Program.Quiet, hlow]
        · simp [bind, Except.bind, Except.isOk, Except.toBool, Program.Quiet, hlow, not_lt.mp hlow]

theorem quiet_iff_done (hleft : Program.Left .done rest) :
    rest.Quiet d ↔ ¬ c.Cleared e d rest := by
  obtain rfl := hleft.of_done
  refine iff_of_true trivial ?_
  cases c <;> exact id

/-- Outside the lock, a call is quiet exactly when it is not cleared to write. -/
theorem quiet_iff (hleft : Program.Left (c.program e) rest) :
    rest.Quiet d ↔ ¬ c.Cleared e d rest := by
  have hstart := program_quiet (e := e) d c
  cases c with
  | capture now m =>
    rcases hleft.of_guard with rfl | hleft
    · exact iff_of_true hstart id
    · split at hleft
      · exact quiet_iff_done hleft
      · split at hleft
        · exact quiet_iff_done hleft
        · rcases hleft.of_acquire with rfl | rfl
          · exact captureLocked_quiet_iff
          · exact iff_of_true trivial id
  | retrieve now q =>
    refine iff_of_true ?_ (by cases rest <;> exact id)
    simp only [ThreadCall.program, retrieveProgram] at hleft
    generalize bindInt q.pool = pool at hleft
    split at hleft
    · exact hleft.of_done ▸ trivial
    · rcases hleft.of_acquire with rfl | rfl
      · exact retrieveLocked_quiet
      · trivial
  | spontaneousCallback now limits =>
    rcases hleft.of_acquire with rfl | rfl
    · exact iff_of_true hstart id
    · exact iff_of_true trivial id
  | saveAffect now affect lastInteraction =>
    rcases hleft.of_guard with rfl | hleft
    · exact iff_of_true hstart id
    · rcases hleft.of_acquire with rfl | rfl
      · exact iff_of_false id (not_not_intro trivial)
      · exact iff_of_true trivial id
  | saveBody now body =>
    rcases hleft.of_guard with rfl | hleft
    · exact iff_of_true hstart id
    · rcases hleft.of_acquire with rfl | rfl
      · exact iff_of_false id (not_not_intro trivial)
      · exact iff_of_true trivial id
  | setWritesEnabled enabled =>
    rcases hleft.of_acquire with rfl | rfl
    · exact iff_of_true hstart id
    · exact iff_of_true trivial id

/-! ### The pause -/

variable {w : World ℕ ThreadCall Database} {i : ℕ}

/-- Writes are paused by a thread that is about to return. -/
def pausing (w : World ℕ ThreadCall Database) (i : ℕ) : World ℕ ThreadCall Database :=
  { w.put i (.setWritesEnabled false) (.release .done) with
    shared := w.shared.mapStore (·.setWritesEnabled false)
    holder := some i }

/-- It has returned. -/
def paused (w : World ℕ ThreadCall Database) (i : ℕ) : World ℕ ThreadCall Database :=
  { (pausing w i).put i (.setWritesEnabled false) .done with holder := none }

theorem exists_pausing (hidle : w.Idle i) (hfree : w.holder = none) :
    ∃ run, Trace (World.Step writesFlag (ThreadCall.program e)) w run (pausing w i) := by
  let called := w.put i (.setWritesEnabled false) (setWritesEnabledProgram false)
  let locked : World ℕ ThreadCall Database :=
    { called.put i (.setWritesEnabled false) (.set false (.release .done)) with holder := some i }
  have hcall : World.Step writesFlag (ThreadCall.program e) w (.call i (.setWritesEnabled false))
      called := .call _ hidle
  have hacquire : World.Step writesFlag (ThreadCall.program e) called (.acquire i) locked :=
    .acquire World.put_threads_self hfree
  have hset : World.Step writesFlag (ThreadCall.program e) locked (.set i false) (pausing w i) := by
    have hsame : pausing w i =
        { locked.put i (.setWritesEnabled false) (.release .done) with
          shared := writesFlag.set false locked.shared } := by
      simp [pausing, locked, called, World.put, writesFlag]
    rw [hsame]
    exact .set World.put_threads_self
  exact ⟨_, .cons hcall (.cons hacquire (.cons hset (.nil _)))⟩

theorem step_paused : World.Step writesFlag (ThreadCall.program e) (pausing w i)
    (.release i (.setWritesEnabled false)) (paused w i) :=
  .release World.put_threads_self rfl

/-- `set_writes_enabled(False)` keeps every later insert and update out, until writes are enabled
again, exactly when at its return no call is cleared to write. -/
theorem pause_takes_effect_iff {ι : Type} [DecidableEq ι] (e : Engine) (d : Database)
    (run : List (Action ι ThreadCall × World ι ThreadCall Database))
    (w p : World ι ThreadCall Database) (i : ι)
    (h : Trace (World.Step writesFlag (ThreadCall.program e)) ⟨d, none, fun _ => none⟩ run w)
    (hpause : World.Step writesFlag (ThreadCall.program e) w
      (.release i (.setWritesEnabled false)) p) :
    (∀ later t, Trace (World.Step writesFlag (ThreadCall.program e)) p later t →
        (∀ step ∈ later, ¬ step.1.Enables) → ∀ step ∈ later, ¬ step.1.Writes) ↔
      ∀ j c rest, p.threads j = some (c, rest) → ¬ c.Cleared e p.shared rest := by
  have hwait := World.orderly_run program_outside h
  obtain ⟨hoff, hfree⟩ := World.Orderly.released hwait hpause
  have hpaused := World.Orderly.step hwait program_outside hpause
  have hiff := World.not_mayWrite_iff hpaused program_outside program_quiet hfree hoff
  constructor
  · intro hnever j c rest hrest
    have hquiet := hiff.mp (fun ⟨later, t, htrace, henables, step, hstep, hwrites⟩ =>
      hnever later t htrace henables step hstep hwrites) j c rest hrest
    have hleft := hpaused.outside j c rest hrest (by simp [hfree])
    exact (quiet_iff hleft).mp hquiet
  · intro hclear later t htrace henables step hstep hwrites
    refine hiff.mpr ?_ ⟨later, t, htrace, henables, step, hstep, hwrites⟩
    intro j c rest hrest
    have hleft := hpaused.outside j c rest hrest (by simp [hfree])
    exact (quiet_iff hleft).mpr (hclear j c rest hrest)

def freshAffect : List (String × ℚ) := ({} : Affect).toRow

/-- A memory that `spontaneous_callback` may come back to after a day. -/
def praised : Row where
  id := 1
  createdAt := 0
  source := str "direct_message"
  kind := .episodic
  summary := str "good dog"
  tags := []
  valence := 70
  intensity := 60
  importance := 65.5
  lastRecalled := 0
  recallCount := 0

def remembering : Database where
  store := { rows := [praised], lastId := 1 }

/-- A callback waits for the lock, and another call has yet to read the flag. -/
def waiting (e : Engine) : World ℕ ThreadCall Database :=
  (World.put ⟨remembering, none, fun _ => none⟩ 1 (.spontaneousCallback 86400 {})
    (spontaneousCallbackProgram e 86400 {})).put 2 (.saveAffect 86400 freshAffect 86400)
      (saveAffectProgram 86400 freshAffect 86400)

theorem exists_waiting :
    ∃ run, Trace (World.Step writesFlag (ThreadCall.program e)) ⟨remembering, none, fun _ => none⟩
      run (pausing (waiting e) 0) := by
  have hidle : (waiting e).Idle 0 := fun _ _ h => by simp [waiting, World.put] at h
  obtain ⟨run, hrun⟩ := exists_pausing (e := e) hidle rfl
  let start : World ℕ ThreadCall Database := ⟨remembering, none, fun _ => none⟩
  have hcallback : World.Step writesFlag (ThreadCall.program e) start
      (.call 1 (.spontaneousCallback 86400 {})) _ := .call _ fun _ _ h => by simp [start] at h
  exact ⟨_, .cons hcallback (.cons (.call _ fun _ _ h => by simp [start, World.put] at h) hrun)⟩

/-- Neither of the two writes once the pause has returned. -/
theorem pause_takes_effect_iff_waiting :
    ¬ World.MayWrite writesFlag (ThreadCall.program (.stable fun _ => 1))
      (paused (waiting (.stable fun _ => 1)) 0) := by
  obtain ⟨run, hrun⟩ := exists_waiting (e := .stable fun _ => 1)
  rintro ⟨later, t, htrace, henables, step, hstep, hwrites⟩
  have hiff := pause_takes_effect_iff (.stable fun _ => 1) remembering run _ _ 0 hrun step_paused
  refine hiff.mpr ?_ later t htrace henables step hstep hwrites
  intro j c rest hrest
  rw [paused, pausing, waiting, World.put, World.put, World.put, World.put] at hrest
  simp only [Function.update_apply] at hrest
  split_ifs at hrest
  · cases hrest
    exact id
  · cases hrest
    exact id
  · cases hrest
    exact id

/-- A call that found writes enabled, waiting for the lock. -/
def saving : World ℕ ThreadCall Database :=
  World.put ⟨{}, none, fun _ => none⟩ 1 (.saveAffect 5 freshAffect 3) (saveAffectLocked 5 freshAffect 3)

theorem exists_saving :
    ∃ run, Trace (World.Step writesFlag (ThreadCall.program e)) ⟨{}, none, fun _ => none⟩ run
      (pausing saving 0) := by
  have hidle : saving.Idle 0 := fun _ _ h => by simp [saving, World.put] at h
  obtain ⟨run, hrun⟩ := exists_pausing (e := e) hidle rfl
  let start : World ℕ ThreadCall Database := ⟨{}, none, fun _ => none⟩
  let called := start.put 1 (.saveAffect 5 freshAffect 3) (saveAffectProgram 5 freshAffect 3)
  have hcall : World.Step writesFlag (ThreadCall.program e) start
      (.call 1 (.saveAffect 5 freshAffect 3)) called := .call _ fun _ _ h => by simp [start] at h
  have htest : World.Step writesFlag (ThreadCall.program e) called (.test 1) saving := by
    have hsame : saving =
        called.put 1 (.saveAffect 5 freshAffect 3) (saveAffectLocked 5 freshAffect 3) := by
      simp [saving, called, start, World.put]
    rw [hsame]
    exact .test World.put_threads_self
  exact ⟨_, .cons hcall (.cons htest hrun)⟩

/-- An affect is stored after `set_writes_enabled(False)` has returned. -/
theorem affect_saved_while_paused :
    ∃ run w p later t,
      Trace (World.Step writesFlag (ThreadCall.program (.stable fun _ => 1)))
          ⟨{}, none, fun _ : ℕ => none⟩ run w ∧
        World.Step writesFlag (ThreadCall.program (.stable fun _ => 1)) w
          (.release 0 (.setWritesEnabled false)) p ∧
        Trace (World.Step writesFlag (ThreadCall.program (.stable fun _ => 1))) p later t ∧
        (∀ step ∈ later, ¬ step.1.Enables) ∧ (∃ step ∈ later, step.1.Writes) ∧
        p.shared.petState = none ∧ t.shared.petState ≠ none := by
  obtain ⟨run, hrun⟩ := exists_saving (e := .stable fun _ => 1)
  let p := paused saving 0
  let locked : World ℕ ThreadCall Database :=
    { p.put 1 (.saveAffect 5 freshAffect 3)
          (.write (·.upsertAffect 5 freshAffect 3) (.release .done)) with
      holder := some 1 }
  have hwaiting : p.threads 1 =
      some (.saveAffect 5 freshAffect 3, saveAffectLocked 5 freshAffect 3) := by
    simp [p, paused, pausing, World.put, saving]
  have hacquire : World.Step writesFlag (ThreadCall.program (.stable fun _ => 1)) p (.acquire 1)
      locked := .acquire hwaiting rfl
  have hhead : locked.threads 1 = some (.saveAffect 5 freshAffect 3,
      .write (·.upsertAffect 5 freshAffect 3) (.release .done)) := by
    simp [locked, World.put]
  have hwrite : World.Step writesFlag (ThreadCall.program (.stable fun _ => 1)) locked (.write 1)
      _ := .write hhead
  exact ⟨run, pausing saving 0, p, _, _, hrun, step_paused, .cons hacquire (.cons hwrite (.nil _)),
    by simp [Action.Enables], by simp [Action.Writes], rfl, by simp [Database.upsertAffect]⟩

end Hologotchi.Memory
