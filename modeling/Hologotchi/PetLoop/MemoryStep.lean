import Hologotchi.PetLoop.Milestones
import Hologotchi.PetLoop.Persistence

/-! What one tick of the loop does with its memories (`host/pet_loop.py`), and the events whose
text they cannot take. -/
namespace Hologotchi.PetLoop

open Python Library Library.Fallible Library.Words Presence Body Inputs Memory

def retrieveLimit : ℤ := 3
def callbackMinSeconds : ℚ := 6 * 3600

/-! ### Capture -/

def MessageKind.text : MessageKind → Str
  | .praise => str "praise"
  | .harsh => str "harsh"
  | .apology => str "apology"
  | .neutral => str "neutral"

def MessageKind.valence : MessageKind → ℤ
  | .praise => 65
  | .harsh => -55
  | .apology => 35
  | .neutral => 20

/-- What is worth remembering of an event. -/
structure MemorySignal where
  valence : ℤ
  intensity : ℤ
  ownerInitiated : Bool
  alert : Bool
  tags : List Str

/-- `round(x)`: to the nearest integer, from the middle to the even one. -/
def roundHalfEven (x : ℚ) : ℤ :=
  let below := x.floor
  if x - below < 1 / 2 then below
  else if 1 / 2 < x - below then below + 1
  else if below % 2 = 0 then below
  else below + 1

def asIntensity (primary secondary : ℚ) : ℤ :=
  max 0 (min 100 (roundHalfEven (max primary secondary)))

def touchMemorySignal (gesture : Option Str) : MemorySignal :=
  if gesture = some (str "hold") then ⟨60, 60, true, false, [str "touch", str "affection"]⟩
  else if gesture = some (str "doubletap") then
    ⟨50, 55, true, false, [str "touch", str "play_invite"]⟩
  else ⟨40, 45, true, false, [str "touch", str "boop"]⟩

def memorySignal (event : LoopEvent) (report : PresenceReport) (affect : Affect) :
    Option MemorySignal :=
  if event.source = str "direct_message" then
    let kind := classifyMessage event.event
    some ⟨kind.valence, 55, true, false, [str "message", kind.text]⟩
  else if event.source = str touchSource then some (touchMemorySignal event.gesture)
  else if event.source ∈ resultSources then
    let label := event.source.takeWhile (· ≠ 95)
    if isFailure event.event then some ⟨-60, 65, false, false, [label, str "fail"]⟩
    else some ⟨50, 55, false, false, [label, str "pass"]⟩
  else if event.source = str "important_alert" then some ⟨35, 85, false, true, [str "alert"]⟩
  else if report.returnedFromAway then
    some ⟨45, 60, false, false, [str "presence", str "reunion"]⟩
  -- Of the moments of its own only the emotionally notable ones.
  else match affect.overallState with
    | .withdrawn => some ⟨-55, asIntensity affect.loneliness affect.frustration, false, false,
        [str "ignored", str "withdrawn"]⟩
    | .sad => some ⟨-45, asIntensity affect.loneliness affect.frustration, false, false,
        [str "ignored", str "lonely"]⟩
    | .grumpy => some ⟨-35, asIntensity affect.frustration affect.frustration, false, false,
        [str "grumpy"]⟩
    | .content | .restless | .needy => none

def MemorySignal.moment (signal : MemorySignal) (event : LoopEvent) : Moment where
  source := event.source
  summary := event.event
  kind := Kind.episodic.text
  tags := some signal.tags
  valence := signal.valence
  intensity := signal.intensity
  ownerInitiated := signal.ownerInitiated
  alert := signal.alert

def captureMemory (e : Engine) (s : Store) (now : ℚ) (event : LoopEvent) (report : PresenceReport)
    (affect : Affect) : Except Error Store :=
  match memorySignal event report affect with
  | none => .ok s
  | some signal => do
    let (_, t) ← s.capture e now (signal.moment event)
    .ok t

/-! ### Notes for the prompt -/

/-- What surprise notes read and write of the `PetState`. -/
structure SurpriseState extends MomentState where
  lastCallbackAt : ℚ := 0
  lastSelfNudgeAt : ℚ := 0

/-- What the store's clock reads at each call of a tick. -/
structure StoreClock where
  capture : ℚ
  consolidate : ℕ → ℚ
  callback : ℚ
  retrieve : ℚ
  saveAffect : ℚ
  saveBody : ℚ

/-- A tick, as far as its memories are concerned. -/
structure MemoryTick where
  now : ℚ
  day : Str
  hour : ℤ
  petName : Str
  situation : Str
  report : PresenceReport
  affect : Affect
  clock : StoreClock
  /-- What the rest of the tick leaves to save. -/
  savedAffect : List (String × ℚ)
  lastInteraction : ℚ
  savedBody : Option BodyRow

def selfAlertNote (petName : Str) : Str :=
  str "Self-made attention alert: the owner has been heads-down for about two hours. " ++
    petName ++ str " may ask for attention once, gently, without guilt."

def selfNudgeNote (state : SurpriseState) (i : MemoryTick) : SurpriseState × Option Str :=
  let nudged := { state with lastSelfNudgeAt := i.now }
  if i.now - state.lastSelfNudgeAt < selfNudgeMinSeconds then (state, none)
  else if i.report.ignoring ∧ selfAlertIgnoredSeconds ≤ i.report.ignoredSeconds then
    (nudged, some (selfAlertNote i.petName))
  else if i.report.away then (state, none)
  else if i.affect.social < 25 ∨ 55 ≤ i.affect.loneliness then
    (nudged, some (str "Self-initiated nudge: " ++ i.petName ++
      str " may ask for a tiny bit of attention."))
  else if i.affect.play < 25 ∨ i.affect.stimulation < 25 then
    (nudged, some (str "Self-initiated nudge: " ++ i.petName ++
      str " may start a tiny game or patrol."))
  else (state, none)

/-- `_surprise_notes` over a store; only an idle tick calls a memory back. -/
def surpriseNotes (e : Engine) (s : Store) (state : SurpriseState) (event : LoopEvent)
    (i : MemoryTick) : Except Error (List Str × SurpriseState × Store) := do
  let (moments, special) ← recordSpecialMoment state.toMomentState event i.day i.hour (some s)
  let state := { state with toMomentState := moments }
  let notes := (special.map fun m => str "Rare special moment: " ++ m.note i.petName).toList
  if event.source = str "idle" then
    let (state, nudge) := selfNudgeNote state i
    let notes := notes ++ nudge.toList
    if callbackMinSeconds ≤ i.now - state.lastCallbackAt then
      match s.spontaneousCallback e i.clock.callback { cooldownSeconds := .finite 0 } with
      | (some callback, t) =>
        let note := str "Spontaneous callback memory: bring this up lightly if it fits: " ++
          callback.summary
        .ok (notes ++ [note], { state with lastCallbackAt := i.now }, t)
      | (none, t) => .ok (notes, state, t)
    else .ok (notes, state, s)
  else .ok (notes, state, s)

/-! ### The step -/

def retrieveMemories (e : Engine) (s : Store) (now : ℚ) (situation : Str) :
    Except Error (List Str × Store) := do
  let (records, t) ← s.retrieve e now { query := some situation, limit := retrieveLimit }
  .ok (records.map (·.summary), t)

/-- Everything a tick calls the memories for; the rows it saves are JSON in ASCII. -/
def memoryStep (e : Engine) (d : Database) (state : SurpriseState) (event : LoopEvent)
    (i : MemoryTick) : Except Error (List Str × SurpriseState × Database) := do
  let captured ← captureMemory e d.store i.clock.capture event i.report i.affect
  let (_, consolidated) ← captured.consolidateMemory e i.clock.consolidate
  let (notes, next, noted) ← surpriseNotes e consolidated state event i
  let situation :=
    if notes = [] then i.situation else i.situation ++ 10 :: [10].intercalate notes
  let (memories, store) ← retrieveMemories e noted i.clock.retrieve situation
  let saved := { d with store := store }.saveAffect i.clock.saveAffect i.savedAffect
    i.lastInteraction
  .ok (memories, next, saved.saveBody i.clock.saveBody i.savedBody)

variable {e : Engine} {s t : Store} {d d' : Database} {state next : SurpriseState}
  {event : LoopEvent} {report : PresenceReport} {affect : Affect} {i : MemoryTick} {now : ℚ}
  {situation text : Str} {m : Moment} {memories notes : List Str}

/-! ### What it shares with the other parts of the loop -/

/-- A result is captured as the moment that the milestones count. -/
theorem captureMemory_result (h : event.source ∈ resultSources)
    (hok : captureMemory e s now event report affect = .ok t) :
    ∃ memoryId, s.capture e now (resultMoment event) = .ok (memoryId, t) := by
  have hdirect : event.source ≠ str "direct_message" := by
    rintro heq
    exact absurd (heq ▸ h) (by decide)
  have htouch : event.source ≠ str touchSource := by
    rintro heq
    exact absurd (heq ▸ h) (by decide)
  have hsignal : ∃ signal, memorySignal event report affect = some signal ∧
      signal.moment event = resultMoment event := by
    rw [memorySignal, if_neg hdirect, if_neg htouch, if_pos h]
    dsimp only [resultMoment]
    split
    · exact ⟨_, rfl, rfl⟩
    · exact ⟨_, rfl, rfl⟩
  obtain ⟨signal, hsome, hmoment⟩ := hsignal
  rw [captureMemory, hsome] at hok
  obtain ⟨⟨memoryId, u⟩, hcapture, hok⟩ := bind_eq_ok.mp hok
  cases hok
  exact ⟨memoryId, hmoment ▸ hcapture⟩

theorem nudge_ne_alert {petName other : Str} {more : Str} :
    str "Self-initiated nudge: " ++ petName ++ more ≠ selfAlertNote other := by
  intro h
  have hsixth : some 105 = some 109 := congrArg (·[5]?) h
  contradiction

/-- The note of an alert of its own stands in the prompt of the ticks that may raise one. -/
theorem selfNudgeNote_alert (hidle : event.source = str "idle") :
    (selfNudgeNote state i).2 = some (selfAlertNote i.petName) ↔
      selfMadeAlert event i.report state.lastSelfNudgeAt i.now = true := by
  simp only [selfMadeAlert, hidle, true_and, decide_eq_true_eq]
  unfold selfNudgeNote
  dsimp only
  split
  next hearly => simp [hearly]
  next hlate =>
    split
    next halert => exact iff_of_true rfl ⟨hlate, halert⟩
    next hcalm =>
      refine iff_of_false ?_ fun h => hcalm h.2
      split
      · simp
      split
      · intro h
        exact nudge_ne_alert (Option.some.inj h)
      split
      · intro h
        exact nudge_ne_alert (Option.some.inj h)
      · simp

/-! ### The calls of a tick -/

/-- Calls on the memories alone lead from one store to the other. -/
def Leads (e : Engine) (s t : Store) : Prop :=
  ∃ calls, (∀ call ∈ calls, onMemories call) ∧ t = finalState (perform e) s calls

theorem Leads.refl (s : Store) : Leads e s s := ⟨[], by simp, rfl⟩

theorem Leads.trans {u : Store} (h : Leads e s t) (hnext : Leads e t u) : Leads e s u := by
  obtain ⟨calls, hcalls, rfl⟩ := h
  obtain ⟨more, hmore, rfl⟩ := hnext
  refine ⟨calls ++ more, ?_, (finalState_append _ _ _).symm⟩
  intro call hcall
  rcases List.mem_append.mp hcall with hmem | hmem
  · exact hcalls call hmem
  · exact hmore call hmem

theorem Leads.of_perform {c : Memory.Call} (h : onMemories c) (ht : (perform e s c).1 = t) :
    Leads e s t :=
  ⟨[c], by simpa using h, ht.symm⟩

theorem captureMemory_leads (h : captureMemory e s now event report affect = .ok t) :
    Leads e s t := by
  unfold captureMemory at h
  split at h
  · cases h
    exact .refl _
  next signal _ =>
    obtain ⟨⟨memoryId, u⟩, hcapture, h⟩ := bind_eq_ok.mp h
    cases h
    apply Leads.of_perform (c := .capture now (signal.moment event)) trivial
    rw [perform, hcapture]
    rfl

theorem consolidateMemory_leads {clock : ℕ → ℚ} {n : ℕ}
    (h : s.consolidateMemory e clock = .ok (n, t)) : Leads e s t := by
  apply Leads.of_perform (c := .consolidateMemory clock) trivial
  rw [perform, h]
  rfl

theorem retrieveMemories_leads (h : retrieveMemories e s now situation = .ok (memories, t)) :
    Leads e s t := by
  obtain ⟨⟨records, u⟩, hretrieve, h⟩ := bind_eq_ok.mp h
  cases h
  apply Leads.of_perform (c := .retrieve now { query := some situation, limit := retrieveLimit })
    trivial
  rw [perform, hretrieve]
  rfl

theorem surpriseNotes_leads (h : surpriseNotes e s state event i = .ok (notes, next, t)) :
    Leads e s t := by
  obtain ⟨⟨moments, special⟩, -, h⟩ := bind_eq_ok.mp h
  dsimp only at h
  split at h
  · split at h
    · apply Leads.of_perform
        (c := .spontaneousCallback i.clock.callback { cooldownSeconds := .finite 0 }) trivial
      change (s.spontaneousCallback e i.clock.callback { cooldownSeconds := .finite 0 }).2 = t
      split at h
      next hcallback =>
        cases h
        rw [hcallback]
      next hcallback =>
        cases h
        rw [hcallback]
    · cases h
      exact .refl _
  · cases h
    exact .refl _

theorem saveAffect_store (d : Database) (now : ℚ) (row : List (String × ℚ))
    (lastInteraction : ℚ) : (d.saveAffect now row lastInteraction).store = d.store := by
  unfold Database.saveAffect
  split <;> rfl

theorem saveBody_store (d : Database) (now : ℚ) (row : Option BodyRow) :
    (d.saveBody now row).store = d.store := by
  unfold Database.saveBody
  split <;> rfl

/-- A tick that completes leaves the database as calls on the memories and the two saves do. -/
theorem memoryStep_leads (h : memoryStep e d state event i = .ok (memories, next, d')) :
    ∃ store, Leads e d.store store ∧
      d' = ({ d with store := store }.saveAffect i.clock.saveAffect i.savedAffect
        i.lastInteraction).saveBody i.clock.saveBody i.savedBody := by
  obtain ⟨captured, hcapture, h⟩ := bind_eq_ok.mp h
  obtain ⟨⟨n, consolidated⟩, hconsolidate, h⟩ := bind_eq_ok.mp h
  obtain ⟨⟨notes, after, noted⟩, hnotes, h⟩ := bind_eq_ok.mp h
  obtain ⟨⟨found, store⟩, hretrieve, h⟩ := bind_eq_ok.mp h
  cases h
  exact ⟨store, (captureMemory_leads hcapture).trans ((consolidateMemory_leads hconsolidate).trans
    ((surpriseNotes_leads hnotes).trans (retrieveMemories_leads hretrieve))), rfl⟩

/-- The tick of a result handles it as the milestones count it, and then only recalls. -/
theorem memoryStep_handles (hsource : event.source ∈ resultSources)
    (h : memoryStep e d state event i = .ok (memories, next, d')) :
    ∃ session : Session, Session.handle e ⟨state.toMomentState, d.store, []⟩ event i.clock.capture
        i.clock.consolidate i.day i.hour = .ok session ∧
      session.moments = next.toMomentState ∧ Leads e session.store d'.store := by
  obtain ⟨captured, hcapture, h⟩ := bind_eq_ok.mp h
  obtain ⟨⟨n, consolidated⟩, hconsolidate, h⟩ := bind_eq_ok.mp h
  obtain ⟨⟨notes, after, noted⟩, hnotes, h⟩ := bind_eq_ok.mp h
  obtain ⟨⟨found, store⟩, hretrieve, h⟩ := bind_eq_ok.mp h
  cases h
  obtain ⟨⟨moments, special⟩, hspecial, hnotes⟩ := bind_eq_ok.mp hnotes
  have hidle : event.source ≠ str "idle" := by
    rintro heq
    exact absurd (heq ▸ hsource) (by decide)
  dsimp only at hnotes
  rw [if_neg hidle] at hnotes
  cases hnotes
  obtain ⟨memoryId, hstored⟩ := captureMemory_result hsource hcapture
  refine ⟨_, bind_eq_ok.mpr ⟨_, hstored, bind_eq_ok.mpr ⟨_, hconsolidate,
    bind_eq_ok.mpr ⟨_, hspecial, rfl⟩⟩⟩, rfl, ?_⟩
  rw [saveBody_store, saveAffect_store]
  exact retrieveMemories_leads hretrieve

/-! ### What a store can take -/

/-- A capture raises only over a text that it has to hand to a statement. -/
theorem capture_isOk_iff (hkind : (checkKind m.kind).isOk = true)
    (hsource : (bindText m.source).isOk = true) (hsummary : cleanSummary m.summary ≠ []) :
    (s.capture e now m).isOk = true ↔
      s.writesEnabled = false ∨ (cleanSummary m.summary).any isSurrogate = false := by
  constructor
  · intro h
    by_contra hbad
    push Not at hbad
    obtain ⟨hwrites, hsurrogate⟩ := hbad
    obtain ⟨⟨memoryId, t⟩, hok⟩ := exists_of_isOk h
    unfold Store.capture at hok
    rw [if_neg (by simpa using hwrites), if_neg hsummary] at hok
    obtain ⟨_, -, hok⟩ := bind_eq_ok.mp hok
    obtain ⟨_, -, hok⟩ := bind_eq_ok.mp hok
    obtain ⟨_, hbound, -⟩ := bind_eq_ok.mp hok
    have hrejected : bindText (cleanSummary m.summary) = .error (.surrogate _) :=
      if_pos (by simpa using hsurrogate)
    rw [hrejected] at hbound
    contradiction
  · rintro (hpaused | hclean)
    · unfold Store.capture
      rw [if_pos (by simpa using hpaused)]
      rfl
    · have haccepted : bindText (cleanSummary m.summary) = .ok () := if_neg (by simp [hclean])
      exact capture_isOk hkind hsource (by rw [haccepted]; rfl)

theorem recordSpecialMoment_isOk {moments : MomentState} {day : Str} {hour : ℤ} :
    (recordSpecialMoment moments event day hour (some s)).isOk = true := by
  have htotal (moments : MomentState) : (greenResultTotal moments (some s)).isOk = true := by
    rw [greenResultTotal, countBy_pass]
    rfl
  unfold recordSpecialMoment
  dsimp only
  split
  · split <;> rfl
  split
  · split
    · rfl
    · exact isOk_bind (htotal _) fun _ => rfl
  split
  · split
    · rfl
    · split <;> rfl
  · rfl

theorem surpriseNotes_isOk : (surpriseNotes e s state event i).isOk = true := by
  refine isOk_bind recordSpecialMoment_isOk fun found => ?_
  dsimp only
  split
  · split
    · split <;> rfl
    · rfl
  · rfl

theorem retrieveMemories_isOk : (retrieveMemories e s now situation).isOk = true := by
  refine isOk_bind ?_ fun _ => rfl
  have hlimit : ¬ retrieveLimit < 1 := by decide
  have hpool : (Query.pool { query := some situation, limit := retrieveLimit } : ℤ) = 20 := by
    rfl
  unfold Store.retrieve
  rw [if_neg hlimit, hpool]
  refine isOk_bind (by decide) fun _ => ?_
  split <;> rfl

/-- Nothing after the capture raises. -/
theorem memoryStep_isOk_iff : (memoryStep e d state event i).isOk = true ↔
    (captureMemory e d.store i.clock.capture event i.report i.affect).isOk = true := by
  refine isOk_bind_iff fun captured => isOk_bind consolidateMemory_isOk fun _ => ?_
  exact isOk_bind surpriseNotes_isOk fun _ => isOk_bind retrieveMemories_isOk fun _ => rfl

/-- A capture is tried for every event of the owner or the desk. -/
theorem memorySignal_isSome (h : event.source ∈ effectSources) :
    (memorySignal event report affect).isSome = true := by
  simp only [effectSources, List.mem_cons, List.not_mem_nil, or_false] at h
  unfold memorySignal
  split
  · rfl
  next hdirect =>
    split
    · rfl
    next htouch =>
      split
      · split <;> rfl
      next hresult =>
        have halert : event.source = str "important_alert" := by
          rcases h with h | h | h | h | h
          · exact absurd h hdirect
          · exact absurd (h ▸ by decide) hresult
          · exact absurd (h ▸ by decide) hresult
          · exact h
          · exact absurd h htouch
        rw [if_pos halert]
        rfl

theorem effectSources_accepted : ∀ source ∈ effectSources, (bindText source).isOk = true := by
  decide

/-- Such an event is taken where writes are off or its summary has no lone surrogate. -/
theorem captureMemory_isOk_iff (h : event.source ∈ effectSources)
    (hsummary : cleanSummary event.event ≠ []) :
    (captureMemory e s now event report affect).isOk = true ↔
      s.writesEnabled = false ∨ (cleanSummary event.event).any isSurrogate = false := by
  have hsome : (memorySignal event report affect).isSome = true := memorySignal_isSome h
  obtain ⟨signal, hsignal⟩ := Option.isSome_iff_exists.mp hsome
  rw [captureMemory, hsignal]
  refine (isOk_bind_iff fun _ => rfl).trans ?_
  exact capture_isOk_iff (by rfl) (effectSources_accepted _ h) hsummary

/-! ### What the queue accepts -/

/-- A call that submits a text. -/
inductive Submission
  | directMessage (text : Str)
  | buildTestResult (kind : ResultKind) (ok : Bool) (detail : Option Str)
  | importantAlert (text : Str)

def Submission.submit (q : HostInputQueue) :
    Submission → Except SubmitError (HostInput × HostInputQueue)
  | .directMessage text => q.submitDirectMessage text
  | .buildTestResult kind ok detail => q.submitBuildTestResult kind ok detail
  | .importantAlert text => q.submitImportantAlert text

/-- Words with one blank between each two. -/
def Joined (text : Str) : Prop :=
  ∃ ws, ws ≠ [] ∧ (∀ w ∈ ws, IsWord isSpace w) ∧ text = [32].intercalate ws

theorem Joined.cleanSummary (h : Joined text) : cleanSummary text = text.take maxSummaryLen := by
  obtain ⟨ws, -, hws, rfl⟩ := h
  have hsplit : split ([32].intercalate ws) = ws := words_intercalate hws (by decide)
  rw [Memory.cleanSummary, hsplit]

theorem Joined.ne_nil (h : Joined text) : text ≠ [] := by
  obtain ⟨ws, hne, hws, rfl⟩ := h
  intro hnil
  have hwords : words isSpace ([32].intercalate ws) = ws := words_intercalate hws (by decide)
  rw [hnil, words_nil] at hwords
  exact hne hwords.symm

theorem Joined.append {label : Str} (hlabel : Joined label) (h : Joined text) :
    Joined (label ++ 32 :: text) := by
  obtain ⟨vs, hvs, hlabels, rfl⟩ := hlabel
  obtain ⟨ws, hws, hwords, rfl⟩ := h
  refine ⟨vs ++ ws, by simp [hvs], ?_, (intercalate_separated hvs hws).symm⟩
  intro w hw
  rcases List.mem_append.mp hw with hmem | hmem
  · exact hlabels w hmem
  · exact hwords w hmem

/-- A text after a label that ends with the blank. -/
theorem Joined.after {label labelled : Str} (h : Joined text) (hlabel : Joined label)
    (hblank : labelled = label ++ [32]) : Joined (labelled ++ text) := by
  rw [hblank, List.append_assoc]
  exact hlabel.append h

theorem joinWords_joined (h : joinWords text ≠ []) : Joined (joinWords text) := by
  refine ⟨words isSpace text, ?_, fun _ => isWord_of_mem, rfl⟩
  intro hnil
  exact h (by rw [joinWords, hnil]; rfl)

theorem cleanRequiredText_joined {field : String} {maxLen : ℕ} {cleaned : Str}
    (h : cleanRequiredText text field maxLen = .ok cleaned) : Joined cleaned := by
  unfold cleanRequiredText at h
  obtain ⟨hne, h⟩ := of_ite_error h
  obtain ⟨-, h⟩ := of_ite_error h
  cases h
  exact joinWords_joined hne

theorem joined_text {label : String} (h : joinWords (str label) = str label)
    (hne : str label ≠ []) : Joined (str label) := by
  rw [← h]
  exact joinWords_joined (h.trans_ne hne)

theorem label_joined (kind : ResultKind) (ok : Bool) :
    Joined (str (kind.label ++ if ok then " passed." else " failed.")) := by
  cases kind <;> cases ok <;> exact joined_text (by decide +kernel) (by decide +kernel)

/-- What is accepted comes from the owner or the desk, and is its own summary but for its
length. -/
theorem Submission.accepted {q after : HostInputQueue} {item : HostInput}
    {submission : Submission} (h : submission.submit q = .ok (item, after)) :
    item.source ∈ effectSources ∧ Joined item.event := by
  have hdirect : Joined (str "Direct user message:") :=
    joined_text (by decide +kernel) (by decide +kernel)
  have halert : Joined (str "Important alert:") :=
    joined_text (by decide +kernel) (by decide +kernel)
  cases submission with
  | directMessage text =>
    obtain ⟨message, hmessage, h⟩ := bind_eq_ok.mp h
    cases h
    have hsource : str "direct_message" ∈ effectSources := by decide
    refine ⟨hsource, ?_⟩
    change Joined (str "Direct user message: " ++ message)
    exact (cleanRequiredText_joined hmessage).after hdirect (by decide +kernel)
  | importantAlert text =>
    obtain ⟨message, hmessage, h⟩ := bind_eq_ok.mp h
    cases h
    have hsource : str "important_alert" ∈ effectSources := by decide
    refine ⟨hsource, ?_⟩
    change Joined (str "Important alert: " ++ message)
    exact (cleanRequiredText_joined hmessage).after halert (by decide +kernel)
  | buildTestResult kind ok detail =>
    obtain ⟨cleaned, hdetail, h⟩ := bind_eq_ok.mp h
    cases h
    have hsource : str (kind.name ++ "_result") ∈ effectSources := by
      cases kind <;> decide
    refine ⟨hsource, ?_⟩
    cases detail with
    | none =>
      cases hdetail
      simpa [HostInputQueue.put, resultInput] using label_joined kind ok
    | some text =>
      obtain ⟨message, hmessage, hdetail⟩ := bind_eq_ok.mp hdetail
      cases hdetail
      exact (label_joined kind ok).append (cleanRequiredText_joined hmessage)

/-- The tick of an accepted text completes its calls on the memories exactly where writes are off
or the part of the text that would be stored has no lone surrogate. -/
theorem memoryStep_completes_iff (e : Engine) (d : Database) (state : SurpriseState)
    (i : MemoryTick) (submission : Submission) {q after : HostInputQueue} {item : HostInput}
    (h : submission.submit q = .ok (item, after)) :
    (memoryStep e d state (LoopEvent.ofInput item) i).isOk = true ↔
      d.store.writesEnabled = false ∨
        (item.event.take maxSummaryLen).any isSurrogate = false := by
  obtain ⟨hsource, hjoined⟩ := Submission.accepted h
  have hsummary : cleanSummary item.event ≠ [] := by
    rw [hjoined.cleanSummary]
    simp [hjoined.ne_nil, maxSummaryLen]
  rw [← hjoined.cleanSummary]
  exact memoryStep_isOk_iff.trans
    (captureMemory_isOk_iff hsource hsummary)

/-- A tick around noon on a fresh loop. -/
def noonTick (situation : Str) : MemoryTick where
  now := 1
  day := str "2026-01-01"
  hour := 12
  petName := str "Shiro"
  situation := situation
  report := ⟨.engaged, 0, 0, false, 0, none, 0, 0, false⟩
  affect := {}
  clock := ⟨1, fun _ => 1, 1, 1, 1, 1⟩
  savedAffect := []
  lastInteraction := 1
  savedBody := none

/-- A lone surrogate in a direct message. -/
def surrogateMessage : Str := str "hi " ++ [0xd800]

def surrogateInput : HostInput :=
  directMessageInput surrogateMessage (str "direct-1")

theorem submit_surrogate : (Submission.directMessage surrogateMessage).submit {} =
    .ok (surrogateInput, { items := [surrogateInput], nextId := 2 }) := by
  decide +kernel

theorem memoryStep_completes_iff_surrogate :
    (memoryStep (.stable fun _ => 1) {} {} (.ofInput surrogateInput)
        (noonTick surrogateInput.event)).isOk = true ↔
      ({} : Database).store.writesEnabled = false ∨
        (surrogateInput.event.take maxSummaryLen).any isSurrogate = false :=
  memoryStep_completes_iff (.stable fun _ => 1) {} {} (noonTick surrogateInput.event)
    (.directMessage surrogateMessage) submit_surrogate

/-- The message is accepted, and its tick raises. -/
theorem not_memoryStep_always_completes :
    ¬ ∀ (e : Engine) (d : Database) (state : SurpriseState) (i : MemoryTick)
      (submission : Submission) (q after : HostInputQueue) (item : HostInput),
      submission.submit q = .ok (item, after) →
      (memoryStep e d state (LoopEvent.ofInput item) i).isOk = true := by
  intro h
  have hraises : (memoryStep (.stable fun _ => 1) {} {} (.ofInput surrogateInput)
      (noonTick surrogateInput.event)).isOk = false := by
    decide +kernel
  have hcompletes := h (.stable fun _ => 1) {} {} (noonTick surrogateInput.event)
    (.directMessage surrogateMessage) {} _ _ submit_surrogate
  rw [hraises] at hcompletes
  contradiction

end Hologotchi.PetLoop
