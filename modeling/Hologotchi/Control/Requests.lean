import Hologotchi.Control.Submissions

/-! Every request is answered once, and changes what it asks for or nothing. -/
namespace Hologotchi.Control

open Python Library Library.Raising Library.Fallible Inputs Presence Memory

variable {payload : Fields} {now : ℚ} {s t : Server} {response : Response} {e : Raised}

theorem handlePresence_disabled (h : s.mailbox = none) : handlePresence payload now s =
    .error (.featureDisabled (str "presence signals are not enabled")) s := by
  simp only [handlePresence, bind_get, h]
  rfl

theorem handlePresence_enabled {mailbox : SignalMailbox} (h : s.mailbox = some mailbox) :
    handlePresence payload now s = match presencePost payload now with
      | .error e => .error e s
      | .ok p => .ok { status := .accepted, payload := [(str "ok", .bool true)] }
          (Effect.apply s (.post p)) := by
  simp only [handlePresence, bind_get, h, bind_check, bind_set]
  cases hpost : presencePost payload now with
  | error e => rfl
  | ok p =>
    simp only [Effect.apply, h, Option.map_some, Option.any_some]
    cases hchanged : (mailbox.post p).2 with
    | true => rfl
    | false => rfl

theorem requireMemory_none (h : s.memory = none) :
    requireMemory s = .error (.featureDisabled (str "memory is not enabled")) s := by
  simp only [requireMemory, bind_get, h]
  rfl

theorem requireMemory_some {memory : Database} (h : s.memory = some memory) :
    requireMemory s = .ok memory s := by
  simp only [requireMemory, bind_get, h]
  rfl

/-- An answer that does what was asked for or nothing, and raises past `do_POST` for numbers that
are too large alone. -/
structure Endpoint.Sound (endpoint : Endpoint) (payload : Fields) (now : ℚ)
    (h : Handler Response) : Prop where
  effect : ∀ s response t, h s = .ok response t → response.status.Succeeds ∧
    ∃ effect, endpoint.asksFor payload now = some effect ∧ t = effect.apply s
  atomic : Atomic h
  escapes : ∀ s, Raises Raised.Escapes h s ↔ endpoint.Oversized s payload

theorem sound_accepted {endpoint : Endpoint} {h : Handler HostInput}
    (heffect : ∀ s item t, h s = .ok item t →
      ∃ effect, endpoint.asksFor payload now = some effect ∧ t = effect.apply s)
    (hatomic : Atomic h)
    (hescapes : ∀ s, Raises Raised.Escapes h s ↔ endpoint.Oversized s payload) :
    endpoint.Sound payload now (do pure (accepted (← h))) where
  effect s response t hok := by
    obtain ⟨item, u, hitem, hpure⟩ := bind_ok_iff.mp hok
    cases hpure
    exact ⟨trivial, heffect s item _ hitem⟩
  atomic := hatomic.before fun item s e t herror => by cases herror
  escapes s := by
    rw [raises_bind, hescapes]
    apply or_iff_left
    rintro ⟨item, t, -, e, u, herror, -⟩
    cases herror

theorem sound_text {endpoint : Endpoint} {label : String} {make : Str → Str → HostInput}
    {item : HostInputQueue → Str → Except SubmitError (HostInput × HostInputQueue)}
    (hasks : endpoint.asksFor payload now = (textOf (Json.get payload "text")).map fun text =>
      .submit label (make (joinWords text)))
    (hitem : ∀ q text new u, item q text = .ok (new, u) →
      u = (q.put label (make (joinWords text))).2)
    (hoverflow : ∀ q text, item q text ≠ .error .overflow)
    (hnever : ∀ s, ¬ endpoint.Oversized s payload) :
    endpoint.Sound payload now (do pure (accepted (← submitMessage payload item))) := by
  refine sound_accepted ?_ atomic_submitMessage ?_
  · intro s new t hok
    obtain ⟨text, queue, htext, hqueue, rfl⟩ := submitMessage_ok hok
    refine ⟨.submit label (make (joinWords text)), ?_, ?_⟩
    · simp only [hasks, htext, Option.map_some]
    · rw [hitem _ _ _ _ hqueue]
      rfl
  · exact fun s => iff_of_false (raises_submitMessage hoverflow) (hnever s)

theorem sound_result {endpoint : Endpoint} {kind : ResultKind}
    (hasks : endpoint.asksFor payload now = (boolOf (Json.get payload "ok")).map fun ok =>
      .submit (kind.name ++ "-")
        (resultInput kind ok ((textOf (Json.get payload "text")).map joinWords)))
    (hnever : ∀ s, ¬ endpoint.Oversized s payload) :
    endpoint.Sound payload now (do pure (accepted (← submitResult payload kind))) := by
  refine sound_accepted ?_ atomic_submitResult ?_
  · intro s new t hok
    obtain ⟨ok, hfield, ht⟩ := submitResult_ok hok
    refine ⟨_, ?_, ht⟩
    simp only [hasks, hfield, Option.map_some]
  · exact fun s => iff_of_false raises_submitResult (hnever s)

theorem sound_touch :
    Endpoint.touch.Sound payload now (do pure (accepted (← submitTouch payload))) := by
  refine sound_accepted ?_ atomic_submitTouch fun s => raises_submitTouch
  intro s new t hok
  obtain ⟨gesture, hfield, ht⟩ := submitTouch_ok hok
  refine ⟨_, ?_, ht⟩
  simp only [Endpoint.asksFor, hfield, Option.map_some]

theorem sound_presence : Endpoint.presence.Sound payload now (handlePresence payload now) where
  effect s response t hok := by
    cases hmailbox : s.mailbox with
    | none =>
      rw [handlePresence_disabled hmailbox] at hok
      cases hok
    | some mailbox =>
      rw [handlePresence_enabled hmailbox] at hok
      split at hok
      · cases hok
      · rename_i p hpost
        cases hok
        exact ⟨trivial, _, presencePost_ok hpost, rfl⟩
  atomic s e t herror := by
    cases hmailbox : s.mailbox with
    | none =>
      rw [handlePresence_disabled hmailbox] at herror
      cases herror
      rfl
    | some mailbox =>
      rw [handlePresence_enabled hmailbox] at herror
      split at herror
      · cases herror
        rfl
      · cases herror
  escapes s := by
    simp only [Endpoint.Oversized, ← fails_presencePost now]
    cases hmailbox : s.mailbox with
    | none =>
      simp [Raises, handlePresence_disabled hmailbox, Raised.Escapes]
    | some mailbox =>
      simp only [Raises, handlePresence_enabled hmailbox, Fails]
      cases presencePost payload now with
      | error e => simp
      | ok p => simp

/-- What a handler does with the memory it required. -/
theorem sound_memory {endpoint : Endpoint} {f : Database → Handler Response}
    (heffect : ∀ s memory response t, s.memory = some memory → f memory s = .ok response t →
      response.status.Succeeds ∧
        ∃ effect, endpoint.asksFor payload now = some effect ∧ t = effect.apply s)
    (hatomic : ∀ memory, Atomic (f memory))
    (hescapes : ∀ s memory, s.memory = some memory →
      (Raises Raised.Escapes (f memory) s ↔ endpoint.Oversized s payload))
    (hdisabled : ∀ s, s.memory = none → ¬ endpoint.Oversized s payload) :
    endpoint.Sound payload now (requireMemory >>= f) where
  effect s response t hok := by
    cases hmemory : s.memory with
    | none =>
      rw [bind_of_error (requireMemory_none hmemory)] at hok
      cases hok
    | some memory =>
      rw [bind_of_ok (requireMemory_some hmemory)] at hok
      exact heffect s memory response t hmemory hok
  atomic s e t herror := by
    cases hmemory : s.memory with
    | none =>
      rw [bind_of_error (requireMemory_none hmemory)] at herror
      cases herror
      rfl
    | some memory =>
      rw [bind_of_ok (requireMemory_some hmemory)] at herror
      exact hatomic memory s e t herror
  escapes s := by
    cases hmemory : s.memory with
    | none =>
      refine iff_of_false ?_ (hdisabled s hmemory)
      rintro ⟨e, t, herror, hescapes⟩
      rw [bind_of_error (requireMemory_none hmemory)] at herror
      cases herror
      exact hescapes
    | some memory =>
      rw [← hescapes s memory hmemory]
      simp only [Raises, bind_of_ok (requireMemory_some hmemory)]

theorem remove_eq {memory : Database} {deleted : Except Memory.Error (ℕ × Store)} :
    remove memory deleted s = match deleted with
      | .error e => .error (memoryError e) s
      | .ok (removed, store) =>
        .ok {
          status := .ok
          payload := [(str "ok", .bool true), (str "removed", .int removed)] }
          { s with memory := some { memory with store } } := by
  cases deleted with
  | error e => rfl
  | ok removed => rfl

theorem remove_ok {memory : Database} {deleted : Except Memory.Error (ℕ × Store)}
    (h : remove memory deleted s = .ok response t) : response.status.Succeeds ∧
      ∃ removed store, deleted = .ok (removed, store) ∧
        t = { s with memory := some { memory with store } } := by
  rw [remove_eq] at h
  split at h
  · cases h
  · cases h
    exact ⟨trivial, _, _, rfl, rfl⟩

theorem atomic_remove {memory : Database} {deleted : Except Memory.Error (ℕ × Store)} :
    Atomic (remove memory deleted) := by
  intro s e t h
  rw [remove_eq] at h
  split at h
  · cases h
    rfl
  · cases h

theorem raises_remove {memory : Database} {deleted : Except Memory.Error (ℕ × Store)} :
    Raises Raised.Escapes (remove memory deleted) s ↔
      Fails (fun e => (memoryError e).Escapes) deleted := by
  simp only [Raises, remove_eq, Fails]
  cases deleted with
  | error e => simp
  | ok removed => simp

theorem fails_bindText {text : Str} :
    ¬ Fails (fun e => (memoryError e).Escapes) (bindText text) := by
  simp only [bindText]
  split
  · exact fails_error.not.mpr id
  · exact fails_ok

theorem fails_forget {store : Store} {memoryId : ℤ} :
    Fails (fun e => (memoryError e).Escapes) (store.forget memoryId) ↔
      ¬ (-2 ^ 63 ≤ memoryId ∧ memoryId < 2 ^ 63) := by
  simp only [Store.forget, fails_bind, fails_ok, and_false, exists_false, or_false, bindInt]
  split
  · rename_i hfits
    exact iff_of_false fails_ok (not_not_intro hfits)
  · rename_i hlarge
    exact iff_of_true (fails_error.mpr trivial) hlarge

theorem fails_usableToken {tag : Str} :
    ¬ Fails (fun e => (memoryError e).Escapes) (usableToken tag) := by
  simp only [usableToken]
  split
  · exact fails_error.not.mpr id
  · exact fails_ok

theorem fails_condition {f : ForgetFilter} :
    ¬ Fails (fun e => (memoryError e).Escapes) f.condition := by
  rw [ForgetFilter.condition, fails_bind]
  rintro (hfails | ⟨token, -, hfails⟩)
  · cases htag : f.tag with
    | none => exact fails_ok (htag ▸ hfails)
    | some tag =>
      rw [htag] at hfails
      rcases fails_bind.mp hfails with hfails | ⟨token, -, hfails⟩
      · exact fails_usableToken hfails
      · exact fails_ok hfails
  · split at hfails
    · exact fails_error.mp hfails
    · rcases fails_bind.mp hfails with hfails | ⟨-, -, hfails⟩
      · cases hsource : f.source with
        | none => exact fails_ok (hsource ▸ hfails)
        | some source => exact fails_bindText (hsource ▸ hfails)
      · exact fails_ok hfails

theorem fails_forgetBy {store : Store} {f : ForgetFilter} :
    ¬ Fails (fun e => (memoryError e).Escapes) (store.forgetBy f) := by
  rw [Store.forgetBy, fails_bind]
  rintro (hfails | ⟨hit, -, hfails⟩)
  · exact fails_condition hfails
  · exact fails_ok hfails

theorem onMemory_eq {memory : Database} (h : s.memory = some memory)
    (change : Database → Database) :
    s.onMemory change = { s with memory := some (change memory) } := by
  simp [Server.onMemory, h]

theorem sound_memoryForget :
    Endpoint.memoryForget.Sound payload now (handleMemoryForget payload) := by
  refine sound_memory ?_ ?_ ?_ ?_
  · intro s memory response t hmemory hok
    cases hid : Json.get payload "id" with
    | null =>
      simp only [hid] at hok
      obtain ⟨filter, u, hchecked, hok⟩ := bind_ok_iff.mp hok
      obtain ⟨hfilter, rfl⟩ := check_ok_iff.mp hchecked
      obtain ⟨hstatus, removed, store, hstore, rfl⟩ := remove_ok hok
      refine ⟨hstatus, .forgetBy filter, ?_, ?_⟩
      · simp only [Endpoint.asksFor, hid, forgetFilter_ok hfilter]
      · simp [Effect.apply, onMemory_eq hmemory, Database.mapStore, hstore, Except.toOption]
    | int memoryId =>
      simp only [hid] at hok
      obtain ⟨hstatus, removed, store, hstore, rfl⟩ := remove_ok hok
      refine ⟨hstatus, .forget memoryId, ?_, ?_⟩
      · simp only [Endpoint.asksFor, hid]
      · simp [Effect.apply, onMemory_eq hmemory, Database.mapStore, hstore, Except.toOption]
    | bool | float | str | arr | obj =>
      simp only [hid] at hok
      cases hok
  · intro memory
    cases Json.get payload "id" with
    | null => exact .after_check fun _ => atomic_remove
    | int memoryId => exact atomic_remove
    | bool | float | str | arr | obj => exact atomic_throw
  · intro s memory hmemory
    simp only [Endpoint.Oversized, hmemory]
    cases Json.get payload "id" with
    | null =>
      simp only [raises_bind, raises_check, raises_remove, fails_forgetBy, and_false, exists_false,
        or_false, fails_forgetFilter]
      simp
    | int memoryId => simp [raises_remove, fails_forget]
    | bool | float | str | arr | obj => simp [raises_throw, Raised.Escapes, valueError]
  · intro s hmemory
    simp [Endpoint.Oversized, hmemory]

theorem sound_memoryReset : Endpoint.memoryReset.Sound payload now handleMemoryReset := by
  refine sound_memory ?_ ?_ ?_ ?_
  · rintro s memory response t hmemory ⟨⟩
    refine ⟨trivial, .reset, rfl, ?_⟩
    simp [Effect.apply, onMemory_eq hmemory]
  · rintro memory s e t ⟨⟩
  · intro s memory hmemory
    refine iff_of_false ?_ id
    rintro ⟨e, t, herror, -⟩
    cases herror
  · exact fun s hmemory => id

theorem sound_memoryWrites :
    Endpoint.memoryWrites.Sound payload now (handleMemoryWrites payload) := by
  refine sound_memory ?_ ?_ ?_ ?_
  · intro s memory response t hmemory hok
    cases henabled : Json.get payload "enabled" with
    | bool enabled =>
      simp only [henabled] at hok
      cases hok
      refine ⟨trivial, .setWritesEnabled enabled, ?_, ?_⟩
      · simp [Endpoint.asksFor, henabled, boolOf]
      · simp [Effect.apply, onMemory_eq hmemory]
    | null | int | float | str | arr | obj =>
      simp only [henabled] at hok
      cases hok
  · intro memory
    cases Json.get payload "enabled" with
    | bool enabled => rintro s e t ⟨⟩
    | null | int | float | str | arr | obj => exact atomic_throw
  · intro s memory hmemory
    refine iff_of_false ?_ id
    rintro ⟨e, t, herror, hescapes⟩
    cases henabled : Json.get payload "enabled" with
    | bool enabled =>
      simp only [henabled] at herror
      cases herror
    | null | int | float | str | arr | obj =>
      simp only [henabled] at herror
      cases herror
      exact hescapes
  · exact fun s hmemory => id

theorem sound_handle (endpoint : Endpoint) (payload : Fields) (now : ℚ) :
    endpoint.Sound payload now (handle endpoint payload now) := by
  cases endpoint with
  | message =>
    exact sound_text rfl (fun _ _ _ _ => put_cleaned_ok) (fun _ _ => put_cleaned_ne_overflow)
      fun _ => id
  | build => exact sound_result rfl fun _ => id
  | test => exact sound_result rfl fun _ => id
  | alert =>
    exact sound_text rfl (fun _ _ _ _ => put_cleaned_ok) (fun _ _ => put_cleaned_ne_overflow)
      fun _ => id
  | touch => exact sound_touch
  | presence => exact sound_presence
  | memoryForget => exact sound_memoryForget
  | memoryReset => exact sound_memoryReset
  | memoryWrites => exact sound_memoryWrites

/-- A body that `json.loads` leaves with something other than a `JSONDecodeError`. -/
theorem fails_readJsonBody {r : Request} {required : Bool} :
    Fails Raised.Escapes (readJsonBody r required) ↔ readJsonBody r required = .error .other := by
  constructor
  · rintro ⟨e, herror, hescapes⟩
    cases e with
    | other => exact herror
    | featureDisabled | inputError | valueError => exact hescapes.elim
    | overflowError =>
      simp only [readJsonBody] at herror
      repeat' split at herror
      all_goals cases herror
  · exact fun herror => ⟨.other, herror, trivial⟩

/-- One response and no exception: after a success the one effect asked for, else none. -/
def AnsweredOnce (s : Server) (r : Request) (now : ℚ) : Prop :=
  ∃ response, (doPost s r now).sent = [response] ∧ (doPost s r now).escaped.isNone = true ∧
    ((response.status.Succeeds ∧ ∃ endpoint payload effect,
        Endpoint.ofPath r.path = some endpoint ∧
        readJsonBody r (endpoint ≠ .memoryReset) = .ok payload ∧
        endpoint.asksFor payload now = some effect ∧ (doPost s r now).server = effect.apply s) ∨
      (¬ response.status.Succeeds ∧ (doPost s r now).server = s))

/-- A body that breaks `json.loads` otherwise than by its syntax, or a number too large. -/
def Unanswered (s : Server) (r : Request) : Prop :=
  ∃ endpoint, Endpoint.ofPath r.path = some endpoint ∧
    (readJsonBody r (endpoint ≠ .memoryReset) = .error .other ∨
      ∃ payload, readJsonBody r (endpoint ≠ .memoryReset) = .ok payload ∧
        endpoint.Oversized s payload)

variable {r : Request} {endpoint : Endpoint}

theorem raises_answer : Raises Raised.Escapes (answer r endpoint now) s ↔
    readJsonBody r (endpoint ≠ .memoryReset) = .error .other ∨
      ∃ payload, readJsonBody r (endpoint ≠ .memoryReset) = .ok payload ∧
        endpoint.Oversized s payload := by
  rw [answer, raises_bind, raises_check, fails_readJsonBody]
  apply or_congr_right
  constructor
  · rintro ⟨payload, t, hchecked, hraises⟩
    obtain ⟨hpayload, rfl⟩ := check_ok_iff.mp hchecked
    exact ⟨payload, hpayload, ((sound_handle endpoint payload now).escapes s).mp hraises⟩
  · rintro ⟨payload, hpayload, hlarge⟩
    exact ⟨payload, s, check_ok_iff.mpr ⟨hpayload, rfl⟩,
      ((sound_handle endpoint payload now).escapes s).mpr hlarge⟩

theorem atomic_answer : Atomic (answer r endpoint now) :=
  .after_check fun payload => (sound_handle endpoint payload now).atomic

theorem answer_ok (h : answer r endpoint now s = .ok response t) : response.status.Succeeds ∧
    ∃ payload effect, readJsonBody r (endpoint ≠ .memoryReset) = .ok payload ∧
      endpoint.asksFor payload now = some effect ∧ t = effect.apply s := by
  obtain ⟨payload, u, hchecked, hok⟩ := bind_ok_iff.mp h
  obtain ⟨hpayload, rfl⟩ := check_ok_iff.mp hchecked
  obtain ⟨hstatus, effect, heffect, rfl⟩ := (sound_handle endpoint payload now).effect _ _ _ hok
  exact ⟨hstatus, payload, effect, hpayload, heffect, rfl⟩

theorem doPost_notFound (h : Endpoint.ofPath r.path = none) :
    doPost s r now = ⟨s, [errorResponse .notFound (str "not found")], none⟩ := by
  simp only [doPost, h]

theorem doPost_ok (hpath : Endpoint.ofPath r.path = some endpoint)
    (h : answer r endpoint now s = .ok response t) : doPost s r now = ⟨t, [response], none⟩ := by
  simp only [doPost, hpath, h]

theorem doPost_escapes (hpath : Endpoint.ofPath r.path = some endpoint)
    (h : answer r endpoint now s = .error e t) (hescapes : e.Escapes) :
    doPost s r now = ⟨t, [], some e⟩ := by
  simp only [doPost, hpath, h]
  cases e with
  | overflowError | other => rfl
  | featureDisabled | inputError | valueError => exact hescapes.elim

theorem doPost_caught (hpath : Endpoint.ofPath r.path = some endpoint)
    (h : answer r endpoint now s = .error e t) (hcaught : ¬ e.Escapes) :
    ∃ status text, ¬ Status.Succeeds status ∧
      doPost s r now = ⟨t, [errorResponse status text], none⟩ := by
  simp only [doPost, hpath, h]
  cases e with
  | featureDisabled text => exact ⟨.serviceUnavailable, text, id, rfl⟩
  | inputError text => exact ⟨.badRequest, text, id, rfl⟩
  | valueError text => exact ⟨.badRequest, text, id, rfl⟩
  | overflowError | other => exact absurd trivial hcaught

/-- A request that is left without an answer has changed nothing. -/
theorem unanswered_unchanged (h : Unanswered s r) :
    (doPost s r now).sent = [] ∧ (doPost s r now).server = s := by
  obtain ⟨endpoint, hpath, hrest⟩ := h
  have hraises : Raises Raised.Escapes (answer r endpoint now) s := raises_answer.mpr hrest
  obtain ⟨e, t, hanswer, hescapes⟩ := hraises
  obtain rfl := atomic_answer _ _ _ hanswer
  rw [doPost_escapes hpath hanswer hescapes]
  exact ⟨rfl, rfl⟩

/-- `do_POST` answers a request once, with the effect asked for or with none, unless a number in
it is too large for a `float` or for SQLite. -/
theorem post_answered_once_iff (s : Server) (r : Request) (now : ℚ) :
    AnsweredOnce s r now ↔ ¬ Unanswered s r := by
  cases hpath : Endpoint.ofPath r.path with
  | none =>
    refine iff_of_true ?_ ?_
    · simp only [AnsweredOnce, doPost_notFound hpath]
      exact ⟨_, rfl, rfl, .inr ⟨id, trivial⟩⟩
    · rintro ⟨endpoint, hsome, -⟩
      cases hpath.symm.trans hsome
  | some endpoint =>
    have hraises : Unanswered s r ↔ Raises Raised.Escapes (answer r endpoint now) s := by
      simp only [Unanswered, hpath, Option.some.injEq, exists_eq_left', raises_answer]
    rw [hraises]
    cases hanswer : answer r endpoint now s with
    | ok response t =>
      refine iff_of_true ?_ ?_
      · obtain ⟨hstatus, payload, effect, hpayload, heffect, rfl⟩ := answer_ok hanswer
        simp only [AnsweredOnce, doPost_ok hpath hanswer]
        exact ⟨response, rfl, rfl,
          .inl ⟨hstatus, endpoint, payload, effect, hpath, hpayload, heffect, rfl⟩⟩
      · rintro ⟨e, t, herror, -⟩
        cases hanswer.symm.trans herror
    | error e t =>
      by_cases hescapes : e.Escapes
      · refine iff_of_false ?_ (not_not_intro ⟨e, t, hanswer, hescapes⟩)
        simp only [AnsweredOnce, doPost_escapes hpath hanswer hescapes]
        rintro ⟨response, hsent, -⟩
        cases hsent
      · refine iff_of_true ?_ ?_
        · obtain rfl := atomic_answer _ _ _ hanswer
          obtain ⟨status, text, hstatus, hpost⟩ := doPost_caught hpath hanswer hescapes
          simp only [AnsweredOnce, hpost]
          exact ⟨_, rfl, rfl, .inr ⟨hstatus, trivial⟩⟩
        · rintro ⟨e', u, herror, hescapes'⟩
          cases hanswer.symm.trans herror
          exact hescapes hescapes'

/-- The body `{"gesture":"tap","duration_ms":1000...0}`, with an integer no `float` is near. -/
def oversizedTap : Request where
  path := str "/touch"
  contentLength := some (str "433")
  body := .text (.ok (.obj [
    (str "gesture", .str (str "tap")), (str "duration_ms", .int (10 ^ 400))]))

theorem oversized_touch_unanswered : ¬ AnsweredOnce {} oversizedTap 0 := by
  rintro ⟨response, hsent, -⟩
  have hnone : (doPost {} oversizedTap 0).sent.length = 0 := by decide +kernel
  rw [hsent] at hnone
  cases hnone

end Hologotchi.Control
