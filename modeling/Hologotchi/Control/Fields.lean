import Hologotchi.Control.Server
import Hologotchi.Library.Fallible

/-! What a payload asks for, and which of its numbers are too large for the handlers. -/
namespace Hologotchi.Control

open Python Library Library.Raising Library.Fallible Inputs Presence Memory

def textOf : Json → Option Str
  | .str text => some text
  | _ => none

def boolOf : Json → Option Bool
  | .bool b => some b
  | _ => none

def numberOf : Json → Option Double
  | .int n => some (Double.ofInt n)
  | .float x => some x
  | _ => none

/-- The words of a text field, if it has any. -/
def wordsOf (payload : Fields) (field : String) : Option Str :=
  ((textOf (Json.get payload field)).map joinWords).filter (· ≠ [])

def durationOf : Json → Option ℤ
  | .int n => some (min n touchDurationMaxMs)
  | .float (.finite x) => some (min x.floor touchDurationMaxMs)
  | _ => none

def ttlOf (payload : Fields) : Option Double :=
  (numberOf (Json.get payload "ttl_seconds")).map (minDouble · maxTtlSeconds)

def signalsOf (payload : Fields) : PresenceSignals where
  idleSeconds := numberOf (Json.get payload "idle_seconds")
  screenLocked := boolOf (Json.get payload "screen_locked")
  foregroundApp := (wordsOf payload "foreground_app").map (·.take foregroundAppMaxLen)

inductive Effect
  /-- Put one item on the queue, with the next id. -/
  | submit (label : String) (item : Str → HostInput)
  /-- Post to the mailbox, and wake the loop when the coarse presence changed. -/
  | post (p : Post)
  | forget (memoryId : ℤ)
  | forgetBy (filter : ForgetFilter)
  | reset
  | setWritesEnabled (enabled : Bool)

def Server.onMemory (s : Server) (change : Database → Database) : Server :=
  { s with memory := s.memory.map change }

def Effect.apply (s : Server) : Effect → Server
  | .submit label item => { s with queue := (s.queue.put label item).2 }
  | .post p =>
    { s with
      mailbox := s.mailbox.map fun mailbox => (mailbox.post p).1
      queue := if s.mailbox.any fun mailbox => (mailbox.post p).2 then s.queue.submitPresenceSignal
        else s.queue }
  | .forget memoryId =>
    s.onMemory (·.mapStore fun store => (store.forget memoryId).toOption.elim store (·.2))
  | .forgetBy filter =>
    s.onMemory (·.mapStore fun store => (store.forgetBy filter).toOption.elim store (·.2))
  | .reset => s.onMemory (·.reset)
  | .setWritesEnabled enabled => s.onMemory (·.mapStore (·.setWritesEnabled enabled))

/-- What a payload asks for, whether or not its values are admitted. -/
def Endpoint.asksFor (payload : Fields) (now : ℚ) : Endpoint → Option Effect
  | .message => (textOf (Json.get payload "text")).map fun text =>
    .submit "direct-" (directMessageInput (joinWords text))
  | .build => (boolOf (Json.get payload "ok")).map fun ok =>
    .submit "build-" (resultInput .build ok ((textOf (Json.get payload "text")).map joinWords))
  | .test => (boolOf (Json.get payload "ok")).map fun ok =>
    .submit "test-" (resultInput .test ok ((textOf (Json.get payload "text")).map joinWords))
  | .alert => (textOf (Json.get payload "text")).map fun text =>
    .submit "alert-" (alertInput (joinWords text))
  | .touch => (textOf (Json.get payload "gesture")).map fun gesture =>
    .submit "touch-"
      (touchInput (lower (strip gesture)) (durationOf (Json.get payload "duration_ms")))
  | .presence =>
    match payload.lookup (str "present") with
    | some (.bool present) => (wordsOf payload "source").map fun source =>
      .post (.presence (source.take presenceSourceMaxLen) present
        ((ttlOf payload).getD defaultPresenceTtlSeconds) now)
    | some _ => none
    | none => some (.post (.activity (signalsOf payload) (ttlOf payload) now))
  | .memoryForget =>
    match Json.get payload "id" with
    | .int memoryId => some (.forget memoryId)
    | _ => some (.forgetBy {
        tag := wordsOf payload "tag"
        source := wordsOf payload "source"
        before := numberOf (Json.get payload "before")
        after := numberOf (Json.get payload "after") })
  | .memoryReset => some .reset
  | .memoryWrites => (boolOf (Json.get payload "enabled")).map .setWritesEnabled

def Status.Succeeds : Status → Prop
  | .ok | .accepted => True
  | .badRequest | .notFound | .serviceUnavailable => False

/-- The exceptions `do_POST` does not catch. -/
def Raised.Escapes : Raised → Prop
  | .overflowError | .other => True
  | _ => False

/-- An integer that no `float` is near. -/
def TooLarge : Json → Prop
  | .int n => fitsFloat n = false
  | _ => False

/-- A number that a handler converts, or binds, is too large for that. -/
def Endpoint.Oversized (s : Server) (payload : Fields) : Endpoint → Prop
  | .touch =>
    (∃ gesture, Json.get payload "gesture" = .str gesture ∧
        lower (strip gesture) ∈ touchGestures) ∧
      TooLarge (Json.get payload "duration_ms")
  | .presence => s.mailbox.isSome = true ∧
    ((∃ present, payload.lookup (str "present") = some (.bool present) ∧
        wordsOf payload "source" ≠ none ∧ TooLarge (Json.get payload "ttl_seconds")) ∨
      (payload.lookup (str "present") = none ∧
        (TooLarge (Json.get payload "idle_seconds") ∨
          (parsePresenceSignals payload).isOk = true ∧
            TooLarge (Json.get payload "ttl_seconds"))))
  | .memoryForget => s.memory.isSome = true ∧
    ((∃ memoryId, Json.get payload "id" = .int memoryId ∧
        ¬ (-2 ^ 63 ≤ memoryId ∧ memoryId < 2 ^ 63)) ∨
      (Json.get payload "id" = .null ∧ (optionalStr payload "tag").isOk = true ∧
        (optionalStr payload "source").isOk = true ∧
        (TooLarge (Json.get payload "before") ∨
          (optionalNumber payload "before").isOk = true ∧ TooLarge (Json.get payload "after"))))
  | _ => False

variable {payload : Fields} {field : String} {now : ℚ} {s t : Server} {response : Response}
  {e : Raised}

theorem optionalStr_ok {value : Option Str} (h : optionalStr payload field = .ok value) :
    value = wordsOf payload field := by
  simp only [optionalStr] at h
  cases hfield : Json.get payload field with
  | null =>
    simp only [hfield, Except.ok.injEq] at h
    subst h
    simp [wordsOf, hfield, textOf]
  | str text =>
    simp only [hfield, Except.ok.injEq] at h
    subst h
    by_cases hblank : joinWords text = []
    · simp [wordsOf, hfield, textOf, hblank, Option.filter]
    · simp [wordsOf, hfield, textOf, hblank, Option.filter]
  | bool | int | float | arr | obj => simp [hfield] at h

theorem optionalStr_some {words : Str} (h : wordsOf payload field = some words) :
    optionalStr payload field = .ok (some words) := by
  simp only [wordsOf, Option.filter_eq_some_iff, Option.map_eq_some_iff] at h
  obtain ⟨⟨text, htext, rfl⟩, hblank⟩ := h
  have hfield : Json.get payload field = .str text := by
    cases hfield : Json.get payload field <;> simp_all [textOf]
  simpa [optionalStr, hfield] using hblank

theorem fails_optionalStr : ¬ Fails Raised.Escapes (optionalStr payload field) := by
  rintro ⟨e, herror, hescapes⟩
  simp only [optionalStr] at herror
  split at herror
  · cases herror
  · cases herror
  · cases herror
    exact hescapes

theorem optionalNumber_ok {value : Option Double} (h : optionalNumber payload field = .ok value) :
    value = numberOf (Json.get payload field) := by
  simp only [optionalNumber] at h
  cases hfield : Json.get payload field with
  | null => simp_all [numberOf]
  | int n =>
    simp only [hfield] at h
    split at h
    · simp_all [numberOf]
    · cases h
  | float x => simp_all [numberOf]
  | bool | str | arr | obj => simp [hfield] at h

theorem fails_optionalNumber :
    Fails Raised.Escapes (optionalNumber payload field) ↔ TooLarge (Json.get payload field) := by
  simp only [optionalNumber]
  cases hfield : Json.get payload field with
  | null => simp [TooLarge, fails_ok]
  | int n =>
    cases hfits : fitsFloat n with
    | false => simp [TooLarge, fails_error, Raised.Escapes, hfits]
    | true => simp [TooLarge, fails_ok, hfits]
  | float x => simp [TooLarge, fails_ok]
  | bool | str | arr | obj => simp [TooLarge, fails_error, Raised.Escapes, valueError]

theorem optionalBool_ok {value : Option Bool} (h : optionalBool payload field = .ok value) :
    value = boolOf (Json.get payload field) := by
  simp only [optionalBool] at h
  cases hfield : Json.get payload field <;> simp_all [boolOf]

theorem fails_optionalBool : ¬ Fails Raised.Escapes (optionalBool payload field) := by
  rintro ⟨e, herror, hescapes⟩
  simp only [optionalBool] at herror
  split at herror
  · cases herror
  · cases herror
  · cases herror
    exact hescapes

theorem presenceTtl_ok {ttl : Option Double} (h : presenceTtl payload = .ok ttl) :
    ttl = ttlOf payload := by
  obtain ⟨value, hvalue, h⟩ := bind_eq_ok.mp h
  rw [ttlOf, ← optionalNumber_ok hvalue]
  cases value with
  | none => simpa using h.symm
  | some x =>
    obtain ⟨-, h⟩ := of_ite_error h
    simpa using h.symm

theorem fails_presenceTtl :
    Fails Raised.Escapes (presenceTtl payload) ↔ TooLarge (Json.get payload "ttl_seconds") := by
  rw [presenceTtl, fails_bind, fails_optionalNumber]
  apply or_iff_left
  rintro ⟨value, -, hfails⟩
  cases value with
  | none => exact fails_ok hfails
  | some x =>
    simp only at hfails
    split at hfails
    · exact fails_error.mp hfails
    · exact fails_ok hfails

theorem parsePresenceSignals_ok {signals : PresenceSignals}
    (h : parsePresenceSignals payload = .ok signals) : signals = signalsOf payload := by
  obtain ⟨idle, hidle, h⟩ := bind_eq_ok.mp h
  obtain ⟨-, h⟩ := of_ite_error h
  obtain ⟨locked, hlocked, h⟩ := bind_eq_ok.mp h
  obtain ⟨app, happ, h⟩ := bind_eq_ok.mp h
  rw [optionalNumber_ok hidle, optionalBool_ok hlocked, optionalStr_ok happ] at h
  cases h
  rfl

theorem fails_parsePresenceSignals : Fails Raised.Escapes (parsePresenceSignals payload) ↔
    TooLarge (Json.get payload "idle_seconds") := by
  rw [parsePresenceSignals, fails_bind, fails_optionalNumber]
  apply or_iff_left
  rintro ⟨idle, -, hfails⟩
  split at hfails
  · exact fails_error.mp hfails
  · rcases fails_bind.mp hfails with hfails | ⟨locked, -, hfails⟩
    · exact fails_optionalBool hfails
    · rcases fails_bind.mp hfails with hfails | ⟨app, -, hfails⟩
      · exact fails_optionalStr hfails
      · exact fails_ok hfails

theorem presencePost_ok {p : Post} (h : presencePost payload now = .ok p) :
    Endpoint.presence.asksFor payload now = some (.post p) := by
  simp only [presencePost] at h
  cases hpresent : payload.lookup (str "present") with
  | none =>
    simp only [hpresent] at h
    obtain ⟨signals, hsignals, h⟩ := bind_eq_ok.mp h
    obtain ⟨ttl, httl, h⟩ := bind_eq_ok.mp h
    rw [parsePresenceSignals_ok hsignals, presenceTtl_ok httl] at h
    cases h
    simp [Endpoint.asksFor, hpresent]
  | some value =>
    cases value with
    | bool present =>
      simp only [hpresent] at h
      obtain ⟨source, hsource, h⟩ := bind_eq_ok.mp h
      cases source with
      | none => cases h
      | some source =>
        obtain ⟨ttl, httl, h⟩ := bind_eq_ok.mp h
        rw [presenceTtl_ok httl] at h
        cases h
        simp [Endpoint.asksFor, hpresent, ← optionalStr_ok hsource]
    | null | int | float | str | arr | obj => simp [hpresent] at h

theorem fails_presencePost (now : ℚ) : Fails Raised.Escapes (presencePost payload now) ↔
    (∃ present, payload.lookup (str "present") = some (.bool present) ∧
        wordsOf payload "source" ≠ none ∧ TooLarge (Json.get payload "ttl_seconds")) ∨
      (payload.lookup (str "present") = none ∧
        (TooLarge (Json.get payload "idle_seconds") ∨
          (parsePresenceSignals payload).isOk = true ∧
            TooLarge (Json.get payload "ttl_seconds"))) := by
  simp only [presencePost]
  cases hpresent : payload.lookup (str "present") with
  | none =>
    have hrest : (∃ signals, parsePresenceSignals payload = .ok signals ∧
        Fails Raised.Escapes
          (presenceTtl payload >>= fun ttl => .ok (Post.activity signals ttl now))) ↔
        (parsePresenceSignals payload).isOk = true ∧
          TooLarge (Json.get payload "ttl_seconds") := by
      simp only [fails_bind, fails_presenceTtl, fails_ok, and_false, exists_false, or_false,
        isOk_iff_exists, exists_and_right]
    rw [fails_bind, fails_parsePresenceSignals, hrest]
    simp
  | some value =>
    cases value with
    | bool present =>
      rw [fails_bind]
      constructor
      · rintro (hfails | ⟨source, hsource, hfails⟩)
        · exact absurd hfails fails_optionalStr
        · cases source with
          | none => exact (fails_error.mp hfails).elim
          | some source =>
            rcases fails_bind.mp hfails with hfails | ⟨ttl, -, hfails⟩
            · refine .inl ⟨present, rfl, ?_, fails_presenceTtl.mp hfails⟩
              simp [← optionalStr_ok hsource]
            · exact absurd hfails fails_ok
      · rintro (⟨present, -, hsource, hlarge⟩ | ⟨hnone, -⟩)
        · obtain ⟨words, hwords⟩ := Option.ne_none_iff_exists'.mp hsource
          exact .inr ⟨some words, optionalStr_some hwords,
            fails_bind.mpr (.inl (fails_presenceTtl.mpr hlarge))⟩
        · cases hnone
    | null | int | float | str | arr | obj => simp [fails_error, Raised.Escapes, valueError]

theorem forgetFilter_ok {f : ForgetFilter} (h : forgetFilter payload = .ok f) :
    f = {
      tag := wordsOf payload "tag"
      source := wordsOf payload "source"
      before := numberOf (Json.get payload "before")
      after := numberOf (Json.get payload "after") } := by
  obtain ⟨tag, htag, h⟩ := bind_eq_ok.mp h
  obtain ⟨source, hsource, h⟩ := bind_eq_ok.mp h
  obtain ⟨before, hbefore, h⟩ := bind_eq_ok.mp h
  obtain ⟨after, hafter, h⟩ := bind_eq_ok.mp h
  obtain ⟨-, h⟩ := of_ite_error h
  rw [optionalStr_ok htag, optionalStr_ok hsource, optionalNumber_ok hbefore,
    optionalNumber_ok hafter] at h
  cases h
  rfl

theorem fails_forgetFilter : Fails Raised.Escapes (forgetFilter payload) ↔
    (optionalStr payload "tag").isOk = true ∧ (optionalStr payload "source").isOk = true ∧
      (TooLarge (Json.get payload "before") ∨
        (optionalNumber payload "before").isOk = true ∧ TooLarge (Json.get payload "after")) := by
  have hlast : ∀ (b : Bool) (f : ForgetFilter), ¬ Fails Raised.Escapes
      (if b then .error (valueError "forget requires id, tag, source, before, or after")
        else .ok f) := by
    intro b f hfails
    split at hfails
    · exact fails_error.mp hfails
    · exact fails_ok hfails
  simp only [forgetFilter, fails_bind, fails_optionalStr, fails_optionalNumber, hlast, and_false,
    exists_false, or_false, false_or, exists_and_right, isOk_iff_exists]

end Hologotchi.Control
