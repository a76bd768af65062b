import Hologotchi.Control.Requests
import Hologotchi.Presence.Debouncer

/-! The presence helper (`run` and `post_presence` of `host/airpods_presence.py`) against the
control server. -/
namespace Hologotchi.Control

open Python Library Library.Fallible Library.Expiring Library.Streaks Inputs Presence

/-- The arguments `--source` and `--ttl-seconds`. -/
structure PosterConfig where
  source : Str := str "airpods"
  ttlSeconds : Double := .finite 30

/-- The JSON of `post_presence`. -/
def PosterConfig.payload (c : PosterConfig) (present : Bool) : Fields :=
  [(str "present", .bool present), (str "source", .str c.source),
    (str "ttl_seconds", .float c.ttlSeconds)]

/-- The request of `post_presence`, with the length of its body as it is sent. -/
def PosterConfig.request (c : PosterConfig) (present : Bool) (contentLength : Str) : Request where
  path := str "/presence"
  contentLength := some contentLength
  body := .text (.ok (.obj (c.payload present)))

/-- The helper and the server. -/
structure Watch where
  debouncer : PresenceDebouncer
  server : Server

inductive Event
  /-- A pass of the loop of `run`. Its request reaches the server with the given length, or it does
  not and the error is logged. -/
  | poll (reading : Reading) (now : ℚ) (delivered : Option Str)
  /-- A request of another client. -/
  | request (r : Request) (now : ℚ)
  /-- The pet loop reads the mailbox. -/
  | read (now : ℚ)

def Event.now : Event → ℚ
  | .poll _ now _ | .request _ now | .read now => now

def Server.read (s : Server) (now : ℚ) : Server :=
  { s with mailbox := s.mailbox.map fun mailbox => (mailbox.get now).1 }

def Watch.step (c : PosterConfig) (w : Watch) : Event → Watch
  | .poll reading now delivered =>
    let debouncer := (w.debouncer.observe reading).1
    match debouncer.confirmed, delivered with
    | some present, some contentLength =>
      ⟨debouncer, (doPost w.server (c.request present contentLength) now).server⟩
    | _, _ => ⟨debouncer, w.server⟩
  | .request r now => ⟨w.debouncer, (doPost w.server r now).server⟩
  | .read now => ⟨w.debouncer, w.server.read now⟩

def Watch.run (c : PosterConfig) (w : Watch) (events : List Event) : Watch :=
  events.foldl (Watch.step c) w

/-- The key under which the server keeps what the helper says. -/
def PosterConfig.key (c : PosterConfig) : Str := (joinWords c.source).take presenceSourceMaxLen

/-- A body length that the server takes. -/
def Fits (contentLength : Str) : Prop :=
  ∃ n, parseInt contentLength = some n ∧ 1 ≤ n ∧ n ≤ maxRequestBytes

/-- A request that asks to post explicit presence under a key. -/
def SpeaksFor (key : Str) (r : Request) : Prop :=
  ∃ endpoint payload now p, Endpoint.ofPath r.path = some endpoint ∧
    readJsonBody r (endpoint ≠ .memoryReset) = .ok payload ∧
    endpoint.asksFor payload now = some (.post p) ∧ p.source = .explicit key

/-- The helper's requests fit, and nobody else speaks for its source. -/
def Event.Proper (c : PosterConfig) : Event → Prop
  | .poll _ _ delivered => ∀ contentLength ∈ delivered, Fits contentLength
  | .request r _ => ¬ SpeaksFor c.key r
  | .read _ => True

def readings (events : List Event) : List Reading :=
  events.filterMap fun
    | .poll reading _ _ => some reading
    | .request _ _ | .read _ => none

def Event.Delivered : Event → Prop
  | .poll _ _ delivered => delivered ≠ none
  | .request _ _ | .read _ => False

/-- The last delivered poll said this, being what two equal readings in a row had confirmed last. -/
def Said (events : List Event) (present : Bool) (time : ℚ) : Prop :=
  ∃ before reading contentLength after,
    events = before ++ .poll reading time (some contentLength) :: after ∧
    LastBlock PresenceDebouncer.Known 2 (some present) (readings before ++ [reading]) ∧
    ∀ e ∈ after, ¬ e.Delivered

variable {c : PosterConfig} {w : Watch} {events : List Event} {e : Event} {present b : Bool}
  {now later t time : ℚ} {contentLength : Str} {s : Server} {m : SignalMailbox} {r : Request}
  {key : Str}

/-- A request has the effect it asks for or none. -/
theorem doPost_server (s : Server) (r : Request) (now : ℚ) : (doPost s r now).server = s ∨
    ∃ endpoint payload effect, Endpoint.ofPath r.path = some endpoint ∧
      readJsonBody r (endpoint ≠ .memoryReset) = .ok payload ∧
      endpoint.asksFor payload now = some effect ∧ (doPost s r now).server = effect.apply s := by
  cases hpath : Endpoint.ofPath r.path with
  | none => exact .inl (by rw [doPost_notFound hpath])
  | some endpoint =>
    cases hanswer : answer r endpoint now s with
    | ok response t =>
      obtain ⟨-, payload, effect, hpayload, heffect, rfl⟩ := answer_ok hanswer
      exact .inr ⟨endpoint, payload, effect, rfl, hpayload, heffect,
        by rw [doPost_ok hpath hanswer]⟩
    | error error t =>
      obtain rfl := atomic_answer _ _ _ hanswer
      refine .inl ?_
      simp only [doPost, hpath, hanswer]
      cases error <;> rfl

/-- Of the mailbox every effect but a post leaves all as it is. -/
theorem apply_mailbox (effect : Effect) (s : Server) : (effect.apply s).mailbox = s.mailbox ∨
    ∃ p, effect = .post p ∧
      (effect.apply s).mailbox = s.mailbox.map fun mailbox => (mailbox.post p).1 := by
  cases effect with
  | post p => exact .inr ⟨p, rfl, rfl⟩
  | submit | forget | forgetBy | reset | setWritesEnabled => exact .inl rfl

theorem ofPath_presence : Endpoint.ofPath (str "/presence") = some .presence := by decide +kernel

/-- What the helper sends is posted under its key. -/
theorem presencePost_payload (hsource : joinWords c.source ≠ [])
    (httl : c.ttlSeconds.le (.finite 0) = false) (present : Bool) (now : ℚ) :
    presencePost (c.payload present) now =
      .ok (.presence c.key present (minDouble c.ttlSeconds maxTtlSeconds) now) := by
  have hpresent : (c.payload present).lookup (str "present") = some (.bool present) := rfl
  have hfield : Json.get (c.payload present) "source" = .str c.source := rfl
  have hnumber : Json.get (c.payload present) "ttl_seconds" = .float c.ttlSeconds := rfl
  have hwords : optionalStr (c.payload present) "source" = .ok (some (joinWords c.source)) := by
    simp only [optionalStr, hfield, if_neg hsource]
  have hlimited : presenceTtl (c.payload present) =
      .ok (some (minDouble c.ttlSeconds maxTtlSeconds)) := by
    simp only [presenceTtl, optionalNumber, hnumber]
    change (if c.ttlSeconds.le (.finite 0) = true then _ else _) = _
    rw [httl, if_neg Bool.false_ne_true]
  simp only [presencePost, hpresent]
  refine bind_eq_ok.mpr ⟨_, hwords, ?_⟩
  exact bind_eq_ok.mpr ⟨_, hlimited, rfl⟩

/-- A delivered poll posts what was confirmed. -/
theorem doPost_payload (hsource : joinWords c.source ≠ [])
    (httl : c.ttlSeconds.le (.finite 0) = false) (hfits : Fits contentLength)
    (hmailbox : s.mailbox = some m) :
    (doPost s (c.request present contentLength) now).server.mailbox =
      some (m.post (.presence c.key present (minDouble c.ttlSeconds maxTtlSeconds) now)).1 := by
  obtain ⟨n, hn, hmin, hmax⟩ := hfits
  have hbody : readJsonBody (c.request present contentLength) true =
      .ok (c.payload present) := by
    simp only [readJsonBody, PosterConfig.request, hn, if_neg (not_lt.mpr hmin),
      if_neg (not_lt.mpr hmax)]
  have hhandle : handlePresence (c.payload present) now s = .ok
      { status := .accepted, payload := [(str "ok", .bool true)] }
      (Effect.apply s (.post (.presence c.key present
        (minDouble c.ttlSeconds maxTtlSeconds) now))) := by
    rw [handlePresence_enabled hmailbox, presencePost_payload hsource httl]
  have hanswer : answer (c.request present contentLength) .presence now s = .ok
      { status := .accepted, payload := [(str "ok", .bool true)] }
      (Effect.apply s (.post (.presence c.key present
        (minDouble c.ttlSeconds maxTtlSeconds) now))) :=
    Raising.bind_ok_iff.mpr ⟨_, s, Raising.check_ok_iff.mpr ⟨hbody, rfl⟩, hhandle⟩
  rw [doPost_ok ofPath_presence hanswer]
  simp only [Effect.apply, hmailbox, Option.map_some]

/-- A request of another client leaves the entry of the helper alone. -/
theorem lookup_doPost (hother : ¬ SpeaksFor key r) (hmailbox : s.mailbox = some m) :
    ∃ m', (doPost s r now).server.mailbox = some m' ∧
      m'.presence.lookup key = m.presence.lookup key := by
  rcases doPost_server s r now with hsame | ⟨endpoint, payload, effect, hpath, hpayload, heffect,
    happly⟩
  · exact ⟨m, by rw [hsame, hmailbox], rfl⟩
  · rw [happly]
    rcases apply_mailbox effect s with hsame | ⟨p, rfl, hpost⟩
    · exact ⟨m, by rw [hsame, hmailbox], rfl⟩
    · refine ⟨(m.post p).1, by rw [hpost, hmailbox, Option.map_some], ?_⟩
      cases p with
      | activity => rfl
      | presence source present ttlSeconds stamp =>
        have hne : key ≠ source := by
          rintro rfl
          exact hother ⟨endpoint, payload, now, _, hpath, hpayload, heffect, rfl⟩
        exact AList.lookup_insert_ne hne

theorem readings_concat (events : List Event) (e : Event) :
    readings (events ++ [e]) = readings events ++ readings [e] :=
  List.filterMap_append

/-- An event without a delivered poll leaves what was said as it is. -/
theorem said_concat (h : ¬ e.Delivered) :
    Said (events ++ [e]) present time ↔ Said events present time := by
  constructor
  · rintro ⟨before, reading, contentLength, after, hsplit, hblock, hafter⟩
    cases after using List.reverseRecOn with
    | nil =>
      obtain ⟨-, hlast⟩ := List.append_inj' hsplit rfl
      obtain rfl := List.singleton_inj.mp hlast
      exact absurd (Option.some_ne_none _) h
    | append_singleton after last =>
      rw [← List.cons_append, ← List.append_assoc] at hsplit
      obtain ⟨hevents, -⟩ := List.append_inj' hsplit rfl
      exact ⟨before, reading, contentLength, after, hevents, hblock,
        fun e he => hafter e (List.mem_append_left _ he)⟩
  · rintro ⟨before, reading, contentLength, after, rfl, hblock, hafter⟩
    refine ⟨before, reading, contentLength, after ++ [e], by simp, hblock, ?_⟩
    intro e' he'
    rcases List.mem_append.mp he' with hmem | hmem
    · exact hafter e' hmem
    · obtain rfl := List.mem_singleton.mp hmem
      exact h

/-- A delivered poll says what is confirmed, once something is. -/
theorem said_concat_poll {reading : Reading} :
    Said (events ++ [.poll reading now (some contentLength)]) present time ↔
      time = now ∧
        LastBlock PresenceDebouncer.Known 2 (some present) (readings events ++ [reading]) := by
  constructor
  · rintro ⟨before, reading', contentLength', after, hsplit, hblock, hafter⟩
    cases after using List.reverseRecOn with
    | nil =>
      obtain ⟨rfl, hlast⟩ := List.append_inj' hsplit rfl
      injection List.singleton_inj.mp hlast with hreading hnow
      subst hreading hnow
      exact ⟨rfl, hblock⟩
    | append_singleton after last =>
      rw [← List.cons_append, ← List.append_assoc] at hsplit
      obtain ⟨-, hlast⟩ := List.append_inj' hsplit rfl
      obtain rfl := List.singleton_inj.mp hlast
      exact absurd (Option.some_ne_none _) (hafter _ (List.mem_append_right _ (.head _)))
  · rintro ⟨rfl, hblock⟩
    exact ⟨events, reading, contentLength, [], rfl, hblock, nofun⟩

/-- What was said had been confirmed. -/
theorem block_of_said (h : Said events present time) :
    ∃ after, Block 2 (some present) (readings events) after := by
  obtain ⟨before, reading, contentLength, after, rfl, ⟨-, later, ⟨first, m, hm, hlist⟩, -⟩, -⟩ := h
  refine ⟨later ++ readings after, first, m, hm, ?_⟩
  calc readings (before ++ .poll reading time (some contentLength) :: after)
      = (readings before ++ [reading]) ++ readings after := by simp [readings]
    _ = first ++ List.replicate m (some present) ++ (later ++ readings after) := by
        rw [hlist, List.append_assoc]

/-- The helper has confirmed what the readings say, and the server holds under its key what it said
last, up to values that nobody can see any more. -/
structure Tracks (c : PosterConfig) (events : List Event) (now : ℚ) (w : Watch) (m : SignalMailbox)
    (cell : Option PresenceRecord) : Prop where
  required : w.debouncer.required = 2
  follows : PresenceDebouncer.Follows (readings events) w.debouncer
  mailbox : w.server.mailbox = some m
  agrees : CellAgrees PresenceRecord.expired now (m.presence.lookup c.key) cell
  said : ∀ record, cell = some record ↔
    record.ttlSeconds = minDouble c.ttlSeconds maxTtlSeconds ∧
      Said events record.present record.receivedAt

variable {cell : Option PresenceRecord}

theorem tracks_mono (h : Tracks c events now w m cell) (hle : now ≤ later) :
    Tracks c events later w m cell :=
  { h with agrees := cellAgrees_mono h.agrees hle }

theorem tracks_read (h : Tracks c events now w m cell) :
    Tracks c (events ++ [.read now]) now (w.step c (.read now)) (m.get now).1 cell := by
  have hreadings : readings (events ++ [.read now]) = readings events :=
    (readings_concat _ _).trans (List.append_nil _)
  have hquiet : ¬ (Event.read now).Delivered := not_false
  refine ⟨h.required, hreadings ▸ h.follows, ?_, ?_, fun record => ?_⟩
  · simp only [Watch.step, Server.read, h.mailbox, Option.map_some]
  · change CellAgrees _ now ((Expiring.prune (·.expired now) m.presence).lookup c.key) cell
    rw [lookup_prune]
    exact cellAgrees_prune presence_expired_mono h.agrees
  · rw [h.said, said_concat hquiet]

theorem tracks_request (h : Tracks c events now w m cell) (hother : ¬ SpeaksFor c.key r) :
    ∃ m', Tracks c (events ++ [.request r now]) now (w.step c (.request r now)) m' cell := by
  obtain ⟨m', hmailbox, hlookup⟩ :
      ∃ m', (doPost w.server r now).server.mailbox = some m' ∧
        m'.presence.lookup c.key = m.presence.lookup c.key := lookup_doPost hother h.mailbox
  have hreadings : readings (events ++ [.request r now]) = readings events :=
    (readings_concat _ _).trans (List.append_nil _)
  have hquiet : ¬ (Event.request r now).Delivered := not_false
  refine ⟨m', h.required, hreadings ▸ h.follows, hmailbox, ?_, fun record => ?_⟩
  · rw [hlookup]
    exact h.agrees
  · rw [h.said, said_concat hquiet]

/-- A poll posts what it confirms or keeps confirmed, if that is delivered. -/
theorem tracks_poll {reading : Reading} {delivered : Option Str} (hsource : joinWords c.source ≠ [])
    (httl : c.ttlSeconds.le (.finite 0) = false) (h : Tracks c events now w m cell)
    (hfits : ∀ contentLength ∈ delivered, Fits contentLength) :
    ∃ m' cell', Tracks c (events ++ [.poll reading now delivered]) now
      (w.step c (.poll reading now delivered)) m' cell' := by
  have hreadings : readings (events ++ [.poll reading now delivered]) =
      readings events ++ [reading] := readings_concat _ _
  have hrequired : (w.debouncer.observe reading).1.required = 2 :=
    (PresenceDebouncer.observe_required _ _).trans h.required
  have hfollows := PresenceDebouncer.follows_observe h.follows reading
  cases delivered with
  | none =>
    have hstep : w.step c (.poll reading now none) = ⟨(w.debouncer.observe reading).1, w.server⟩ := by
      simp only [Watch.step]
      cases (w.debouncer.observe reading).1.confirmed <;> rfl
    have hquiet : ¬ (Event.poll reading now none).Delivered := fun h => h rfl
    rw [hstep]
    refine ⟨m, cell, hrequired, hreadings ▸ hfollows, h.mailbox, h.agrees, fun record => ?_⟩
    rw [h.said, said_concat hquiet]
  | some contentLength =>
    have hsaid : ∀ present time,
        Said (events ++ [.poll reading now (some contentLength)]) present time ↔
          time = now ∧ (w.debouncer.observe reading).1.confirmed = some present := by
      intro present time
      rw [said_concat_poll, hfollows.confirmed, hrequired]
    cases hconfirmed : (w.debouncer.observe reading).1.confirmed with
    | none =>
      have hstep : w.step c (.poll reading now (some contentLength)) =
          ⟨(w.debouncer.observe reading).1, w.server⟩ := by
        simp only [Watch.step, hconfirmed]
      rw [hstep]
      refine ⟨m, cell, hrequired, hreadings ▸ hfollows, h.mailbox, h.agrees, fun record => ?_⟩
      -- Before anything is confirmed nothing was said.
      have hnever : ¬ Said events record.present record.receivedAt := by
        intro hold
        obtain ⟨after, before, n, hn, hblock⟩ := block_of_said hold
        refine hfollows.confirmed_none_iff.mp hconfirmed record.present (after ++ [reading]) ?_
        exact ⟨before, n, hrequired ▸ hn, by rw [hblock, List.append_assoc]⟩
      rw [h.said, hsaid, hconfirmed]
      simp [hnever]
    | some present =>
      have hstep : w.step c (.poll reading now (some contentLength)) =
          ⟨(w.debouncer.observe reading).1,
            (doPost w.server (c.request present contentLength) now).server⟩ := by
        simp only [Watch.step, hconfirmed]
      rw [hstep]
      refine ⟨_, some ⟨present, now, minDouble c.ttlSeconds maxTtlSeconds⟩, hrequired,
        hreadings ▸ hfollows, doPost_payload hsource httl (hfits _ rfl) h.mailbox, ?_,
        fun record => ?_⟩
      · change CellAgrees _ now ((m.presence.insert c.key _).lookup c.key) _
        rw [AList.lookup_insert]
        exact cellAgrees_self now _
      · rw [hsaid, hconfirmed]
        obtain ⟨present', receivedAt, ttlSeconds⟩ := record
        simp only [Option.some.injEq, PresenceRecord.mk.injEq]
        tauto

theorem tracks_step (hsource : joinWords c.source ≠ [])
    (httl : c.ttlSeconds.le (.finite 0) = false) (h : Tracks c events e.now w m cell)
    (hproper : e.Proper c) : ∃ m' cell', Tracks c (events ++ [e]) e.now (w.step c e) m' cell' := by
  cases e with
  | poll reading now delivered => exact tracks_poll hsource httl h hproper
  | request r now =>
    obtain ⟨m', h'⟩ := tracks_request h hproper
    exact ⟨m', cell, h'⟩
  | read now => exact ⟨_, cell, tracks_read h⟩

theorem tracks_run (hsource : joinWords c.source ≠ [])
    (httl : c.ttlSeconds.le (.finite 0) = false) (h : ∀ now, Tracks c [] now w m cell)
    (hproper : ∀ e ∈ events, e.Proper c) (hmono : (events.map Event.now).Pairwise (· ≤ ·))
    (ht : ∀ e ∈ events, e.now ≤ t) : ∃ m' cell', Tracks c events t (w.run c events) m' cell' := by
  induction events using List.reverseRecOn generalizing t with
  | nil => exact ⟨m, cell, h t⟩
  | append_singleton events e ih =>
    rw [List.map_append, List.pairwise_append] at hmono
    obtain ⟨hbefore, -, hlast⟩ := hmono
    obtain ⟨m', cell', hevents⟩ := ih (fun e he => hproper e (List.mem_append_left _ he)) hbefore
      (t := e.now) fun e' he' => hlast _ (List.mem_map_of_mem he') _ (.head _)
    obtain ⟨m'', cell'', hstep⟩ := tracks_step hsource httl hevents
      (hproper e (List.mem_append_right _ (.head _)))
    refine ⟨m'', cell'', ?_⟩
    have hrun : w.run c (events ++ [e]) = (w.run c events).step c e := by
      simp only [Watch.run, List.foldl_append, List.foldl_cons, List.foldl_nil]
    rw [hrun]
    exact tracks_mono hstep (ht e (List.mem_append_right _ (.head _)))

/-- The entry of the helper in the fused view. -/
theorem contribution_of_tracks (h : Tracks c events t w m cell) :
    m.contribution t (.explicit c.key) = some (.present b) ↔
      ∃ time, Said events b time ∧
        (minDouble c.ttlSeconds maxTtlSeconds).lt (.finite (t - time)) = false := by
  have hcontribution : m.contribution t (.explicit c.key) =
      (live PresenceRecord.expired t cell).map fun r => .present r.present :=
    congrArg (Option.map _) (h.agrees t le_rfl)
  rw [hcontribution, Option.map_eq_some_iff]
  constructor
  · rintro ⟨record, hlive, hpresent⟩
    injection hpresent with hpresent
    obtain ⟨hcell, hfresh⟩ := live_eq_some.mp hlive
    obtain ⟨httl, hsaid⟩ := (h.said record).mp hcell
    rw [hpresent] at hsaid
    refine ⟨record.receivedAt, hsaid, ?_⟩
    rw [← httl]
    exact hfresh
  · rintro ⟨time, hsaid, hfresh⟩
    refine ⟨⟨b, time, minDouble c.ttlSeconds maxTtlSeconds⟩, ?_, rfl⟩
    exact live_eq_some.mpr ⟨(h.said _).mpr ⟨rfl, hsaid⟩, hfresh⟩

/-- What one source says reaches the fused view. -/
theorem view_of_contribution {source : Str}
    (h : m.contribution t (.explicit source) = some (.present b)) :
    (b = false → (m.view t).present = some false) ∧ (m.view t).present ≠ none := by
  obtain ⟨record, hlive, hpresent⟩ := Option.map_eq_some_iff.mp h
  injection hpresent with hpresent
  have hsays : Says t (m.presence.entries.map (·.2)) b :=
    says_iff_lookup.mpr ⟨source, record, hlive, hpresent⟩
  rw [get_present, fusedPresent_eq]
  refine ⟨?_, ?_⟩
  · rintro rfl
    rw [fused, if_pos hsays]
  · cases b with
    | false =>
      rw [fused, if_pos hsays]
      exact Option.some_ne_none _
    | true =>
      rw [fused, if_pos hsays]
      split <;> exact Option.some_ne_none _

/-- At any time the helper's entry in the mailbox is what its last delivered poll said, as long as
that is no older than the TTL, whatever other clients sent and however often the loop has read it. -/
theorem Watch.present_as_said {m₀ : SignalMailbox} (hsource : joinWords c.source ≠ [])
    (httl : c.ttlSeconds.le (.finite 0) = false)
    (hdebouncer : PresenceDebouncer.new requiredConsecutive = .ok w.debouncer)
    (hmailbox : w.server.mailbox = some m₀) (hunknown : m₀.presence.lookup c.key = none)
    (hproper : ∀ e ∈ events, e.Proper c) (hmono : (events.map Event.now).Pairwise (· ≤ ·))
    (ht : ∀ e ∈ events, e.now ≤ t) :
    ∃ m, (w.run c events).server.mailbox = some m ∧
      (∀ present, m.contribution t (.explicit c.key) = some (.present present) ↔
        ∃ time, Said events present time ∧
          (minDouble c.ttlSeconds maxTtlSeconds).lt (.finite (t - time)) = false) ∧
      ∀ present time, Said events present time →
        (minDouble c.ttlSeconds maxTtlSeconds).lt (.finite (t - time)) = false →
        (m.view t).present ≠ none ∧ (present = false → (m.view t).present = some false) := by
  obtain ⟨-, hrequired, hconfirmed, hcandidate, -⟩ := PresenceDebouncer.new_ok_iff.mp hdebouncer
  have hstart : ∀ now, Tracks c [] now w m₀ none := by
    intro now
    refine ⟨?_, PresenceDebouncer.follows_fresh hconfirmed hcandidate, hmailbox, ?_,
      fun record => ?_⟩
    · exact Int.ofNat_inj.mp hrequired
    · rw [hunknown]
      exact cellAgrees_self now none
    · refine iff_of_false (Option.some_ne_none _).symm ?_
      rintro ⟨-, before, reading, contentLength, after, hsplit, -⟩
      exact List.append_ne_nil_of_right_ne_nil before (List.cons_ne_nil _ _) hsplit.symm
  obtain ⟨m, cell, htracks⟩ := tracks_run hsource httl hstart hproper hmono ht
  refine ⟨m, htracks.mailbox, fun present => contribution_of_tracks htracks, ?_⟩
  intro present time hsaid hfresh
  have hcontribution := (contribution_of_tracks htracks).mpr ⟨time, hsaid, hfresh⟩
  obtain ⟨hfalse, hsome⟩ := view_of_contribution hcontribution
  exact ⟨hsome, hfalse⟩

/-- Connected for two polls, with a stray request and a reading of the mailbox after them. -/
theorem Watch.present_as_said_connected : ∃ d m, PresenceDebouncer.new requiredConsecutive = .ok d ∧
    (Watch.run {} ⟨d, { mailbox := some {} }⟩
      [.poll (some true) 0 (some (str "59")), .poll (some true) 7 (some (str "59")),
        .request ⟨str "/nope", none, .notUtf8⟩ 8, .read 9]).server.mailbox = some m ∧
    m.contribution 20 (.explicit (PosterConfig.key {})) = some (.present true) ∧
    (m.view 20).present ≠ none := by
  let d : PresenceDebouncer := ⟨2, one_le_two, none, none, 0⟩
  let w : Watch := ⟨d, { mailbox := some {} }⟩
  have hnew : PresenceDebouncer.new requiredConsecutive = .ok w.debouncer := rfl
  have hstart : w.server.mailbox = some {} := rfl
  have hunknown : (∅ : Dict Str PresenceRecord).lookup (PosterConfig.key {}) = none :=
    AList.lookup_empty _
  let events : List Event := [.poll (some true) 0 (some (str "59")),
    .poll (some true) 7 (some (str "59")), .request ⟨str "/nope", none, .notUtf8⟩ 8, .read 9]
  have hfits : Fits (str "59") := ⟨59, by decide +kernel, by decide, by decide⟩
  have hpath : Endpoint.ofPath (str "/nope") = none := by decide +kernel
  have hproper : ∀ e ∈ events, e.Proper {} := by
    intro e he
    simp only [events, List.mem_cons, List.not_mem_nil, or_false] at he
    rcases he with rfl | rfl | rfl | rfl
    · rintro _ ⟨⟩
      exact hfits
    · rintro _ ⟨⟩
      exact hfits
    · rintro ⟨endpoint, payload, now, p, hsome, -⟩
      rw [hpath] at hsome
      cases hsome
    · exact trivial
  have hmono : (events.map Event.now).Pairwise (· ≤ ·) := by
    change List.Pairwise (· ≤ ·) [(0 : ℚ), 7, 8, 9]
    decide +kernel
  have ht : ∀ e ∈ events, e.now ≤ 20 := by
    intro e he
    simp only [events, List.mem_cons, List.not_mem_nil, or_false] at he
    rcases he with rfl | rfl | rfl | rfl <;> norm_num [Event.now]
  have hsaid : Said events true 7 := by
    refine ⟨[.poll (some true) 0 (some (str "59"))], some true, str "59", _, rfl, ?_, ?_⟩
    · change LastBlock PresenceDebouncer.Known 2 (some true) [some true, some true]
      have hknown : PresenceDebouncer.Known (some true) := Option.some_ne_none _
      have hlong : 2 ≤ streak (some true) [some true, some true] := by decide
      exact (lastBlock_of_streak one_le_two hknown hlong).mpr rfl
    · intro e he
      rcases List.mem_cons.mp he with rfl | he
      · exact id
      · obtain rfl := List.mem_singleton.mp he
        exact id
  have hfresh : (minDouble (.finite 30) maxTtlSeconds).lt (.finite (20 - 7)) = false := by
    decide +kernel
  have hsource : joinWords (str "airpods") ≠ [] := by decide +kernel
  have httl : (Double.finite 30).le (.finite 0) = false := by decide +kernel
  obtain ⟨m, hmailbox, hentry, hview⟩ :=
    Watch.present_as_said hsource httl hnew hstart hunknown hproper hmono ht
  exact ⟨d, m, hnew, hmailbox, (hentry true).mpr ⟨7, hsaid, hfresh⟩, (hview true 7 hsaid hfresh).1⟩

end Hologotchi.Control
