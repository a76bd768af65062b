import Hologotchi.Presence.Report
import Hologotchi.Library.Expiring

/-! The source-keyed presence store (`SignalMailbox` in `host/presence.py`). Stamps are
rationals; a TTL or an idle time may be any float. -/
namespace Hologotchi.Presence

open Python Library Expiring

def defaultPresenceTtlSeconds : Double := .finite 30
def defaultActivityTtlSeconds : Double := .finite 90
def defaultAwayIdleSeconds : Double := .finite 300

structure PresenceSignals where
  idleSeconds : Option Double := none
  screenLocked : Option Bool := none
  foregroundApp : Option Str := none
  /-- Fused explicit presence, from no source when nothing fresh was said. -/
  present : Option Bool := none
  deriving DecidableEq, Repr

structure ActivityRecord where
  signals : PresenceSignals
  receivedAt : ℚ
  ttlSeconds : Double
  deriving DecidableEq, Repr

structure PresenceRecord where
  present : Bool
  receivedAt : ℚ
  ttlSeconds : Double
  deriving DecidableEq, Repr

def ActivityRecord.expired (now : ℚ) (r : ActivityRecord) : Bool :=
  r.ttlSeconds.lt (.finite (now - r.receivedAt))

def PresenceRecord.expired (now : ℚ) (r : PresenceRecord) : Bool :=
  r.ttlSeconds.lt (.finite (now - r.receivedAt))

structure SignalMailbox where
  activityTtl : Double := defaultActivityTtlSeconds
  awayIdleSeconds : Double := defaultAwayIdleSeconds
  activity : Option ActivityRecord := none
  presence : Dict Str PresenceRecord := ∅

/-- The label that decides whether a post wakes the loop. -/
inductive Coarse
  | away
  | present
  deriving DecidableEq, Repr

/-- The loop of `_fused_present` over the records. -/
def fuse (now : ℚ) (sawTrue : Bool) : List PresenceRecord → Option Bool
  | [] => if sawTrue then some true else none
  | r :: rs =>
    if r.expired now then fuse now sawTrue rs
    else if r.present = false then some false
    else fuse now true rs

namespace SignalMailbox

/-- Absence is authoritative. -/
def fusedPresent (m : SignalMailbox) (now : ℚ) : Option Bool :=
  fuse now false (m.presence.entries.map (·.2))

def coarsePresence (m : SignalMailbox) (now : ℚ) : Option Coarse :=
  match m.fusedPresent now with
  | some false => some .away
  | some true => some .present
  | none =>
    match m.activity with
    | none => none
    | some r =>
      if r.expired now then none
      else if r.signals.screenLocked = some true then some .away
      else match r.signals.idleSeconds with
        | some idle => some (if m.awayIdleSeconds.le idle then .away else .present)
        | none =>
          if r.signals.screenLocked = some false ∨ r.signals.foregroundApp ≠ none then
            some .present
          else none

/-- Post the host activity; whether the coarse presence changed. -/
def setActivity (m : SignalMailbox) (signals : PresenceSignals) (ttlSeconds : Option Double)
    (now : ℚ) : SignalMailbox × Bool :=
  let ttl := ttlSeconds.getD m.activityTtl
  let m' := { m with activity := some ⟨signals, now, ttl⟩ }
  (m', m.coarsePresence now != m'.coarsePresence now)

def setPresence (m : SignalMailbox) (source : Str) (present : Bool) (ttlSeconds : Double)
    (now : ℚ) : SignalMailbox × Bool :=
  let m' := { m with presence := m.presence.insert source ⟨present, now, ttlSeconds⟩ }
  (m', m.coarsePresence now != m'.coarsePresence now)

/-- `_prune`: forget what has expired. -/
def prune (m : SignalMailbox) (now : ℚ) : SignalMailbox :=
  { m with
    activity := m.activity.filter fun r => !r.expired now
    presence := Expiring.prune (·.expired now) m.presence }

/-- The fused view; reading it prunes. -/
def get (m : SignalMailbox) (now : ℚ) : SignalMailbox × PresenceSignals :=
  let m := m.prune now
  let signals := m.activity.map (·.signals)
  (m, {
    idleSeconds := signals.bind (·.idleSeconds)
    screenLocked := signals.bind (·.screenLocked)
    foregroundApp := signals.bind (·.foregroundApp)
    present := m.fusedPresent now })

end SignalMailbox

variable {now later : ℚ} {m : SignalMailbox} {sawTrue : Bool} {rs : List PresenceRecord}

theorem lt_finite_mono {ttl : Double} {a b : ℚ} (hle : a ≤ b) (h : ttl.lt (.finite a) = true) :
    ttl.lt (.finite b) = true := by
  cases ttl with
  | nan => contradiction
  | posInf => contradiction
  | negInf => rfl
  | finite q =>
    simp only [Double.lt, decide_eq_true_eq] at h ⊢
    exact lt_of_lt_of_le h hle

theorem presence_expired_mono (s t : ℚ) (r : PresenceRecord) (hle : s ≤ t)
    (h : r.expired s = true) : r.expired t = true :=
  lt_finite_mono (sub_le_sub_right hle _) h

theorem activity_expired_mono (s t : ℚ) (r : ActivityRecord) (hle : s ≤ t)
    (h : r.expired s = true) : r.expired t = true :=
  lt_finite_mono (sub_le_sub_right hle _) h

/-- Absence when something says so, presence when only that is said. -/
def fused (absent present : Prop) [Decidable absent] [Decidable present] : Option Bool :=
  if absent then some false else if present then some true else none

theorem fused_congr {a a' p p' : Prop} [Decidable a] [Decidable a'] [Decidable p] [Decidable p']
    (ha : a ↔ a') (hp : p ↔ p') : fused a p = fused a' p' := by
  simp [fused, ha, hp]

/-- Some unexpired record says `b`. -/
def Says (now : ℚ) (rs : List PresenceRecord) (b : Bool) : Prop :=
  ∃ r ∈ rs, r.expired now = false ∧ r.present = b

instance (now : ℚ) (rs : List PresenceRecord) (b : Bool) : Decidable (Says now rs b) :=
  inferInstanceAs (Decidable (∃ r ∈ rs, r.expired now = false ∧ r.present = b))

theorem says_cons {r : PresenceRecord} {b : Bool} : Says now (r :: rs) b ↔
    (r.expired now = false ∧ r.present = b) ∨ Says now rs b := by
  simp [Says]

theorem fuse_eq (now : ℚ) (sawTrue : Bool) (rs : List PresenceRecord) : fuse now sawTrue rs =
    fused (Says now rs false) (sawTrue = true ∨ Says now rs true) := by
  induction rs generalizing sawTrue with
  | nil => simp [fuse, fused, Says]
  | cons r rs ih =>
    by_cases he : r.expired now = true
    · rw [fuse, if_pos he, ih]
      apply fused_congr
      · simp [says_cons, he]
      · simp [says_cons, he]
    · have hlive : r.expired now = false := by simpa using he
      rw [fuse, if_neg he]
      cases hp : r.present with
      | false => simp [fused, says_cons, hlive, hp]
      | true =>
        rw [if_neg (by simp), ih]
        apply fused_congr
        · simp [says_cons, hlive, hp]
        · simp [says_cons, hlive, hp]

theorem fusedPresent_eq (m : SignalMailbox) (now : ℚ) : m.fusedPresent now =
    fused (Says now (m.presence.entries.map (·.2)) false)
      (Says now (m.presence.entries.map (·.2)) true) := by
  rw [SignalMailbox.fusedPresent, fuse_eq]
  exact fused_congr Iff.rfl (by simp)

theorem says_iff_lookup {b : Bool} : Says now (m.presence.entries.map (·.2)) b ↔
    ∃ source r, live PresenceRecord.expired now (m.presence.lookup source) =
      some r ∧ r.present = b := by
  constructor
  · rintro ⟨r, hr, hlive, hb⟩
    obtain ⟨e, he, rfl⟩ := List.mem_map.mp hr
    refine ⟨e.1, e.2, live_eq_some.mpr ⟨?_, hlive⟩, hb⟩
    exact AList.mem_lookup_iff.mpr he
  · rintro ⟨source, r, hlookup, hb⟩
    obtain ⟨hsome, hlive⟩ := live_eq_some.mp hlookup
    exact ⟨r, List.mem_map.mpr ⟨⟨source, r⟩, AList.mem_lookup_iff.mp hsome, rfl⟩, hlive, hb⟩

/-- The label of a fused view. -/
def coarse (awayIdleSeconds : Double) (v : PresenceSignals) : Option Coarse :=
  match v.present with
  | some false => some .away
  | some true => some .present
  | none =>
    if v.screenLocked = some true then some .away
    else match v.idleSeconds with
      | some idle => some (if awayIdleSeconds.le idle then .away else .present)
      | none => if v.screenLocked = some false ∨ v.foregroundApp ≠ none then some .present else none

/-- What `get` would return, without pruning. -/
def SignalMailbox.view (m : SignalMailbox) (now : ℚ) : PresenceSignals := (m.get now).2

theorem get_present (m : SignalMailbox) (now : ℚ) : (m.view now).present = m.fusedPresent now := by
  have hfused : ∀ b, Says now ((m.prune now).presence.entries.map (·.2)) b ↔
      Says now (m.presence.entries.map (·.2)) b := by
    intro b
    rw [says_iff_lookup, says_iff_lookup]
    have hlive : ∀ source, live PresenceRecord.expired now
        ((m.prune now).presence.lookup source) =
        live PresenceRecord.expired now (m.presence.lookup source) := by
      intro source
      simp only [SignalMailbox.prune, lookup_prune, live, Option.filter_filter, Bool.and_self]
    simp only [hlive]
  have hget : (m.view now).present = (m.prune now).fusedPresent now := rfl
  rw [hget, fusedPresent_eq, fusedPresent_eq]
  exact fused_congr (hfused false) (hfused true)

theorem view_fields {a : Option ActivityRecord} (h : (m.prune now).activity = a) :
    (m.view now).idleSeconds = (a.map (·.signals)).bind (·.idleSeconds) ∧
      (m.view now).screenLocked = (a.map (·.signals)).bind (·.screenLocked) ∧
      (m.view now).foregroundApp = (a.map (·.signals)).bind (·.foregroundApp) := by
  subst h
  exact ⟨rfl, rfl, rfl⟩

theorem coarsePresence_eq (m : SignalMailbox) (now : ℚ) :
    m.coarsePresence now = coarse m.awayIdleSeconds (m.view now) := by
  have hpresent := get_present m now
  simp only [SignalMailbox.coarsePresence, coarse]
  rw [hpresent]
  cases m.fusedPresent now with
  | some b => cases b <;> rfl
  | none =>
    have hprune : (m.prune now).activity = m.activity.filter fun r => !r.expired now := rfl
    cases ha : m.activity with
    | none =>
      obtain ⟨hidle, hlocked, happ⟩ := view_fields (hprune.trans (by rw [ha, Option.filter_none]))
      simp [hidle, hlocked, happ]
    | some r =>
      by_cases he : r.expired now = true
      · have hnone : (some r).filter (fun r => !r.expired now) = none := by simp [he]
        obtain ⟨hidle, hlocked, happ⟩ := view_fields (hprune.trans (by rw [ha, hnone]))
        simp [hidle, hlocked, happ, he]
      · have hsome : (some r).filter (fun r => !r.expired now) = some r := by simp [he]
        obtain ⟨hidle, hlocked, happ⟩ := view_fields (hprune.trans (by rw [ha, hsome]))
        simp [hidle, hlocked, happ, he]

end Hologotchi.Presence
