import Hologotchi.Control.Fields
import Hologotchi.Presence.Expiry
import Hologotchi.Library.Transitions

/-! How long a presence post can count: the bound on the TTLs that pass validation, and the one
number it does not bind. -/
namespace Hologotchi.Presence.Lifetime

open Python

/-- `expired`, with an exact difference. -/
def expired (now : ℚ) (r : Lifetime) : Bool := r.ttlSeconds.lt (.finite (now - r.receivedAt))

/-- The end of the lifetime, exactly. -/
def expiry (r : Lifetime) : Double :=
  match r.ttlSeconds with
  | .finite q => .finite (r.receivedAt + q)
  | special => special

end Hologotchi.Presence.Lifetime

namespace Hologotchi.Control

open Python Library Library.Fallible Presence

/-- The TTL is positive and within the maximum, and the record has expired at every time later
than the maximum allows. -/
structure Limited (r : Lifetime) : Prop where
  positive : (Double.finite 0).lt r.ttlSeconds = true
  at_most : r.ttlSeconds.le maxTtlSeconds = true
  expires : ∀ t, (Lifetime.expiry ⟨r.receivedAt, maxTtlSeconds⟩).lt (.finite t) = true →
    r.expired t = true

/-- Every stored record is limited. -/
structure AllLimited (m : SignalMailbox) : Prop where
  activity : ∀ r ∈ m.activity, Limited r.lifetime
  presence : ∀ e ∈ m.presence.entries, Limited e.2.lifetime

/-- What happens to the store: an accepted payload, or a reading by the loop. -/
inductive MailboxEvent
  | accept (payload : Fields) (now : ℚ)
  | read (now : ℚ)

/-- `_apply_presence_payload` of a payload it accepts, and `get`. -/
inductive Applies : SignalMailbox → MailboxEvent → SignalMailbox → Prop
  | accept {m : SignalMailbox} {payload : Fields} {now : ℚ} {p : Post}
      (h : presencePost payload now = .ok p) : Applies m (.accept payload now) (m.post p).1
  | read (m : SignalMailbox) (now : ℚ) : Applies m (.read now) (m.get now).1

/-- The payload's TTL, if it has one, compares with other numbers. -/
def MailboxEvent.Ordered : MailboxEvent → Prop
  | .accept payload _ => numberOf (Json.get payload "ttl_seconds") ≠ some .nan
  | .read _ => True

instance : DecidablePred MailboxEvent.Ordered
  | .accept _ _ => inferInstanceAs (Decidable (_ ≠ _))
  | .read _ => inferInstanceAs (Decidable True)

theorem limited_iff {r : Lifetime} : Limited r ↔
    (Double.finite 0).lt r.ttlSeconds = true ∧ r.ttlSeconds.le maxTtlSeconds = true := by
  refine ⟨fun h => ⟨h.positive, h.at_most⟩, ?_⟩
  rintro ⟨hpositive, hmax⟩
  refine ⟨hpositive, hmax, ?_⟩
  intro t ht
  obtain ⟨receivedAt, ttl⟩ := r
  cases ttl with
  | finite q =>
    simp only [Lifetime.expiry, Lifetime.expired, maxTtlSeconds, Double.lt, Double.le,
      decide_eq_true_eq] at *
    exact hmax.trans_lt (lt_sub_iff_add_lt'.mpr ht)
  | nan | posInf | negInf => simp [Double.lt, Double.le, maxTtlSeconds] at hpositive hmax

/-- Whatever positive number is given, the minimum with the maximum is within it; NaN is not
positive, but it is not at most zero either. -/
theorem limited_minDouble_iff {ttl : Double} {receivedAt : ℚ}
    (hpositive : ttl.le (.finite 0) = false) :
    Limited ⟨receivedAt, minDouble ttl maxTtlSeconds⟩ ↔ ttl ≠ .nan := by
  rw [limited_iff]
  cases ttl with
  | nan => simp [minDouble, maxTtlSeconds, Double.lt]
  | posInf => simp [minDouble, maxTtlSeconds, Double.lt, Double.le]
  | negInf => simp [Double.le] at hpositive
  | finite q =>
    have hq : 0 < q := by simpa [Double.le] using hpositive
    by_cases hmax : 3600 < q
    · simp [minDouble, maxTtlSeconds, Double.lt, Double.le, hmax]
    · simp [minDouble, maxTtlSeconds, Double.lt, Double.le, hmax, hq, not_lt.mp hmax]

theorem limited_default (receivedAt : ℚ) : Limited ⟨receivedAt, defaultPresenceTtlSeconds⟩ :=
  limited_iff.mpr ⟨rfl, rfl⟩

theorem limited_defaultActivity (receivedAt : ℚ) :
    Limited ⟨receivedAt, defaultActivityTtlSeconds⟩ :=
  limited_iff.mpr ⟨rfl, rfl⟩

variable {payload : Fields} {now : ℚ} {ttl : Option Double} {unset : Double} {p : Post}
  {m m' : SignalMailbox} {event : MailboxEvent}

theorem presenceTtl_limited_iff (h : presenceTtl payload = .ok ttl)
    (hunset : Limited ⟨now, unset⟩) : Limited ⟨now, ttl.getD unset⟩ ↔
      numberOf (Json.get payload "ttl_seconds") ≠ some .nan := by
  obtain ⟨value, hvalue, h⟩ := bind_eq_ok.mp h
  rw [← optionalNumber_ok hvalue]
  cases value with
  | none =>
    cases h
    simpa using hunset
  | some x =>
    obtain ⟨hpositive, h⟩ := of_ite_error h
    cases h
    have hlimited : Limited ⟨now, minDouble x maxTtlSeconds⟩ ↔ x ≠ .nan :=
      limited_minDouble_iff (by simpa using hpositive)
    simpa using hlimited

/-- The lifetime of the record that a post stores. -/
def postLifetime (activityTtl : Double) : Post → Lifetime
  | .activity _ ttlSeconds now => ⟨now, ttlSeconds.getD activityTtl⟩
  | .presence _ _ ttlSeconds now => ⟨now, ttlSeconds⟩

theorem postLifetime_limited_iff (h : presencePost payload now = .ok p) :
    Limited (postLifetime defaultActivityTtlSeconds p) ↔
      numberOf (Json.get payload "ttl_seconds") ≠ some .nan := by
  simp only [presencePost] at h
  cases hpresent : payload.lookup (str "present") with
  | none =>
    simp only [hpresent] at h
    obtain ⟨signals, -, h⟩ := bind_eq_ok.mp h
    obtain ⟨ttl, httl, h⟩ := bind_eq_ok.mp h
    cases h
    exact presenceTtl_limited_iff httl (limited_defaultActivity now)
  | some value =>
    cases value with
    | bool present =>
      simp only [hpresent] at h
      obtain ⟨source, -, h⟩ := bind_eq_ok.mp h
      cases source with
      | none => cases h
      | some source =>
        obtain ⟨ttl, httl, h⟩ := bind_eq_ok.mp h
        cases h
        exact presenceTtl_limited_iff httl (limited_default now)
    | null | int | float | str | arr | obj => simp [hpresent] at h

/-- A post keeps the store limited exactly when its own record is. -/
theorem post_allLimited_iff (hm : AllLimited m) :
    AllLimited (m.post p).1 ↔ Limited (postLifetime m.activityTtl p) := by
  cases p with
  | activity signals ttlSeconds now =>
    constructor
    · intro h
      exact h.activity _ rfl
    · intro h
      refine ⟨?_, hm.presence⟩
      rintro r ⟨⟩
      exact h
  | presence source present ttlSeconds now =>
    have hentries : (m.post (.presence source present ttlSeconds now)).1.presence.entries =
        ⟨source, ⟨present, now, ttlSeconds⟩⟩ :: m.presence.entries.kerase source :=
      AList.entries_insert ..
    constructor
    · intro h
      refine h.presence ⟨source, ⟨present, now, ttlSeconds⟩⟩ ?_
      rw [hentries]
      exact List.mem_cons_self
    · intro h
      refine ⟨hm.activity, ?_⟩
      rw [hentries]
      refine List.forall_mem_cons.mpr ⟨h, ?_⟩
      intro e he
      exact hm.presence e ((List.kerase_sublist source _).subset he)

theorem get_allLimited (hm : AllLimited m) (now : ℚ) : AllLimited (m.get now).1 where
  activity := by
    intro r hr
    exact hm.activity r (Option.filter_eq_some_iff.mp hr).1
  presence := by
    intro e he
    exact hm.presence e (List.mem_of_mem_filter he)

theorem applies_activityTtl (h : Applies m event m') : m'.activityTtl = m.activityTtl := by
  cases h with
  | @accept payload now p =>
    cases p <;> rfl
  | read => rfl

theorem applies_allLimited_iff (httl : m.activityTtl = defaultActivityTtlSeconds)
    (hm : AllLimited m) (h : Applies m event m') : AllLimited m' ↔ event.Ordered := by
  cases h with
  | accept h =>
    rw [post_allLimited_iff hm, httl, postLifetime_limited_iff h]
    rfl
  | read now => exact iff_of_true (get_allLimited hm _) trivial

/-- Whatever is accepted by the program's store, every record stays limited exactly when no
accepted TTL is NaN. -/
theorem presence_records_limited_iff (awayIdleSeconds : Double)
    {run : List (MailboxEvent × SignalMailbox)}
    (h : Trace Applies (.new defaultActivityTtlSeconds awayIdleSeconds) run m) :
    Throughout AllLimited (.new defaultActivityTtlSeconds awayIdleSeconds) run ↔
      Along (fun _ event => event.Ordered) (.new defaultActivityTtlSeconds awayIdleSeconds)
        run := by
  have hnew : AllLimited (.new defaultActivityTtlSeconds awayIdleSeconds) := by
    refine ⟨?_, ?_⟩
    · intro r hr
      cases hr
    · intro e he
      cases he
  refine h.throughout_iff (J := fun m => m.activityTtl = defaultActivityTtlSeconds) ?_ ?_ rfl hnew
  · intro m event m' httl hstep
    exact (applies_activityTtl hstep).trans httl
  · intro m event m' httl hm hstep
    exact applies_allLimited_iff httl hm hstep

def deskPayload (ttlSeconds : Double) : Fields :=
  [(str "present", .bool true), (str "source", .str (str "desk")),
    (str "ttl_seconds", .float ttlSeconds)]

/-- The store after the desk said so at 100. -/
def deskStore (ttlSeconds : Double) : SignalMailbox :=
  ((SignalMailbox.new defaultActivityTtlSeconds defaultAwayIdleSeconds).post
    (.presence (str "desk") true ttlSeconds 100)).1

/-- An accepted payload of the desk, as one step. -/
theorem desk_accepted (given stored : Double)
    (h : presencePost (deskPayload given) 100 = .ok (.presence (str "desk") true stored 100)) :
    Trace Applies (.new defaultActivityTtlSeconds defaultAwayIdleSeconds)
      [(.accept (deskPayload given) 100, deskStore stored)] (deskStore stored) :=
  .single (.accept h)

/-- Infinity is cut to the maximum. -/
theorem presence_records_limited_iff_infinite :
    Throughout AllLimited (.new defaultActivityTtlSeconds defaultAwayIdleSeconds)
      [(MailboxEvent.accept (deskPayload .posInf) 100, deskStore maxTtlSeconds)] :=
  (presence_records_limited_iff defaultAwayIdleSeconds
    (desk_accepted .posInf maxTtlSeconds rfl)).mpr ⟨by decide +kernel, trivial⟩

/-- A NaN passes the check for a positive number and the minimum, and is never exceeded. -/
theorem nan_ttl_never_expires :
    ¬ ∀ (awayIdleSeconds : Double) (run : List (MailboxEvent × SignalMailbox)) (m : SignalMailbox),
      Trace Applies (.new defaultActivityTtlSeconds awayIdleSeconds) run m → AllLimited m := by
  intro h
  have hlimited := h defaultAwayIdleSeconds _ _ (desk_accepted .nan .nan rfl)
  have hmem : ⟨str "desk", ⟨true, 100, .nan⟩⟩ ∈ (deskStore .nan).presence.entries :=
    List.mem_cons_self
  exact absurd (hlimited.presence _ hmem).positive (by decide)

end Hologotchi.Control
