import Hologotchi.Presence.Log
import Hologotchi.Doubles

/-! When the fused view next changes by itself (`next_expiry_at` in `host/presence.py`), on a clock
whose sums and differences round like those of all floats. -/
namespace Hologotchi.Presence

open Python Library

/-- What the records of both kinds share. -/
structure Lifetime where
  receivedAt : ℚ
  ttlSeconds : Double

def ActivityRecord.lifetime (r : ActivityRecord) : Lifetime := ⟨r.receivedAt, r.ttlSeconds⟩
def PresenceRecord.lifetime (r : PresenceRecord) : Lifetime := ⟨r.receivedAt, r.ttlSeconds⟩

/-- The records the loop of `next_expiry_at` goes through, `values` being those of the explicit
sources in the order the dictionary has them. -/
def SignalMailbox.lifetimes (m : SignalMailbox) (values : List PresenceRecord) : List Lifetime :=
  values.map PresenceRecord.lifetime ++ m.activity.toList.map ActivityRecord.lifetime

end Hologotchi.Presence

namespace Hologotchi.Presence.Rounded

open Python Library

/-- `now - self.received_at > self.ttl_seconds`. -/
def expired (now : ℚ) (r : Lifetime) : Bool := r.ttlSeconds.lt (.round (now - r.receivedAt))

/-- `record.received_at + record.ttl_seconds`. -/
def expiry (r : Lifetime) : Double :=
  match r.ttlSeconds with
  | .finite q => .round (r.receivedAt + q)
  | special => special

/-- The loop of `next_expiry_at`. -/
def soonest (now : ℚ) : Option Double → List Lifetime → Option Double
  | found, [] => found
  | found, r :: rs =>
    if expired now r then soonest now found rs
    else if found.all fun s => (expiry r).lt s then soonest now (some (expiry r)) rs
    else soonest now found rs

def nextExpiryAt (m : SignalMailbox) (values : List PresenceRecord) (now : ℚ) : Option Double :=
  soonest now none (m.lifetimes values)

/-- The loop of `_fused_present` over the records. -/
def fuse (now : ℚ) (sawTrue : Bool) : List PresenceRecord → Option Bool
  | [] => if sawTrue then some true else none
  | r :: rs =>
    if expired now r.lifetime then fuse now sawTrue rs
    else if r.present = false then some false
    else fuse now true rs

def fusedPresent (m : SignalMailbox) (now : ℚ) : Option Bool :=
  fuse now false (m.presence.entries.map (·.2))

/-- `_prune`: forget what has expired. -/
def prune (m : SignalMailbox) (now : ℚ) : SignalMailbox :=
  { m with
    activity := m.activity.filter fun r => !expired now r.lifetime
    presence := Expiring.prune (fun r => expired now r.lifetime) m.presence }

/-- The fused view; reading it prunes. -/
def get (m : SignalMailbox) (now : ℚ) : SignalMailbox × PresenceSignals :=
  let m := prune m now
  let signals := m.activity.map (·.signals)
  (m, {
    idleSeconds := signals.bind (·.idleSeconds)
    screenLocked := signals.bind (·.screenLocked)
    foregroundApp := signals.bind (·.foregroundApp)
    present := fusedPresent m now })

def view (m : SignalMailbox) (now : ℚ) : PresenceSignals := (get m now).2

/-- What one source adds to the fused view. -/
def contribution (m : SignalMailbox) (now : ℚ) : Source → Option Contribution
  | .activity =>
    (m.activity.filter fun r => !expired now r.lifetime).map fun r => .signals r.signals
  | .explicit source =>
    ((m.presence.lookup source).filter fun r => !expired now r.lifetime).map
      fun r => .present r.present

/-- Everything in the records is a float. -/
def AllFloats (rs : List Lifetime) : Prop := ∀ r ∈ rs, IsFloat r.receivedAt ∧ r.ttlSeconds.Valid

/-- After the announced expiry something that counted does not count any more. -/
def EndsAtExpiry (m : SignalMailbox) (values : List PresenceRecord) (now : ℚ) : Prop :=
  ∀ e ∈ nextExpiryAt m values now, ∃ source, (contribution m now source).isSome ∧
    ∀ t, IsFloat t → e.lt (.finite t) = true → contribution m t source = none

/-- Neither the stamp nor the TTL is below zero. -/
def Nonnegative (r : Lifetime) : Prop :=
  0 ≤ r.receivedAt ∧ r.ttlSeconds.lt (.finite 0) = false

/-- If the TTL is longer than the stamp, no later float is as near to the sum as the expiry. -/
def Untied (r : Lifetime) : Prop :=
  ∀ q e t, r.ttlSeconds = .finite q → r.receivedAt < q → expiry r = .finite e → IsFloat t → e < t →
    r.receivedAt + q - e < t - (r.receivedAt + q)

/-- A record that counts and expires when it is announced. -/
def Due (m : SignalMailbox) (values : List PresenceRecord) (now : ℚ) (r : Lifetime) : Prop :=
  r ∈ m.lifetimes values ∧ expired now r = false ∧ nextExpiryAt m values now = some (expiry r)

variable {now t : ℚ} {found : Option Double} {rs : List Lifetime} {e : Double}

/-- The loop ends with what it had found or with the expiry of a live record. -/
theorem soonest_from (h : soonest now found rs = some e) :
    found = some e ∨ ∃ r ∈ rs, expired now r = false ∧ expiry r = e := by
  fun_induction soonest now found rs with
  | case1 => exact .inl h
  | case2 found r rs hexpired ih =>
    rcases ih h with hfound | ⟨s, hs, hsoon⟩
    · exact .inl hfound
    · exact .inr ⟨s, List.mem_cons_of_mem _ hs, hsoon⟩
  | case3 found r rs hnot hsooner ih =>
    have hlive : expired now r = false := by simpa using hnot
    rcases ih h with hfound | ⟨s, hs, hsoon⟩
    · exact .inr ⟨r, List.mem_cons_self, hlive, Option.some.inj hfound⟩
    · exact .inr ⟨s, List.mem_cons_of_mem _ hs, hsoon⟩
  | case4 found r rs hnot hlater ih =>
    rcases ih h with hfound | ⟨s, hs, hsoon⟩
    · exact .inl hfound
    · exact .inr ⟨s, List.mem_cons_of_mem _ hs, hsoon⟩

variable {m : SignalMailbox} {values records : List PresenceRecord} {b : Bool}

theorem mem_values (hvalues : values.Perm (m.presence.entries.map (·.2))) {p : PresenceRecord} :
    p ∈ values ↔ ∃ source, m.presence.lookup source = some p := by
  rw [hvalues.mem_iff, List.mem_map]
  constructor
  · rintro ⟨e, he, rfl⟩
    exact ⟨e.1, AList.mem_lookup_iff.mpr he⟩
  · rintro ⟨source, hp⟩
    exact ⟨⟨source, p⟩, AList.mem_lookup_iff.mp hp, rfl⟩

theorem mem_lifetimes (hvalues : values.Perm (m.presence.entries.map (·.2))) {r : Lifetime} :
    r ∈ m.lifetimes values ↔
      (∃ source p, m.presence.lookup source = some p ∧ p.lifetime = r) ∨
        ∃ a, m.activity = some a ∧ a.lifetime = r := by
  simp only [SignalMailbox.lifetimes, List.mem_append, List.mem_map, mem_values hvalues,
    Option.mem_toList]
  refine or_congr_left ?_
  constructor
  · rintro ⟨p, ⟨source, hp⟩, hr⟩
    exact ⟨source, p, hp, hr⟩
  · rintro ⟨source, p, hp, hr⟩
    exact ⟨p, ⟨source, hp⟩, hr⟩

/-- What is forgotten depends on the lifetimes alone. -/
theorem filter_congr (hvalues : values.Perm (m.presence.entries.map (·.2)))
    {gone gone' : Lifetime → Bool} (h : ∀ r ∈ m.lifetimes values, gone r = gone' r) :
    (m.activity.filter fun a => !gone a.lifetime) = (m.activity.filter fun a => !gone' a.lifetime) ∧
      m.presence.entries.filter (fun e => !gone e.2.lifetime) =
        m.presence.entries.filter fun e => !gone' e.2.lifetime := by
  constructor
  · cases ha : m.activity with
    | none => rfl
    | some a =>
      have hgone := h _ ((mem_lifetimes hvalues).mpr (.inr ⟨a, ha, rfl⟩))
      simp [Option.filter, hgone]
  · refine List.filter_congr ?_
    intro e he
    rw [h _ ((mem_lifetimes hvalues).mpr (.inl ⟨e.1, e.2, AList.mem_lookup_iff.mpr he, rfl⟩))]

/-- What `_fused_present` goes through after pruning. -/
theorem lifetime_mem_pruned (hvalues : values.Perm (m.presence.entries.map (·.2)))
    {p : PresenceRecord} (hp : p ∈ (prune m now).presence.entries.map (·.2)) :
    p.lifetime ∈ m.lifetimes values := by
  obtain ⟨e, he, rfl⟩ := List.mem_map.mp hp
  have hmem := List.mem_of_mem_filter he
  exact (mem_lifetimes hvalues).mpr (.inl ⟨e.1, e.2, AList.mem_lookup_iff.mpr hmem, rfl⟩)

/-- Where every difference is a float, the store does what it does in exact arithmetic. -/
theorem get_of_exact (hvalues : values.Perm (m.presence.entries.map (·.2)))
    (hexact : ∀ r ∈ m.lifetimes values, IsFloat (now - r.receivedAt)) : get m now = m.get now := by
  have hexpired : ∀ r ∈ m.lifetimes values,
      expired now r = r.ttlSeconds.lt (.finite (now - r.receivedAt)) := by
    intro r hr
    rw [expired, round_of_isFloat (hexact r hr)]
  have hfuse : ∀ (records : List PresenceRecord) b,
      (∀ p ∈ records, expired now p.lifetime = p.expired now) →
        fuse now b records = Presence.fuse now b records := by
    intro records
    induction records with
    | nil => exact fun b _ => rfl
    | cons p records ih =>
      intro b h
      obtain ⟨hp, hrest⟩ := List.forall_mem_cons.mp h
      rw [fuse, Presence.fuse, hp, ih _ hrest, ih _ hrest]
  have hprune : prune m now = m.prune now := by
    obtain ⟨hactivity, hentries⟩ := filter_congr hvalues hexpired
    simp only [prune, Expiring.prune, hactivity, hentries]
    rfl
  have hfused : fusedPresent (prune m now) now = (prune m now).fusedPresent now :=
    hfuse _ _ fun p hp => hexpired _ (lifetime_mem_pruned hvalues hp)
  rw [hprune] at hfused
  simp only [get, SignalMailbox.get, hprune, hfused]

/-- After its expiry a record does not count. -/
theorem expired_after {r : Lifetime} (hclock : IsFloat r.receivedAt) (hvalid : r.ttlSeconds.Valid)
    (hsign : Nonnegative r) (hexact : Untied r) (hfloat : IsFloat t)
    (ht : (expiry r).lt (.finite t) = true) : expired t r = true := by
  obtain ⟨receivedAt, ttl⟩ := r
  obtain ⟨hpos, httl⟩ := hsign
  cases ttl with
  | nan => simp [expiry, Double.lt] at ht
  | posInf => simp [expiry, Double.lt] at ht
  | negInf => simp [Double.lt] at httl
  | finite q =>
    have hq : 0 ≤ q := by simpa [Double.lt] using httl
    have hsum : expiry ⟨receivedAt, .finite q⟩ = .round (receivedAt + q) := rfl
    have hqe := round_le_round (show q ≤ receivedAt + q from le_add_of_nonneg_left hpos)
    rw [round_of_isFloat hvalid] at hqe
    cases he : Double.round (receivedAt + q) with
    | nan => simp [hsum, he, Double.lt] at ht
    | posInf => simp [hsum, he, Double.lt] at ht
    | negInf => simp [he, Double.le] at hqe
    | finite e =>
      have hlt : e < t := by simpa [hsum, he, Double.lt] using ht
      rcases le_or_gt q receivedAt with hshort | hlong
      · exact lt_round_of_rounded_sum hclock hvalid hq hshort hfloat he hlt
      · have hfurther := hexact q e t rfl hlong he hfloat hlt
        have hrounded := valid_round (receivedAt + q)
        rw [he] at hqe hrounded
        have hle : q ≤ e := by simpa [Double.le] using hqe
        exact lt_round_of_gap hrounded hfloat hlt hq hle (by simp only; linarith)

theorem contribution_isSome {r : Lifetime} (hvalues : values.Perm (m.presence.entries.map (·.2)))
    (hr : r ∈ m.lifetimes values) : ∃ source, ∀ t, (contribution m t source).isSome =
      !expired t r := by
  rcases (mem_lifetimes hvalues).mp hr with ⟨source, p, hp, rfl⟩ | ⟨a, ha, rfl⟩
  · refine ⟨.explicit source, ?_⟩
    intro t
    cases h : expired t p.lifetime <;> simp [contribution, hp, h]
  · refine ⟨.activity, ?_⟩
    intro t
    cases h : expired t a.lifetime <;> simp [contribution, ha, h]

theorem exists_due (h : nextExpiryAt m values now = some e) :
    ∃ r, Due m values now r ∧ expiry r = e := by
  obtain ⟨r, hr, hlive, rfl⟩ := (soonest_from h).resolve_left (by simp)
  exact ⟨r, ⟨hr, hlive, h⟩, rfl⟩

theorem endsAtExpiry_of_due {r : Lifetime} (hvalues : values.Perm (m.presence.entries.map (·.2)))
    (hfloats : AllFloats (m.lifetimes values)) (hdue : Due m values now r) (hsign : Nonnegative r)
    (hexact : Untied r) : EndsAtExpiry m values now := by
  obtain ⟨hr, hlive, hnext⟩ := hdue
  intro e he
  obtain rfl : expiry r = e := Option.some.inj (hnext.symm.trans he)
  obtain ⟨source, hsource⟩ := contribution_isSome hvalues hr
  refine ⟨source, by rw [hsource, hlive]; rfl, ?_⟩
  intro t hfloat ht
  obtain ⟨hclock, hvalid⟩ := hfloats r hr
  have hgone := hsource t
  rw [expired_after hclock hvalid hsign hexact hfloat ht] at hgone
  exact Option.not_isSome_iff_eq_none.mp (by simp [hgone])

/-- On a clock that reads more than any TTL the announced expiry is never too early. -/
theorem endsAtExpiry_of_clock (hvalues : values.Perm (m.presence.entries.map (·.2)))
    (hfloats : AllFloats (m.lifetimes values))
    (hclock : ∀ r ∈ m.lifetimes values,
      Nonnegative r ∧ ∀ q, r.ttlSeconds = .finite q → q ≤ r.receivedAt) :
    EndsAtExpiry m values now := by
  intro e he
  obtain ⟨r, hdue, -⟩ := exists_due he
  obtain ⟨hsign, hshort⟩ := hclock r hdue.1
  have hexact : Untied r := fun q _ _ hq hlong => absurd (hshort q hq) (not_le.mpr hlong)
  exact endsAtExpiry_of_due hvalues hfloats hdue hsign hexact e he

end Hologotchi.Presence.Rounded
