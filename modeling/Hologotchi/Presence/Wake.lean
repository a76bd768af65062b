import Hologotchi.Presence.Log
import Hologotchi.Presence.Tracker

/-! When a post that changes the tracker's classification wakes the loop. -/
namespace Hologotchi.Presence

open Python Library Expiring

/-- All that is fresh is the name of a foreground app. -/
def ForegroundOnly (v : PresenceSignals) : Prop :=
  v.present = none ∧ v.screenLocked = none ∧ v.idleSeconds = none ∧ v.foregroundApp ≠ none

instance : DecidablePred ForegroundOnly := fun v =>
  inferInstanceAs (Decidable (_ ∧ _ ∧ _ ∧ v.foregroundApp ≠ none))

/-- The post reports a change whenever it changes the classification at its stamp. -/
def WakesOnChange (k : PresenceTracker) (m : SignalMailbox) (p : Post) : Prop :=
  k.classify p.now (m.view p.now) ≠ k.classify p.now ((m.post p).1.view p.now) →
    (m.post p).2 = true

/-- What an activity record still says about the owner. -/
def heldActivity (now : ℚ) (activity : Option ActivityRecord) : PresenceSignals :=
  let signals := (live ActivityRecord.expired now activity).map (·.signals)
  { idleSeconds := signals.bind (·.idleSeconds)
    screenLocked := signals.bind (·.screenLocked)
    foregroundApp := signals.bind (·.foregroundApp)
    present := none }

/-- A lone foreground app gives way to an owner who is there, or takes the place of one. -/
def ForegroundFlip (k : PresenceTracker) (m : SignalMailbox) : Post → Prop
  | .activity signals ttlSeconds now =>
    let held := heldActivity now m.activity
    let posted := heldActivity now (some ⟨signals, now, ttlSeconds.getD m.activityTtl⟩)
    m.fusedPresent now = none ∧
      ((ForegroundOnly held ∧ k.classify now posted = .presentIgnoring) ∨
        (k.classify now held = .presentIgnoring ∧ ForegroundOnly posted))
  | .presence source present ttlSeconds now =>
    ForegroundOnly (heldActivity now m.activity) ∧
      ((m.fusedPresent now = none ∧ present = true ∧ ttlSeconds.lt (.finite 0) = false) ∨
        -- A post that is stale on arrival takes back the only word of its source.
        (m.fusedPresent now = some true ∧ ttlSeconds.lt (.finite 0) = true ∧
          ∀ e ∈ m.presence.entries, e.1 ≠ source → e.2.expired now = true))

instance (k : PresenceTracker) (m : SignalMailbox) : (p : Post) → Decidable (ForegroundFlip k m p)
  | .activity _ _ _ => inferInstanceAs (Decidable (_ ∧ ((_ ∧ _) ∨ (_ ∧ _))))
  | .presence _ _ _ _ => inferInstanceAs (Decidable (_ ∧ ((_ ∧ _ ∧ _) ∨ (_ ∧ _ ∧ _))))

/-- On one side of the post there is only a foreground app, on the other the owner is there. -/
def FlipsView (k : PresenceTracker) (m : SignalMailbox) (p : Post) : Prop :=
  (ForegroundOnly (m.view p.now) ∧
    k.classify p.now ((m.post p).1.view p.now) = .presentIgnoring) ∨
  (k.classify p.now (m.view p.now) = .presentIgnoring ∧
    ForegroundOnly ((m.post p).1.view p.now))

variable {k : PresenceTracker} {m : SignalMailbox} {p : Post} {now : ℚ} {v w : PresenceSignals}
  {a : Option ActivityRecord} {ttl away : Double} {calls : List Call}

/-- What the classification and the coarse label have in common. -/
theorem classify_coarse (k : PresenceTracker) (h : k.isEngaged now = false) (v : PresenceSignals) :
    (ForegroundOnly v ∧ k.classify now v = .away ∧
        coarse (.finite k.config.awayIdleSeconds) v = some .present) ∨
      (¬ ForegroundOnly v ∧ ((k.classify now v = .presentIgnoring ∧
          coarse (.finite k.config.awayIdleSeconds) v = some .present) ∨
        (k.classify now v = .away ∧
          coarse (.finite k.config.awayIdleSeconds) v ≠ some .present))) := by
  simp only [PresenceTracker.classify, coarse, ForegroundOnly]
  rw [h]
  cases hp : v.present with
  | some b => cases b <;> simp
  | none =>
    cases hl : v.screenLocked with
    | some locked =>
      cases locked with
      | true => simp
      | false =>
        cases hi : v.idleSeconds with
        | none => simp
        | some idle => by_cases hle : (Double.finite k.config.awayIdleSeconds).le idle <;> simp [hle]
    | none =>
      cases hi : v.idleSeconds with
      | none => by_cases ha : v.foregroundApp = none <;> simp [ha]
      | some idle => by_cases hle : (Double.finite k.config.awayIdleSeconds).le idle <;> simp [hle]

theorem post_changed (m : SignalMailbox) (p : Post) : (m.post p).2 =
    (coarse m.awayIdleSeconds (m.view p.now) !=
      coarse m.awayIdleSeconds ((m.post p).1.view p.now)) := by
  have haway : (m.post p).1.awayIdleSeconds = m.awayIdleSeconds := by cases p <;> rfl
  have hchanged : (m.post p).2 =
      (m.coarsePresence p.now != (m.post p).1.coarsePresence p.now) := by
    cases p <;> rfl
  rw [hchanged, coarsePresence_eq, coarsePresence_eq, haway]

theorem wakes_iff_flipsView (h : k.isEngaged p.now = false)
    (hsame : m.awayIdleSeconds = .finite k.config.awayIdleSeconds) :
    WakesOnChange k m p ↔ ¬ FlipsView k m p := by
  simp only [WakesOnChange, FlipsView]
  rw [post_changed, hsame, bne_iff_ne]
  have hbefore := classify_coarse k h (m.view p.now)
  have hafter := classify_coarse k h ((m.post p).1.view p.now)
  rcases hbefore with ⟨hf, hc, hl⟩ | ⟨hf, ⟨hc, hl⟩ | ⟨hc, hl⟩⟩
  · rcases hafter with ⟨hf', hc', hl'⟩ | ⟨hf', ⟨hc', hl'⟩ | ⟨hc', hl'⟩⟩
    · simp [hf, hc, hl, hc']
    · simp [hf, hc, hl, hc', hl']
    · simp [hf, hc, hc', hf']
  · rcases hafter with ⟨hf', hc', hl'⟩ | ⟨hf', ⟨hc', hl'⟩ | ⟨hc', hl'⟩⟩
    · simp [hc, hl, hc', hl', hf']
    · simp [hf, hc, hc', hf']
    · simp [hf, hc, hl, hc', hf', Ne.symm hl']
  · rcases hafter with ⟨hf', hc', hl'⟩ | ⟨hf', ⟨hc', hl'⟩ | ⟨hc', hl'⟩⟩
    · simp [hc, hc', hf]
    · simp [hf, hc, hl, hc', hl', hf']
    · simp [hf, hc, hc', hf']

/-- Activity with explicit presence beside it. -/
def PresenceSignals.withPresent (v : PresenceSignals) (present : Option Bool) : PresenceSignals :=
  { v with present := present }

theorem view_eq (m : SignalMailbox) (now : ℚ) :
    m.view now = (heldActivity now m.activity).withPresent (m.fusedPresent now) := by
  rw [← get_present]
  rfl

theorem foregroundOnly_withPresent {present : Option Bool} :
    ForegroundOnly ((heldActivity now a).withPresent present) ↔
      present = none ∧ ForegroundOnly (heldActivity now a) := by
  simp [ForegroundOnly, heldActivity, PresenceSignals.withPresent]

/-- Explicit presence speaks first. -/
theorem classify_withPresent (h : k.isEngaged now = false) {present : Option Bool} :
    k.classify now ((heldActivity now a).withPresent present) = .presentIgnoring ↔
      present = some true ∨
        present = none ∧ k.classify now (heldActivity now a) = .presentIgnoring := by
  cases present with
  | none => simp [heldActivity, PresenceSignals.withPresent]
  | some b => cases b <;> simp [PresenceTracker.classify, PresenceSignals.withPresent, h]

theorem foregroundOnly_classify (hf : ForegroundOnly v) (h : k.isEngaged now = false) :
    k.classify now v ≠ .presentIgnoring := by
  obtain ⟨hp, hl, hi, -⟩ := hf
  simp [PresenceTracker.classify, h, hp, hl, hi]

theorem fusedPresent_eq_none : m.fusedPresent now = none ↔
    ∀ source, live PresenceRecord.expired now (m.presence.lookup source) = none := by
  have hfused : ∀ absent present : Prop, [Decidable absent] → [Decidable present] →
      (fused absent present = none ↔ ¬ absent ∧ ¬ present) := by
    intro absent present _ _
    by_cases ha : absent <;> simp [fused, ha]
  rw [fusedPresent_eq, hfused, says_iff_lookup, says_iff_lookup]
  constructor
  · rintro ⟨hfalse, htrue⟩ source
    cases hlive : live PresenceRecord.expired now (m.presence.lookup source) with
    | none => rfl
    | some r =>
      cases hr : r.present with
      | false => exact absurd ⟨source, r, hlive, hr⟩ hfalse
      | true => exact absurd ⟨source, r, hlive, hr⟩ htrue
  · intro h
    constructor
    · rintro ⟨source, r, hlive, -⟩
      rw [h source] at hlive
      contradiction
    · rintro ⟨source, r, hlive, -⟩
      rw [h source] at hlive
      contradiction

theorem others_expired {source : Str} :
    (∀ e ∈ m.presence.entries, e.1 ≠ source → e.2.expired now = true) ↔
      ∀ key, key ≠ source →
        live PresenceRecord.expired now (m.presence.lookup key) = none :=
  forall_entries_gone (P := fun key => key ≠ source)

/-- The store after a presence post. -/
def SignalMailbox.withPresence (m : SignalMailbox) (source : Str) (r : PresenceRecord) :
    SignalMailbox :=
  { m with presence := m.presence.insert source r }

theorem withPresence_eq_none {source : Str} {r : PresenceRecord} :
    (m.withPresence source r).fusedPresent now = none ↔
      r.expired now = true ∧
        ∀ e ∈ m.presence.entries, e.1 ≠ source → e.2.expired now = true := by
  rw [fusedPresent_eq_none, others_expired]
  constructor
  · intro hnone
    constructor
    · have hsource := hnone source
      rw [SignalMailbox.withPresence, AList.lookup_insert] at hsource
      exact live_eq_none.mp hsource r rfl
    · intro key hkey
      have hother := hnone key
      rwa [SignalMailbox.withPresence, AList.lookup_insert_ne hkey] at hother
  · rintro ⟨hr, hothers⟩ key
    by_cases hkey : key = source
    · subst hkey
      simp [SignalMailbox.withPresence, live, hr]
    · rw [SignalMailbox.withPresence, AList.lookup_insert_ne hkey]
      exact hothers key hkey

theorem withPresence_of_none {source : Str} {r : PresenceRecord} (hm : m.fusedPresent now = none)
    (hr : r.expired now = false) :
    (m.withPresence source r).fusedPresent now = some r.present := by
  have hnone := fusedPresent_eq_none.mp hm
  have hspeaks : ∀ b, Says now ((m.withPresence source r).presence.entries.map (·.2)) b ↔
      r.present = b := by
    intro b
    rw [says_iff_lookup]
    constructor
    · rintro ⟨key, r', hlive, hb⟩
      by_cases hkey : key = source
      · subst hkey
        rw [SignalMailbox.withPresence, AList.lookup_insert, live_eq_some] at hlive
        obtain ⟨rfl⟩ := hlive.1
        exact hb
      · rw [SignalMailbox.withPresence, AList.lookup_insert_ne hkey, hnone key] at hlive
        contradiction
    · intro hb
      refine ⟨source, r, ?_, hb⟩
      rw [SignalMailbox.withPresence, AList.lookup_insert]
      exact live_eq_some.mpr ⟨rfl, hr⟩
  rw [fusedPresent_eq, fused_congr (hspeaks false) (hspeaks true)]
  cases hp : r.present with
  | false => rfl
  | true => rfl

theorem expired_on_arrival {present : Bool} {ttlSeconds : Double} :
    PresenceRecord.expired now ⟨present, now, ttlSeconds⟩ = ttlSeconds.lt (.finite 0) := by
  rw [PresenceRecord.expired, sub_self]

theorem withPresence_eq_some_true {source : Str} {present : Bool} {ttlSeconds : Double}
    (hm : m.fusedPresent now = none) :
    (m.withPresence source ⟨present, now, ttlSeconds⟩).fusedPresent now = some true ↔
      present = true ∧ ttlSeconds.lt (.finite 0) = false := by
  cases hlt : ttlSeconds.lt (.finite 0) with
  | true =>
    have hothers := others_expired.mpr fun key (_ : key ≠ source) => fusedPresent_eq_none.mp hm key
    rw [withPresence_eq_none.mpr ⟨expired_on_arrival.trans hlt, hothers⟩]
    simp
  | false =>
    rw [withPresence_of_none hm (expired_on_arrival.trans hlt)]
    simp

theorem flipsView_iff (h : k.isEngaged p.now = false) : FlipsView k m p ↔ ForegroundFlip k m p := by
  cases p with
  | activity signals ttlSeconds now =>
    have hafter : (m.post (.activity signals ttlSeconds now)).1.view now =
        (heldActivity now (some ⟨signals, now, ttlSeconds.getD m.activityTtl⟩)).withPresent
          (m.fusedPresent now) := view_eq _ now
    simp only [FlipsView, ForegroundFlip, Post.now] at h ⊢
    rw [hafter, view_eq, foregroundOnly_withPresent, foregroundOnly_withPresent,
      classify_withPresent h, classify_withPresent h]
    cases m.fusedPresent now with
    | none => simp
    | some b => simp
  | presence source present ttlSeconds now =>
    have hafter : (m.post (.presence source present ttlSeconds now)).1.view now =
        (heldActivity now m.activity).withPresent
          ((m.withPresence source ⟨present, now, ttlSeconds⟩).fusedPresent now) := view_eq _ now
    simp only [FlipsView, ForegroundFlip, Post.now] at h ⊢
    rw [hafter, view_eq, foregroundOnly_withPresent, foregroundOnly_withPresent,
      classify_withPresent h, classify_withPresent h, withPresence_eq_none, expired_on_arrival]
    by_cases hf : ForegroundOnly (heldActivity now m.activity)
    · have hc := foregroundOnly_classify hf h
      simp only [hf, hc, and_true, and_false, or_false, true_and]
      apply or_congr
      · apply and_congr_right
        intro hm
        exact withPresence_eq_some_true hm
      · exact Iff.rfl
    · simp [hf]

theorem wakes_iff (h : k.isEngaged p.now = false)
    (hsame : m.awayIdleSeconds = .finite k.config.awayIdleSeconds) :
    WakesOnChange k m p ↔ ¬ ForegroundFlip k m p := by
  rw [wakes_iff_flipsView h hsame, flipsView_iff h]

theorem awayIdleSeconds_run (ttl away : Double) (calls : List Call) :
    (finalState SignalMailbox.call (.new ttl away) calls).awayIdleSeconds = away := by
  apply finalState_invariant (P := fun m : SignalMailbox => m.awayIdleSeconds = away)
  · intro m c hm
    cases c with
    | get now => exact hm
    | post p => cases p <;> exact hm
  · rfl

/-- In any state a run reaches, exactly the flips against a lone foreground app go unreported. -/
theorem wakes_on_change_iff (ttl : Double) (k : PresenceTracker) (calls : List Call) (p : Post)
    (h : k.isEngaged p.now = false) :
    WakesOnChange k (finalState SignalMailbox.call
        (.new ttl (.finite k.config.awayIdleSeconds)) calls) p ↔
      ¬ ForegroundFlip k (finalState SignalMailbox.call
        (.new ttl (.finite k.config.awayIdleSeconds)) calls) p :=
  wakes_iff h (awayIdleSeconds_run ttl _ calls)

/-- Coming back from idle wakes the loop. -/
theorem wakes_on_change_iff_idle :
    WakesOnChange {} (finalState SignalMailbox.call (.new defaultActivityTtlSeconds (.finite 300))
        [.post (.activity { idleSeconds := some (.finite 600) } none 100)])
      (.activity { idleSeconds := some (.finite 5) } none 130) :=
  (wakes_on_change_iff defaultActivityTtlSeconds {}
    [.post (.activity { idleSeconds := some (.finite 600) } none 100)]
    (.activity { idleSeconds := some (.finite 5) } none 130) (by decide +kernel)).mpr
    (by decide +kernel)

/-- With only a foreground app known, an arriving owner is not noticed. -/
theorem wakes_on_change_fails :
    ¬ ∀ (ttl : Double) (k : PresenceTracker) (calls : List Call) (p : Post),
      k.isEngaged p.now = false → ((calls ++ [Call.post p]).map Call.now).Pairwise (· ≤ ·) →
      WakesOnChange k (finalState SignalMailbox.call
        (.new ttl (.finite k.config.awayIdleSeconds)) calls) p := by
  intro h
  have hwakes := h defaultActivityTtlSeconds {}
    [.post (.activity { foregroundApp := some (str "Code") } none 100)]
    (.presence (str "airpods") true defaultPresenceTtlSeconds 101) (by decide +kernel)
    (by decide +kernel)
  revert hwakes
  simp only [WakesOnChange]
  decide +kernel

end Hologotchi.Presence
