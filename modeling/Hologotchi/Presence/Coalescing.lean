import Hologotchi.Inputs
import Hologotchi.Library.Transitions
import Hologotchi.Presence.Log

/-! Posters and the loop around the mailbox and the input queue: the presence signals are
coalesced, and no change is left without one. -/
namespace Hologotchi.Presence.Coalescing

open Python Library Inputs

variable {ι : Type*}

/-- Where a `/presence` request stands. -/
inductive Poster
  | idle
  /-- The mailbox said that the post changed something. -/
  | changed
  /-- The flag is set, the item not yet put. -/
  | claimed (item : HostInput)

/-- Where `run_pet_loop` stands. -/
inductive Loop
  | atRead (pending : Option HostInput)
  | waiting
  /-- An item was dequeued and `_consume` has not run. -/
  | took (item : HostInput)

structure State (ι : Type*) where
  mailbox : SignalMailbox := {}
  queue : HostInputQueue := {}
  poster : ι → Poster := fun _ => .idle
  loop : Loop

/-- The loop starts with an event of its own. -/
def initial (mailbox : SignalMailbox) (initialEvent : Str) : State ι where
  mailbox := mailbox
  loop := .atRead (some ⟨str "initial", str "initial", initialEvent, none⟩)

inductive Label (ι : Type*)
  | post (i : ι) (p : Post)
  | claim (i : ι)
  | put (i : ι)
  | otherId
  | otherPut (item : HostInput)
  | dequeue
  | timeout
  | consume
  | read (now : ℚ)

def Label.NotRead (a : Label ι) : Prop := ∀ now, a ≠ .read now

def IsSignal (item : HostInput) : Prop := item.source = str presenceSignalSource

instance : DecidablePred IsSignal := fun item =>
  inferInstanceAs (Decidable (item.source = str presenceSignalSource))

def Poster.afterPost (changed : Bool) : Poster := if changed then .changed else .idle

/-- A request that finds a signal pending is done. -/
def Poster.afterClaim : Option HostInput → Poster
  | none => .idle
  | some item => .claimed item

namespace State

def setMailbox (s : State ι) (mailbox : SignalMailbox) : State ι := { s with mailbox := mailbox }
def setQueue (s : State ι) (queue : HostInputQueue) : State ι := { s with queue := queue }
def setLoop (s : State ι) (phase : Loop) : State ι := { s with loop := phase }

def setPoster [DecidableEq ι] (s : State ι) (i : ι) (phase : Poster) : State ι :=
  { s with poster := Function.update s.poster i phase }

end State

inductive Step [DecidableEq ι] : State ι → Label ι → State ι → Prop
  /-- The mailbox is updated under its lock. -/
  | post {s : State ι} {i : ι} (p : Post) (h : s.poster i = .idle) :
      Step s (.post i p) ((s.setPoster i (.afterPost (s.mailbox.post p).2)).setMailbox
        (s.mailbox.post p).1)
  | claim {s : State ι} {i : ι} (h : s.poster i = .changed) :
      Step s (.claim i) ((s.setPoster i (.afterClaim s.queue.claimPresenceSignal.1)).setQueue
        s.queue.claimPresenceSignal.2)
  | put {s : State ι} {i : ι} {item : HostInput} (h : s.poster i = .claimed item) :
      Step s (.put i) ((s.setPoster i .idle).setQueue (s.queue.enqueue item))
  /-- Any other submission takes an id, and puts its item later. -/
  | otherId {s : State ι} :
      Step s .otherId (s.setQueue { s.queue with nextId := s.queue.nextId + 1 })
  | otherPut {s : State ι} {item : HostInput} (h : ¬ IsSignal item) :
      Step s (.otherPut item) (s.setQueue (s.queue.enqueue item))
  | dequeue {s : State ι} {item : HostInput} {items : List HostInput} (hl : s.loop = .waiting)
      (hq : s.queue.items = item :: items) :
      Step s .dequeue ((s.setLoop (.took item)).setQueue { s.queue with items := items })
  | timeout {s : State ι} (hl : s.loop = .waiting) (hq : s.queue.items = []) :
      Step s .timeout (s.setLoop (.atRead none))
  | consume {s : State ι} {item : HostInput} (hl : s.loop = .took item) :
      Step s .consume ((s.setLoop (.atRead (some item))).setQueue (s.queue.consume item))
  /-- The loop reads the mailbox, and comes back for the next event. -/
  | read {s : State ι} {pending : Option HostInput} (now : ℚ) (hl : s.loop = .atRead pending) :
      Step s (.read now) ((s.setLoop .waiting).setMailbox (s.mailbox.get now).1)

/-- Where the one pending signal is. -/
inductive Place (ι : Type*)
  | nowhere
  | poster (i : ι)
  | queue
  | loop

/-- How many signals are in the queue. -/
def Place.queued : Place ι → ℕ
  | .queue => 1
  | .nowhere | .poster _ | .loop => 0

/-- The flag, the claims, the queue and the loop agree on where the signal is. -/
structure Located (s : State ι) (place : Place ι) : Prop where
  pending : s.queue.presencePending = true ↔ place ≠ .nowhere
  claimed : ∀ i item, s.poster i = .claimed item → place = .poster i ∧ IsSignal item
  holder : ∀ i, place = .poster i → ∃ item, s.poster i = .claimed item
  queued : s.queue.items.countP (IsSignal ·) = place.queued
  taken : (∃ item, s.loop = .took item ∧ IsSignal item) ↔ place = .loop

def Coalesced (s : State ι) : Prop := ∃ place, Located s place

/-- A signal is in the queue, about to be put, or taken and not followed by a read yet. -/
def Woken (s : State ι) : Prop :=
  (∃ item ∈ s.queue.items, IsSignal item) ∨
  (∃ i item, s.poster i = .claimed item) ∨
  ∃ item, IsSignal item ∧ (s.loop = .took item ∨ s.loop = .atRead (some item))

variable {s t u : State ι} {a : Label ι} {i j : ι} {place : Place ι} {item taken : HostInput}
  {phase : Poster} {run later : List (Label ι × State ι)}

theorem initial_located (mailbox : SignalMailbox) (initialEvent : Str) :
    Located (initial mailbox initialEvent : State ι) .nowhere := by
  constructor <;> simp [initial, Place.queued]

theorem claim_pending {q : HostInputQueue} (h : q.presencePending = true) :
    q.claimPresenceSignal = (none, q) := if_pos h

theorem claim_free {q : HostInputQueue} (h : q.presencePending = false) : ∃ item, IsSignal item ∧
    q.claimPresenceSignal =
      (some item, { q with presencePending := true, nextId := q.nextId + 1 }) :=
  ⟨presenceInput _, rfl, if_neg (by simp [h])⟩

theorem consume_signal {q : HostInputQueue} (h : IsSignal item) :
    q.consume item = { q with presencePending := false } := if_pos h

theorem consume_other {q : HostInputQueue} (h : ¬ IsSignal item) : q.consume item = q := if_neg h

/-- The mailbox, the ids and the events that are no signals do not matter. -/
theorem located_congr (h : Located s place) (hposter : t.poster = s.poster)
    (hpending : t.queue.presencePending = s.queue.presencePending)
    (hqueued : t.queue.items.countP (IsSignal ·) = s.queue.items.countP (IsSignal ·))
    (htaken : (∃ item, t.loop = .took item ∧ IsSignal item) ↔
      ∃ item, s.loop = .took item ∧ IsSignal item) : Located t place where
  pending := by rw [hpending]; exact h.pending
  claimed := by rw [hposter]; exact h.claimed
  holder := by rw [hposter]; exact h.holder
  queued := hqueued.trans h.queued
  taken := htaken.trans h.taken

theorem located_nowhere (h : Located s place) (hp : s.queue.presencePending = false) :
    place = .nowhere := by
  by_contra hne
  rw [h.pending.mpr hne] at hp
  contradiction

section Posters

variable [DecidableEq ι]

theorem setPoster_claimed : (s.setPoster i phase).poster j = .claimed item ↔
    (j = i ∧ phase = .claimed item) ∨ (j ≠ i ∧ s.poster j = .claimed item) := by
  by_cases h : j = i <;> simp [State.setPoster, h]

/-- A request that holds nothing before and after moves no signal. -/
theorem located_setPoster (h : Located s place) (hbefore : ∀ item, s.poster i ≠ .claimed item)
    (hafter : ∀ item, phase ≠ .claimed item) : Located (s.setPoster i phase) place := by
  obtain ⟨hpending, hclaimed, hholder, hqueued, htaken⟩ := h
  refine ⟨hpending, ?_, ?_, hqueued, htaken⟩
  · intro j item hj
    rcases setPoster_claimed.mp hj with ⟨-, hphase⟩ | ⟨-, hj⟩
    · exact (hafter item hphase).elim
    · exact hclaimed j item hj
  · intro j hj
    obtain ⟨item, hitem⟩ := hholder j hj
    have hne : j ≠ i := by
      rintro rfl
      exact hbefore item hitem
    exact ⟨item, setPoster_claimed.mpr (.inr ⟨hne, hitem⟩)⟩

/-- After the test-and-set there is a signal, whoever holds it. -/
theorem located_claim (h : Located s place) (hi : s.poster i = .changed) :
    ∃ place', place' ≠ .nowhere ∧ Located
      ((s.setPoster i (.afterClaim s.queue.claimPresenceSignal.1)).setQueue
        s.queue.claimPresenceSignal.2) place' := by
  cases hp : s.queue.presencePending with
  | true =>
    refine ⟨place, h.pending.mp hp, ?_⟩
    rw [claim_pending hp]
    exact located_setPoster h (by simp [hi]) (by simp [Poster.afterClaim])
  | false =>
    have hnowhere := located_nowhere h hp
    subst hnowhere
    obtain ⟨item, hsignal, hclaim⟩ := claim_free hp
    rw [hclaim]
    refine ⟨.poster i, by simp, ?_, ?_, ?_, ?_, ?_⟩
    · simp [State.setQueue]
    · intro j item' hj
      rcases setPoster_claimed.mp hj with ⟨rfl, hphase⟩ | ⟨-, hj⟩
      · injection hphase with hitem
        subst hitem
        exact ⟨rfl, hsignal⟩
      · cases (h.claimed j item' hj).1
    · intro j hj
      injection hj with hj
      subst hj
      exact ⟨item, setPoster_claimed.mpr (.inl ⟨rfl, rfl⟩)⟩
    · simpa [State.setQueue, Place.queued] using h.queued
    · simpa [State.setQueue, State.setPoster] using h.taken

theorem located_put (h : Located s place) (hi : s.poster i = .claimed item) :
    Located ((s.setPoster i .idle).setQueue (s.queue.enqueue item)) .queue := by
  obtain ⟨rfl, hsignal⟩ := h.claimed i item hi
  obtain ⟨hpending, hclaimed, -, hqueued, htaken⟩ := h
  refine ⟨?_, ?_, ?_, ?_, ?_⟩
  · simpa [State.setQueue, HostInputQueue.enqueue] using hpending
  · intro j item' hj
    rcases setPoster_claimed.mp hj with ⟨-, hphase⟩ | ⟨hne, hj⟩
    · contradiction
    · injection (hclaimed j item' hj).1 with heq
      exact (hne heq.symm).elim
  · intro j hj
    contradiction
  · simpa [State.setQueue, HostInputQueue.enqueue, hsignal, Place.queued] using hqueued
  · simpa [State.setQueue, State.setPoster] using htaken

end Posters

theorem located_dequeue {items : List HostInput} (h : Located s place) (hl : s.loop = .waiting)
    (hq : s.queue.items = item :: items) : ∃ place', Located
      ((s.setLoop (.took item)).setQueue { s.queue with items := items }) place' := by
  obtain ⟨hpending, hclaimed, hholder, hqueued, htaken⟩ := h
  have hnot : place ≠ .loop := by simpa [hl] using htaken
  rw [hq, List.countP_cons] at hqueued
  by_cases hsignal : IsSignal item
  · have hplace : place = .queue := by cases place <;> simp_all [Place.queued]
    subst hplace
    refine ⟨.loop, ?_, ?_, ?_, ?_, ?_⟩
    · simpa [State.setQueue] using hpending
    · intro j item' hj
      cases (hclaimed j item' hj).1
    · intro j hj
      contradiction
    · simpa [State.setQueue, Place.queued, hsignal] using hqueued
    · simp [State.setQueue, State.setLoop, hsignal]
  · refine ⟨place, hpending, hclaimed, hholder, ?_, ?_⟩
    · simpa [State.setQueue, hsignal] using hqueued
    · simp [State.setQueue, State.setLoop, hsignal, hnot]

theorem located_consume (h : Located s place) (hl : s.loop = .took item) : ∃ place',
    Located ((s.setLoop (.atRead (some item))).setQueue (s.queue.consume item)) place' := by
  obtain ⟨hpending, hclaimed, hholder, hqueued, htaken⟩ := h
  by_cases hsignal : IsSignal item
  · have hplace : place = .loop := htaken.mp ⟨item, hl, hsignal⟩
    subst hplace
    rw [consume_signal hsignal]
    refine ⟨.nowhere, ?_, ?_, ?_, ?_, ?_⟩
    · simp [State.setQueue]
    · intro j item' hj
      cases (hclaimed j item' hj).1
    · intro j hj
      contradiction
    · simpa [State.setQueue, Place.queued] using hqueued
    · simp [State.setQueue, State.setLoop]
  · have hnot : place ≠ .loop := by
      rintro rfl
      obtain ⟨taken, htook, hsignal'⟩ := htaken.mpr rfl
      simp_all
    rw [consume_other hsignal]
    exact ⟨place, hpending, hclaimed, hholder, hqueued, by simp [State.setQueue, State.setLoop, hnot]⟩

/-- Wherever the signal is, it is one that wakes. -/
theorem located_woken (h : Located s place) (hplace : place ≠ .nowhere) : Woken s := by
  cases place with
  | nowhere => contradiction
  | poster i =>
    obtain ⟨item, hitem⟩ := h.holder i rfl
    exact .inr (.inl ⟨i, item, hitem⟩)
  | queue =>
    have hpos : 0 < s.queue.items.countP (IsSignal ·) := by simp [h.queued, Place.queued]
    obtain ⟨item, hmem, hsignal⟩ := List.countP_pos_iff.mp hpos
    exact .inl ⟨item, hmem, by simpa using hsignal⟩
  | loop =>
    obtain ⟨item, htook, hsignal⟩ := h.taken.mpr rfl
    exact .inr (.inr ⟨item, hsignal, .inl htook⟩)

variable [DecidableEq ι]

theorem step_located (hs : Step s a t) (h : Located s place) : Coalesced t := by
  cases hs with
  | post p hi =>
    have hphase : ∀ item, Poster.afterPost (s.mailbox.post p).2 ≠ .claimed item := by
      cases (s.mailbox.post p).2 <;> simp [Poster.afterPost]
    have hposter := located_setPoster h (fun item => by rw [hi]; exact Poster.noConfusion) hphase
    exact ⟨place, located_congr hposter rfl rfl rfl Iff.rfl⟩
  | claim hi =>
    obtain ⟨place', -, h'⟩ := located_claim h hi
    exact ⟨place', h'⟩
  | put hi => exact ⟨.queue, located_put h hi⟩
  | otherId => exact ⟨place, located_congr h rfl rfl rfl Iff.rfl⟩
  | otherPut hitem =>
    refine ⟨place, located_congr h rfl rfl ?_ Iff.rfl⟩
    simp [State.setQueue, HostInputQueue.enqueue, hitem]
  | dequeue hl hq => exact located_dequeue h hl hq
  | timeout hl hq =>
    refine ⟨place, located_congr h rfl rfl rfl ?_⟩
    simp [State.setLoop, hl]
  | consume hl => exact located_consume h hl
  | read now hl =>
    refine ⟨place, located_congr h rfl rfl rfl ?_⟩
    simp [State.setLoop, State.setMailbox, hl]

theorem trace_coalesced (h : Trace Step s run t) (hs : Coalesced s) : Coalesced t :=
  h.invariant (P := Coalesced) (fun ⟨_, hplace⟩ hstep => step_located hstep hplace) hs

theorem trace_located {mailbox : SignalMailbox} {initialEvent : Str}
    (h : Trace Step (initial mailbox initialEvent) run s) : Coalesced s :=
  trace_coalesced h ⟨.nowhere, initial_located mailbox initialEvent⟩

/-- What wakes the loop is there until the loop reads. -/
theorem step_woken (hs : Step s a t) (h : Located s place) (hread : a.NotRead)
    (hw : Woken s) : Woken t := by
  cases hs with
  | @post i p hi =>
    rcases hw with hqueue | ⟨j, item, hj⟩ | hloop
    · exact .inl hqueue
    · have hne : j ≠ i := by
        rintro rfl
        rw [hi] at hj
        contradiction
      exact .inr (.inl ⟨j, item, setPoster_claimed.mpr (.inr ⟨hne, hj⟩)⟩)
    · exact .inr (.inr hloop)
  | claim hi =>
    obtain ⟨place', hplace, h'⟩ := located_claim h hi
    exact located_woken h' hplace
  | put hi => exact located_woken (located_put h hi) (by simp)
  | otherId => exact hw
  | otherPut hitem =>
    rcases hw with ⟨item, hmem, hsignal⟩ | hrest
    · exact .inl ⟨item, List.mem_append_left _ hmem, hsignal⟩
    · exact .inr hrest
  | @dequeue first items hl hq =>
    rcases hw with ⟨item, hmem, hsignal⟩ | hposter | ⟨item, hsignal, hloop⟩
    · rw [hq] at hmem
      rcases List.mem_cons.mp hmem with rfl | hmem
      · exact .inr (.inr ⟨_, hsignal, .inl rfl⟩)
      · exact .inl ⟨item, hmem, hsignal⟩
    · exact .inr (.inl hposter)
    · simp [hl] at hloop
  | timeout hl hq =>
    rcases hw with ⟨item, hmem, -⟩ | hposter | ⟨item, -, hloop⟩
    · simp [hq] at hmem
    · exact .inr (.inl hposter)
    · simp [hl] at hloop
  | @consume taken hl =>
    rcases hw with ⟨item, hmem, hsignal⟩ | hposter | ⟨item, hsignal, hloop⟩
    · exact .inl ⟨item, (s.queue.items_consume taken).symm ▸ hmem, hsignal⟩
    · exact .inr (.inl hposter)
    · have htaken : taken = item := by simpa [hl] using hloop
      subst htaken
      exact .inr (.inr ⟨taken, hsignal, .inr rfl⟩)
  | read now hl => exact (hread now rfl).elim

/-- A request finishes with a signal there, its own or the one it found pending. -/
theorem step_finished (hs : Step s a t) (h : Located s place) (hi : s.poster i ≠ .idle)
    (hdone : t.poster i = .idle) : Woken t := by
  cases hs with
  | @post j p hj =>
    have hne : i ≠ j := by
      rintro rfl
      exact hi hj
    have hsame : s.poster i = .idle := by
      simpa [State.setMailbox, State.setPoster, hne] using hdone
    exact (hi hsame).elim
  | claim hj =>
    obtain ⟨place', hplace, h'⟩ := located_claim h hj
    exact located_woken h' hplace
  | put hj => exact located_woken (located_put h hj) (by simp)
  | otherId | otherPut | dequeue | timeout | consume | read => exact (hi hdone).elim

/-- The loop does not read the mailbox on the way. -/
def NoRead (run : List (Label ι × State ι)) : Prop := ∀ e ∈ run, e.1.NotRead

theorem trace_woken (h : Trace Step s run t) (hs : Coalesced s) (hrun : NoRead run)
    (hw : Woken s) : Coalesced t ∧ Woken t := by
  refine h.keeps (P := fun s => Coalesced s ∧ Woken s) Label.NotRead ?_ hrun ⟨hs, hw⟩
  rintro s a t hread ⟨⟨place, hplace⟩, hw⟩ hstep
  exact ⟨step_located hstep hplace, step_woken hstep hplace hread hw⟩

/-- At most one signal is ever queued, and a change whose submit call has finished has one until
the loop reads the mailbox. -/
theorem wake_ups_coalesced {mailbox : SignalMailbox} {initialEvent : Str}
    (h : Trace Step (initial mailbox initialEvent) run s) :
    s.queue.items.countP (IsSignal ·) ≤ 1 ∧
    ∀ (i : ι) (p : Post) (s₁ s₂ s₃ t : State ι) (finish : Label ι)
      (submitting later : List (Label ι × State ι)),
      Step s (.post i p) s₁ → (s.mailbox.post p).2 = true → Trace Step s₁ submitting s₂ →
      Step s₂ finish s₃ → s₂.poster i ≠ .idle → s₃.poster i = .idle → Trace Step s₃ later t →
      NoRead later → Woken t := by
  have hs : Coalesced s := trace_located h
  constructor
  · obtain ⟨place, hplace⟩ := hs
    rw [hplace.queued]
    cases place <;> simp [Place.queued]
  · intro i p s₁ s₂ s₃ t finish submitting later hpost _ hsubmit hfinish hi hdone hlater hread
    obtain ⟨place, hplace⟩ := hs
    have hs₁ : Coalesced s₁ := step_located hpost hplace
    obtain ⟨place₂, hplace₂⟩ := trace_coalesced hsubmit hs₁
    have hs₃ : Coalesced s₃ := step_located hfinish hplace₂
    have hw : Woken s₃ := step_finished hfinish hplace₂ hi hdone
    exact (trace_woken hlater hs₃ hread hw).2

def deskPost : Post := .presence (str "desk") true (.finite 30) 0

/-- Someone sits down at the desk while the loop is still busy. -/
theorem wake_ups_coalesced_desk :
    let start : State Bool := initial {} (str "boot")
    let s₁ := (start.setPoster true .changed).setMailbox (start.mailbox.post deskPost).1
    let s₂ := (s₁.setPoster true (.claimed (presenceInput (str "presence-1")))).setQueue
      { items := [], nextId := 2, presencePending := true }
    let s₃ := (s₂.setPoster true .idle).setQueue
      { items := [presenceInput (str "presence-1")], nextId := 2, presencePending := true }
    Woken s₃ := by
  intro start s₁ s₂ s₃
  have hchanged : (start.mailbox.post deskPost).2 = true := by decide +kernel
  have hpost : Step start (.post true deskPost) s₁ := by
    have h := Step.post (s := start) (i := true) deskPost rfl
    rwa [hchanged] at h
  have hclaim : Step s₁ (.claim true) s₂ := .claim rfl
  have hput : Step s₂ (.put true) s₃ := .put rfl
  exact (wake_ups_coalesced (.nil start)).2 true deskPost s₁ s₂ s₃ s₃ (.put true) _ [] hpost hchanged
    (.single hclaim) hput Poster.noConfusion rfl (.nil s₃) (by simp [NoRead])

end Hologotchi.Presence.Coalescing
