import Hologotchi.Connection.Model

/-! Who answers for each socket: it is installed, closed, or held by someone who will install or
close it. -/
namespace Hologotchi.Connection

open Library

variable {ι : Type*}

/-- The socket a caller must still install or close. -/
@[simp] def Call.held : Call → Option Socket
  | .connected _ _ sock | .closing _ sock _ => some sock
  | .idle | .ensuring _ _ | .connecting _ _ _ | .peeking | .writing _ _ | .dropping _ _ _ => none

@[simp] def Reader.held : Reader → Option Socket
  | .probed sock | .closing sock => some sock
  | .stopped | .checking | .peeking | .unattached | .probing | .receiving _ | .dropping _ => none

@[simp] def Closer.held : Closer → Option Socket
  | .cleared sock => sock
  | .idle | .flagged | .peeked _ | .joining | .returned => none

@[simp] def State.held (s : State ι) : Actor ι → Option Socket
  | .call i => (s.call i).held
  | .reader => s.reader.held
  | .closer => s.closer.held

/-- Somebody answers for the socket. -/
def State.Owned (s : State ι) (sock : Socket) : Prop :=
  s.sock = some sock ∨ sock ∈ s.shut ∨ ∃ actor, s.held actor = some sock

/-- `close` has emptied `_sock`. -/
def Closer.Cleared : Closer → Prop
  | .cleared _ | .joining | .returned => True
  | .idle | .flagged | .peeked _ => False

/-- How far `close` has come, and what that means for the socket. -/
structure Closing (s : State ι) : Prop where
  flagged : s.closer ≠ .idle → s.closed = true
  peeked : ∀ sock, s.closer = .peeked sock → s.sock = none ∨ s.sock = sock
  cleared : s.closer.Cleared → s.sock = none

/-- Every socket opened so far is owned. -/
structure Tracked (s : State ι) : Prop where
  closing : Closing s
  owned : ∀ sock < s.opened, s.Owned sock

theorem tracked_initial (onTouch : Bool) : Tracked (initial ι onTouch) := by
  refine ⟨⟨?_, ?_, ?_⟩, ?_⟩ <;> simp [initial, Closer.Cleared]

section Steps

variable [DecidableEq ι] {connectRetries : ℕ} {s t : State ι} {a : Label ι} {actor : Actor ι}
  {sock : Socket} {run : List (Label ι × State ι)}

/-- Nobody touches what another one holds. -/
theorem step_held_other (h : Step connectRetries s a t) (hne : actor ≠ a.actor) :
    t.held actor = s.held actor := by
  cases h <;> cases actor <;> simp_all

/-- The next step of a holder installs the socket or closes it. -/
theorem step_held_own (h : Step connectRetries s a t) (hheld : s.held a.actor = some sock) :
    t.sock = some sock ∨ sock ∈ t.shut := by
  cases h <;> simp_all

/-- Whoever takes an installed socket out holds it. -/
theorem step_installed (h : Step connectRetries s a t) (hs : Closing s)
    (hsock : s.sock = some sock) : t.sock = some sock ∨ t.held a.actor = some sock := by
  obtain ⟨-, hpeeked, -⟩ := hs
  cases h <;> simp_all
  -- The two drops, of a sender and of the reader.
  all_goals exact (ne_or_eq _ _).imp_right Eq.symm

/-- Whoever opens a socket holds it. -/
theorem step_opened (h : Step connectRetries s a t) :
    t.opened = s.opened ∨ (t.opened = s.opened + 1 ∧ t.held a.actor = some s.opened) := by
  cases h <;> simp

/-- Only an open client installs a socket. -/
theorem step_sock (h : Step connectRetries s a t) :
    t.sock = s.sock ∨ t.sock = none ∨ s.closed = false := by
  cases h <;> simp_all
  all_goals tauto

theorem step_closer (h : Step connectRetries s a t) (hne : a.actor ≠ .closer) :
    t.closer = s.closer ∧ t.closed = s.closed := by
  cases h <;> simp_all

theorem step_closing (h : Step connectRetries s a t) (hs : Closing s) : Closing t := by
  obtain ⟨hflagged, hpeeked, hcleared⟩ := hs
  by_cases ha : a.actor = .closer
  · cases h <;> constructor <;> simp_all [Closer.Cleared]
  · obtain ⟨hcloser, hclosed⟩ := step_closer h ha
    have hsock := step_sock h
    refine ⟨?_, ?_, ?_⟩
    · rwa [hcloser, hclosed]
    · rw [hcloser]
      intro sock hsnap
      have hopen := hflagged (by simp [hsnap])
      rcases hsock with hsame | hnone | hopen'
      · rw [hsame]
        exact hpeeked sock hsnap
      · exact .inl hnone
      · simp_all
    · rw [hcloser]
      intro hclear
      have hnone := hcleared hclear
      rcases hsock with hsame | hnone | hopen'
      · rwa [hsame]
      · exact hnone
      · cases hphase : s.closer <;> simp_all [Closer.Cleared]

/-- Nobody's socket gets lost in a step. -/
theorem step_owned (h : Step connectRetries s a t) (hs : Closing s) (hsock : s.Owned sock) :
    t.Owned sock := by
  rcases hsock with hsock | hshut | ⟨actor, hheld⟩
  · rcases step_installed h hs hsock with hsame | hheld
    · exact .inl hsame
    · exact .inr (.inr ⟨a.actor, hheld⟩)
  · exact .inr (.inl (step_shut h hshut))
  · by_cases hactor : actor = a.actor
    · subst hactor
      rcases step_held_own h hheld with hsock | hshut
      · exact .inl hsock
      · exact .inr (.inl hshut)
    · exact .inr (.inr ⟨actor, by rwa [step_held_other h hactor]⟩)

theorem step_tracked (h : Step connectRetries s a t) (hs : Tracked s) : Tracked t := by
  refine ⟨step_closing h hs.closing, ?_⟩
  intro sock hsock
  rcases step_opened h with hsame | ⟨hnew, hheld⟩
  · exact step_owned h hs.closing (hs.owned sock (hsame ▸ hsock))
  · rcases Nat.lt_succ_iff_lt_or_eq.mp (hnew ▸ hsock) with hold | rfl
    · exact step_owned h hs.closing (hs.owned sock hold)
    · exact .inr (.inr ⟨a.actor, hheld⟩)

/-- A returned `close` stays returned. -/
theorem step_returned (h : Step connectRetries s a t) (hs : s.closer = .returned) :
    t.closer = .returned := by
  cases h <;> simp_all

theorem sockets_owned {onTouch : Bool}
    (h : Trace (Step connectRetries) (initial ι onTouch) run s) :
    -- Of the open sockets that nobody holds there is at most one, the installed one.
    (∀ x < s.opened, ∀ y < s.opened, x ∉ s.shut → y ∉ s.shut →
      (∀ actor, s.held actor ≠ some x ∧ s.held actor ≠ some y) →
      s.sock = some x ∧ s.sock = some y ∧ x = y) ∧
    (∀ sock < s.opened, s.sock = some sock ∨ sock ∈ s.shut ∨ ∃ actor, s.held actor = some sock) ∧
    (∀ a t sock, Step connectRetries s a t → s.held a.actor = some sock →
      t.sock = some sock ∨ sock ∈ t.shut) ∧
    (s.closer = .returned → ∀ later t, Trace (Step connectRetries) s later t →
      t.sock = none ∧
      ((∀ actor, t.held actor = none) → ∀ sock < t.opened, sock ∈ t.shut)) := by
  have hs : Tracked s := h.invariant (fun hu hstep => step_tracked hstep hu) (tracked_initial onTouch)
  refine ⟨?_, hs.owned, fun a t sock hstep => step_held_own hstep, ?_⟩
  · intro x hx y hy hopenx hopeny hfree
    have hinstalled : ∀ z < s.opened, z ∉ s.shut → (∀ actor, s.held actor ≠ some z) →
        s.sock = some z := by
      intro z hz hopen hfree
      rcases hs.owned z hz with hsock | hshut | ⟨actor, hheld⟩
      · exact hsock
      · exact (hopen hshut).elim
      · exact (hfree actor hheld).elim
    have hsx := hinstalled x hx hopenx fun actor => (hfree actor).1
    have hsy := hinstalled y hy hopeny fun actor => (hfree actor).2
    exact ⟨hsx, hsy, Option.some.inj (hsx.symm.trans hsy)⟩
  · intro hreturned later t hlater
    have ht : Tracked t := hlater.invariant (fun hu hstep => step_tracked hstep hu) hs
    have hclosed : t.closer = .returned :=
      hlater.invariant (P := fun u => u.closer = .returned) (fun hu hstep => step_returned hstep hu)
        hreturned
    have hnone : t.sock = none := ht.closing.cleared (by rw [hclosed]; trivial)
    refine ⟨hnone, ?_⟩
    intro hfree sock hsock
    rcases ht.owned sock hsock with hinstalled | hshut | ⟨actor, hheld⟩
    · rw [hnone] at hinstalled
      contradiction
    · exact hshut
    · rw [hfree actor] at hheld
      contradiction

end Steps

def napCommand : Protocol.BehaviorCommand := ⟨.sleepy, .nap, none, false, 3000⟩

/-- A sender connects while the client is being closed, and has to close what it got. -/
theorem sockets_owned_late : ∃ (run : List (Label Unit × State Unit)) (t : State Unit),
    Trace (Step 1) (initial Unit false) run t ∧ t.closer = .returned ∧ t.opened = 1 ∧
      ∀ sock < t.opened, sock ∈ t.shut := by
  have hrun : ∃ (run : List (Label Unit × State Unit)) (t : State Unit),
      Trace (Step 1) (initial Unit false) run t ∧ t.closer = .returned ∧ t.opened = 1 ∧
        ∀ actor, t.held actor = none := by
    refine ⟨_, _, .cons (.send (i := ()) napCommand rfl) (.cons (.ensureDead (i := ()) rfl rfl)
      (.cons (.connect (i := ()) rfl) (.cons (.flag rfl) (.cons (.closerPeek rfl)
        (.cons (.closerClear rfl) (.cons (.closerNone rfl) (.cons (.joined rfl)
          (.cons (.installClosed (i := ()) rfl rfl) (.nil _))))))))), rfl, rfl, ?_⟩
    rintro (i | _ | _) <;> rfl
  obtain ⟨run, t, htrace, hreturned, hopened, hfree⟩ := hrun
  exact ⟨run, t, htrace, hreturned, hopened,
    ((sockets_owned htrace).2.2.2 hreturned [] t (.nil t)).2 hfree⟩

end Hologotchi.Connection
