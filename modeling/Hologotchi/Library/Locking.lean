import Hologotchi.Library.Transitions
import Mathlib.Logic.Function.Basic

/-! Threads that share a state, a lock and a flag in the state that may pause all writing. When
the flag is turned off under the lock, the writes that may still come are those of the calls that
are past their last test of it. -/
namespace Hologotchi.Library

/-- The flag in a shared state. -/
structure Flag (σ : Type) where
  get : σ → Bool
  set : Bool → σ → σ
  get_set : ∀ enabled s, get (set enabled s) = enabled
  set_get : ∀ s, set (get s) s = s

/-- What a thread has left to do, one atomic step after the other. -/
inductive Program (σ : Type)
  | done
  /-- Read the flag. -/
  | test (next : Bool → Program σ)
  | acquire (next : Program σ)
  | release (next : Program σ)
  | query (next : σ → Program σ)
  | write (change : σ → σ) (next : Program σ)
  | set (enabled : Bool) (next : Program σ)

/-- Threads `ι` in calls `κ`. -/
structure World (ι κ σ : Type) where
  shared : σ
  holder : Option ι := none
  /-- The call a thread is in, with what is left of it. -/
  threads : ι → Option (κ × Program σ) := fun _ => none

inductive Action (ι κ : Type)
  | call (i : ι) (c : κ)
  | test (i : ι)
  | acquire (i : ι)
  /-- The last step of a call that took the lock. -/
  | release (i : ι) (c : κ)
  | query (i : ι)
  | write (i : ι)
  | set (i : ι) (enabled : Bool)

def Action.Writes {ι κ : Type} : Action ι κ → Prop
  | .write _ => True
  | _ => False

def Action.Enables {ι κ : Type} : Action ι κ → Prop
  | .set _ enabled => enabled = true
  | _ => False

variable {ι κ σ : Type} [DecidableEq ι]

def World.put (w : World ι κ σ) (i : ι) (c : κ) (rest : Program σ) : World ι κ σ :=
  { w with threads := Function.update w.threads i (some (c, rest)) }

/-- The thread is in no call, or has done all of it. -/
def World.Idle (w : World ι κ σ) (i : ι) : Prop :=
  ∀ c rest, w.threads i = some (c, rest) → rest = .done

variable (flag : Flag σ) (calls : κ → Program σ)

inductive World.Step : World ι κ σ → Action ι κ → World ι κ σ → Prop
  | call {w : World ι κ σ} {i : ι} (c : κ) (idle : w.Idle i) :
      Step w (.call i c) (w.put i c (calls c))
  | test {w : World ι κ σ} {i : ι} {c : κ} {next : Bool → Program σ}
      (head : w.threads i = some (c, .test next)) :
      Step w (.test i) (w.put i c (next (flag.get w.shared)))
  | acquire {w : World ι κ σ} {i : ι} {c : κ} {next : Program σ}
      (head : w.threads i = some (c, .acquire next)) (free : w.holder = none) :
      Step w (.acquire i) { w.put i c next with holder := some i }
  | release {w : World ι κ σ} {i : ι} {c : κ} {next : Program σ}
      (head : w.threads i = some (c, .release next)) (held : w.holder = some i) :
      Step w (.release i c) { w.put i c next with holder := none }
  | query {w : World ι κ σ} {i : ι} {c : κ} {next : σ → Program σ}
      (head : w.threads i = some (c, .query next)) :
      Step w (.query i) (w.put i c (next w.shared))
  | write {w : World ι κ σ} {i : ι} {c : κ} {change : σ → σ} {next : Program σ}
      (head : w.threads i = some (c, .write change next)) :
      Step w (.write i) { w.put i c next with shared := change w.shared }
  | set {w : World ι κ σ} {i : ι} {c : κ} {enabled : Bool} {next : Program σ}
      (head : w.threads i = some (c, .set enabled next)) :
      Step w (.set i enabled) { w.put i c next with shared := flag.set enabled w.shared }

namespace Program

/-- Left to itself under the lock, the rest of the program ends when it releases the lock, in a
state with the property. -/
def Inside (post : σ → Prop) : σ → Program σ → Prop
  | s, .test next => Inside post s (next (flag.get s))
  | s, .release next => next = .done ∧ post s
  | s, .query next => Inside post s (next s)
  | s, .write change next => Inside post (change s) next
  | s, .set enabled next => Inside post (flag.set enabled s) next
  | _, .done => False
  | _, .acquire _ => False

/-- Before it takes the lock, the program only reads the flag. -/
def Outside (post : σ → Prop) : Program σ → Prop
  | .done => True
  | .test next => ∀ enabled, Outside post (next enabled)
  | .acquire next => ∀ s, Inside flag post s next
  | _ => False

/-- What may be left of a program while it does not hold the lock. -/
inductive Left (start : Program σ) : Program σ → Prop
  | start : Left start start
  | test {next : Bool → Program σ} (enabled : Bool) (before : Left start (.test next)) :
      Left start (next enabled)
  | done : Left start .done

/-- With the flag off the rest of the program writes nothing in this state, unless the flag is
turned on. -/
def Quiet (s : σ) : Program σ → Prop
  | .done => True
  | .test next => Quiet s (next false)
  | .acquire next => Quiet s next
  | .release next => Quiet s next
  | .query next => Quiet s (next s)
  | .write _ _ => False
  | .set enabled next => enabled = true ∨ Quiet s next

/-- The state after the program when no other thread takes a step. -/
def alone : σ → Program σ → σ
  | s, .done => s
  | s, .test next => alone s (next (flag.get s))
  | s, .acquire next => alone s next
  | s, .release next => alone s next
  | s, .query next => alone s (next s)
  | s, .write change next => alone (change s) next
  | s, .set enabled next => alone (flag.set enabled s) next

variable {flag} {start rest : Program σ} {post : σ → Prop}

theorem Left.outside (h : Left start rest) (hstart : Outside flag post start) :
    Outside flag post rest := by
  induction h with
  | start => exact hstart
  | test enabled _ ih => exact ih enabled
  | done => trivial

theorem Left.of_done (h : Left .done rest) : rest = .done := by
  induction h with
  | start => rfl
  | test _ _ ih => cases ih
  | done => rfl

theorem Left.of_acquire {next : Program σ} (h : Left (.acquire next) rest) :
    rest = .acquire next ∨ rest = .done := by
  induction h with
  | start => exact .inl rfl
  | test _ _ ih => rcases ih with ih | ih <;> cases ih
  | done => exact .inr rfl

theorem Left.of_test {next : Bool → Program σ} (h : Left (.test next) rest) :
    rest = .test next ∨ ∃ enabled, Left (next enabled) rest := by
  induction h with
  | start => exact .inl rfl
  | test enabled _ ih =>
    right
    rcases ih with ih | ⟨first, hleft⟩
    · cases ih
      exact ⟨enabled, .start⟩
    · exact ⟨first, .test enabled hleft⟩
  | done => exact .inr ⟨true, .done⟩

/-- A program that goes on only while the flag is set. -/
theorem Left.of_guard {next : Program σ}
    (h : Left (.test fun enabled => if !enabled then .done else next) rest) :
    rest = .test (fun enabled => if !enabled then .done else next) ∨ Left next rest := by
  rcases h.of_test with rfl | ⟨enabled, hleft⟩
  · exact .inl rfl
  · right
    cases enabled with
    | false => exact hleft.of_done ▸ .done
    | true => exact hleft

end Program

open Program

/-- At most one thread is past its `acquire`, and its writes are its own. -/
structure World.Orderly (post : κ → σ → Prop) (w : World ι κ σ) : Prop where
  inside : ∀ i, w.holder = some i →
    ∃ c rest, w.threads i = some (c, rest) ∧ Inside flag (post c) w.shared rest
  outside : ∀ i c rest, w.threads i = some (c, rest) → w.holder ≠ some i → Left (calls c) rest

namespace World

variable {flag calls} {post : κ → σ → Prop} {w v : World ι κ σ} {a : Action ι κ} {i j : ι} {c : κ}
  {rest : Program σ} {run : List (Action ι κ × World ι κ σ)}

@[simp] theorem put_shared : (w.put i c rest).shared = w.shared := rfl
@[simp] theorem put_holder : (w.put i c rest).holder = w.holder := rfl
@[simp] theorem put_threads_self : (w.put i c rest).threads i = some (c, rest) := by
  simp [World.put]

theorem put_threads_ne (h : j ≠ i) : (w.put i c rest).threads j = w.threads j := by
  simp [World.put, h]

omit [DecidableEq ι] in
theorem orderly_start (s : σ) :
    (⟨s, none, fun _ => none⟩ : World ι κ σ).Orderly flag calls post where
  inside _ h := by simp at h
  outside _ _ _ h := by simp at h

/-- A thread that is about to do what is only done under the lock holds it. -/
theorem Orderly.holds (h : w.Orderly flag calls post)
    (hcalls : ∀ c, Outside flag (post c) (calls c)) (hrest : w.threads i = some (c, rest))
    (hno : ¬ Outside flag (post c) rest) : w.holder = some i := by
  by_contra hother
  exact hno ((h.outside i c rest hrest hother).outside (hcalls c))

omit [DecidableEq ι] in
/-- What is left to the thread that holds the lock. -/
theorem Orderly.inside_rest (h : w.Orderly flag calls post) (hheld : w.holder = some i)
    (hrest : w.threads i = some (c, rest)) : Inside flag (post c) w.shared rest := by
  obtain ⟨d, r, hd, hinside⟩ := h.inside i hheld
  rw [hrest] at hd
  cases hd
  exact hinside

/-- A step of the holder that keeps the lock. -/
theorem Orderly.hold (h : w.Orderly flag calls post) (hheld : w.holder = some i) {s : σ}
    (hinside : Inside flag (post c) s rest) :
    ({ w.put i c rest with shared := s } : World ι κ σ).Orderly flag calls post := by
  constructor
  · intro j hj
    have hji : j = i := Option.some.inj (hj.symm.trans hheld)
    subst hji
    exact ⟨c, rest, by simp, hinside⟩
  · intro j d r hr hother
    have hji : j ≠ i := by
      rintro rfl
      exact hother hheld
    exact h.outside j d r ((put_threads_ne hji).symm.trans hr) hother

/-- A step of a thread without the lock. -/
theorem Orderly.wait (h : w.Orderly flag calls post) (hfree : w.holder ≠ some i)
    (hleft : Left (calls c) rest) : (w.put i c rest).Orderly flag calls post := by
  constructor
  · intro j hj
    have hji : j ≠ i := by
      rintro rfl
      exact hfree hj
    rw [put_threads_ne hji]
    exact h.inside j hj
  · intro j d r hr hother
    by_cases hji : j = i
    · subst hji
      rw [put_threads_self] at hr
      cases hr
      exact hleft
    · exact h.outside j d r ((put_threads_ne hji).symm.trans hr) hother

theorem Orderly.step (h : w.Orderly flag calls post)
    (hcalls : ∀ c, Outside flag (post c) (calls c)) (hstep : Step flag calls w a v) :
    v.Orderly flag calls post := by
  cases hstep with
  | @call i c idle =>
    refine h.wait ?_ .start
    intro hheld
    obtain ⟨d, r, hr, hinside⟩ := h.inside i hheld
    rw [idle d r hr] at hinside
    exact hinside
  | @test i c next head =>
    by_cases hheld : w.holder = some i
    · have hinside := h.inside_rest hheld head
      exact h.hold hheld hinside
    · exact h.wait hheld (.test _ (h.outside i c _ head hheld))
  | @acquire i c next head free =>
    have hleft := h.outside i c _ head (by simp [free])
    constructor
    · intro j hj
      cases hj
      exact ⟨c, next, by simp, (hleft.outside (hcalls c)) w.shared⟩
    · intro j d r hr hother
      have hji : j ≠ i := by
        rintro rfl
        exact hother rfl
      exact h.outside j d r ((put_threads_ne hji).symm.trans hr) (by simp [free])
  | @release i c next head held =>
    obtain ⟨hdone, -⟩ := h.inside_rest held head
    constructor
    · intro j hj
      cases hj
    · intro j d r hr _
      by_cases hji : j = i
      · subst hji
        rw [show _ = some (c, next) from put_threads_self] at hr
        cases hr
        exact hdone ▸ .done
      · refine h.outside j d r ((put_threads_ne hji).symm.trans hr) ?_
        rw [held]
        rintro ⟨⟩
        exact hji rfl
  | query head | write head | set head =>
    -- What is only done under the lock.
    have hheld := Orderly.holds h hcalls head id
    have hinside := h.inside_rest hheld head
    exact h.hold hheld hinside

/-- Every world that is reached is orderly. -/
theorem orderly_run {s : σ} (hcalls : ∀ c, Outside flag (post c) (calls c))
    (h : Trace (Step flag calls) ⟨s, none, fun _ => none⟩ run w) : w.Orderly flag calls post :=
  h.invariant (fun horderly hstep => Orderly.step horderly hcalls hstep) (orderly_start s)

/-- A call that returns from under the lock has done its work, and nobody holds the lock. -/
theorem Orderly.released (h : w.Orderly flag calls post)
    (hstep : Step flag calls w (.release i c) v) : post c v.shared ∧ v.holder = none := by
  cases hstep with
  | release head held =>
    obtain ⟨-, hpost⟩ := h.inside_rest held head
    exact ⟨hpost, rfl⟩

/-- The flag is off in the state, and every thread is quiet in it. -/
structure Paused (flag : Flag σ) (s : σ) (w : World ι κ σ) : Prop where
  same : w.shared = s
  off : flag.get s = false
  quiet : ∀ i c rest, w.threads i = some (c, rest) → rest.Quiet s

variable {s : σ}

theorem Paused.put (h : Paused flag s w) (hquiet : rest.Quiet s) {holder : Option ι} :
    Paused flag s { w.put i c rest with holder := holder } := by
  refine ⟨h.same, h.off, ?_⟩
  intro j d r hr
  by_cases hji : j = i
  · subst hji
    rw [show _ = some (c, rest) from put_threads_self] at hr
    cases hr
    exact hquiet
  · exact h.quiet j d r ((put_threads_ne hji).symm.trans hr)

/-- A step that does not turn the flag on writes nothing and leaves the pause as it is. -/
theorem Paused.step (hcalls : ∀ c, (calls c).Quiet s) (ha : ¬ a.Enables) (h : Paused flag s w)
    (hstep : Step flag calls w a v) : ¬ a.Writes ∧ Paused flag s v := by
  have hoff : flag.get w.shared = false := h.same ▸ h.off
  cases hstep with
  | call c idle => exact ⟨id, h.put (hcalls c)⟩
  | @test i c next head =>
    have hquiet := h.quiet i c _ head
    rw [hoff]
    refine ⟨id, h.put ?_⟩
    exact hquiet
  | @acquire i c next head free =>
    have hquiet := h.quiet i c _ head
    refine ⟨id, h.put ?_⟩
    exact hquiet
  | @release i c next head held =>
    have hquiet := h.quiet i c _ head
    refine ⟨id, h.put ?_⟩
    exact hquiet
  | @query i c next head =>
    have hquiet := h.quiet i c _ head
    rw [h.same]
    refine ⟨id, h.put ?_⟩
    exact hquiet
  | @write i c _ _ head => exact (h.quiet i c _ head).elim
  | @set i c enabled next head =>
    rcases h.quiet i c _ head with hon | hquiet
    · exact absurd hon ha
    · have hsame : flag.set enabled w.shared = w.shared := by
        have hvalue : enabled = flag.get w.shared := by
          rw [hoff]
          simpa [Action.Enables] using ha
        rw [hvalue, flag.set_get]
      rw [hsame]
      exact ⟨id, h.put hquiet⟩

/-- There is a run that writes without turning the flag on. -/
def MayWrite (flag : Flag σ) (calls : κ → Program σ) (w : World ι κ σ) : Prop :=
  ∃ run t, Trace (Step flag calls) w run t ∧ (∀ e ∈ run, ¬ e.1.Enables) ∧ ∃ e ∈ run, e.1.Writes

theorem MayWrite.first (hstep : Step flag calls w a v) (ha : ¬ a.Enables)
    (h : MayWrite flag calls v) : MayWrite flag calls w := by
  obtain ⟨run, t, htrace, henables, e, he, hwrites⟩ := h
  exact ⟨(a, v) :: run, t, .cons hstep htrace, List.forall_mem_cons.mpr ⟨ha, henables⟩, e,
    List.mem_cons_of_mem _ he, hwrites⟩

/-- A thread that is not quiet has a way to write while no other thread takes a step. -/
theorem exists_write (hcalls : ∀ c, Outside flag (post c) (calls c)) (rest : Program σ)
    (w : World ι κ σ) (h : w.Orderly flag calls post)
    (hturn : w.holder = none ∨ w.holder = some i) (hrest : w.threads i = some (c, rest))
    (hoff : flag.get w.shared = false) (hloud : ¬ rest.Quiet w.shared) :
    MayWrite flag calls w := by
  induction rest generalizing w with
  | done => exact absurd trivial hloud
  | test next ih =>
    have hstep : Step flag calls w (.test i) (w.put i c (next (flag.get w.shared))) := .test hrest
    have hnext : ¬ (next (flag.get w.shared)).Quiet w.shared := by
      rw [hoff]
      exact hloud
    exact .first hstep id (ih _ _ (h.step hcalls hstep) hturn put_threads_self hoff hnext)
  | acquire next ih =>
    have hfree : w.holder = none := by
      rcases hturn with hfree | hheld
      · exact hfree
      · exact (h.inside_rest hheld hrest).elim
    have hstep : Step flag calls w (.acquire i) { w.put i c next with holder := some i } :=
      .acquire hrest hfree
    exact .first hstep id (ih _ (h.step hcalls hstep) (.inr rfl) put_threads_self hoff hloud)
  | release next ih =>
    have hheld := Orderly.holds h hcalls hrest id
    obtain ⟨rfl, -⟩ := h.inside_rest hheld hrest
    exact absurd trivial hloud
  | query next ih =>
    have hstep : Step flag calls w (.query i) (w.put i c (next w.shared)) := .query hrest
    exact .first hstep id (ih _ _ (h.step hcalls hstep) hturn put_threads_self hoff hloud)
  | write change next ih =>
    have hstep : Step flag calls w (.write i) { w.put i c next with shared := change w.shared } :=
      .write hrest
    exact ⟨_, _, .single hstep, by simp [Action.Enables], _, List.mem_singleton_self _, trivial⟩
  | set enabled next ih =>
    rw [Quiet, not_or] at hloud
    obtain ⟨hdisables, hnext⟩ := hloud
    have hstep : Step flag calls w (.set i enabled)
        { w.put i c next with shared := flag.set enabled w.shared } := .set hrest
    have hsame : flag.set enabled w.shared = w.shared := by
      have hvalue : enabled = flag.get w.shared := by
        rw [hoff]
        simpa using hdisables
      rw [hvalue, flag.set_get]
    have horderly := h.step hcalls hstep
    rw [hsame] at hstep horderly
    exact .first hstep hdisables (ih _ horderly hturn put_threads_self hoff hnext)

/-- Where the lock is free and the flag off, nothing is written before the flag is turned on
exactly when every thread is quiet. -/
theorem not_mayWrite_iff (h : w.Orderly flag calls post)
    (hcalls : ∀ c, Outside flag (post c) (calls c)) (hquiet : ∀ s c, (calls c).Quiet s)
    (hfree : w.holder = none) (hoff : flag.get w.shared = false) :
    ¬ MayWrite flag calls w ↔ ∀ i c rest, w.threads i = some (c, rest) → rest.Quiet w.shared := by
  constructor
  · intro hnever i c rest hrest
    by_contra hloud
    exact hnever (exists_write hcalls rest w h (.inl hfree) hrest hoff hloud)
  · rintro hall ⟨run, t, htrace, henables, e, he, hwrites⟩
    have hpaused : Paused flag w.shared w := ⟨rfl, hoff, hall⟩
    have hno := htrace.labels (fun a => ¬ a.Enables)
      (fun ha hp hstep => Paused.step (hquiet _) ha hp hstep) henables hpaused
    exact hno e he hwrites

end World
end Hologotchi.Library
