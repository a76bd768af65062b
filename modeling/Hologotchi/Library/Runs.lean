import Mathlib.Data.List.Basic
import Mathlib.Order.Basic

/-! Runs of a deterministic machine that answers every input. -/
namespace Hologotchi.Library

variable {σ τ ι ο ω : Type*} {step : σ → ι → σ × ο}

/-- The state after feeding the inputs in order. -/
def finalState (step : σ → ι → σ × ο) : σ → List ι → σ
  | s, [] => s
  | s, i :: is => finalState step (step s i).1 is

/-- The answers given along the run. -/
def answers (step : σ → ι → σ × ο) : σ → List ι → List ο
  | _, [] => []
  | s, i :: is => (step s i).2 :: answers step (step s i).1 is

@[simp] theorem finalState_nil (s : σ) : finalState step s [] = s := rfl

@[simp] theorem finalState_cons (s : σ) (i : ι) (is : List ι) :
    finalState step s (i :: is) = finalState step (step s i).1 is := rfl

@[simp] theorem answers_nil (s : σ) : answers step s [] = [] := rfl

@[simp] theorem answers_cons (s : σ) (i : ι) (is : List ι) :
    answers step s (i :: is) = (step s i).2 :: answers step (step s i).1 is := rfl

theorem finalState_append (s : σ) (is js : List ι) :
    finalState step s (is ++ js) = finalState step (finalState step s is) js := by
  induction is generalizing s with
  | nil => rfl
  | cons i is ih => exact ih _

theorem answers_append (s : σ) (is js : List ι) :
    answers step s (is ++ js) = answers step s is ++ answers step (finalState step s is) js := by
  induction is generalizing s with
  | nil => rfl
  | cons i is ih => simp [ih]

/-- Every answer of a run is given by one step, after the answers before it. -/
theorem answers_eq_append {s : σ} {is : List ι} {before later : List ο} {a : ο}
    (h : answers step s is = before ++ a :: later) :
    ∃ js i ks, is = js ++ i :: ks ∧ answers step s js = before ∧
      (step (finalState step s js) i).2 = a := by
  induction before generalizing s is with
  | nil =>
    cases is with
    | nil => simp at h
    | cons i is => exact ⟨[], i, is, rfl, rfl, (List.cons.inj h).1⟩
  | cons b before ih =>
    cases is with
    | nil => simp at h
    | cons i is =>
      obtain ⟨hb, h⟩ := List.cons.inj h
      obtain ⟨js, j, ks, rfl, hjs, hj⟩ := ih h
      exact ⟨i :: js, j, ks, rfl, by rw [answers_cons, hb, hjs], hj⟩

/-- Every step of the run meets the condition in the state it is taken in. -/
def Meets (step : σ → ι → σ × ο) (C : σ → ι → Prop) : σ → List ι → Prop
  | _, [] => True
  | s, i :: is => C s i ∧ Meets step C (step s i).1 is

instance Meets.decidable {C : σ → ι → Prop} [∀ s i, Decidable (C s i)] :
    ∀ (s : σ) (is : List ι), Decidable (Meets step C s is)
  | _, [] => inferInstanceAs (Decidable True)
  | s, i :: is =>
    have := Meets.decidable (C := C) (step s i).1 is
    inferInstanceAs (Decidable (C s i ∧ Meets step C (step s i).1 is))

theorem meets_of_forall {C : σ → ι → Prop} {is : List ι} (h : ∀ i ∈ is, ∀ s, C s i) (s : σ) :
    Meets step C s is := by
  induction is generalizing s with
  | nil => trivial
  | cons i is ih =>
    obtain ⟨hfirst, hrest⟩ := List.forall_mem_cons.mp h
    exact ⟨hfirst s, ih hrest _⟩

/-- What every step shows of the answers before it, while the state keeps agreeing with them,
every answer of a run shows. The condition is on the steps of the run. -/
theorem answers_induction {J : List ο → σ → Prop} {P : List ο → ο → Prop} {C : σ → ι → Prop}
    (hstep : ∀ {past s} i, J past s → C s i →
      J (past ++ [(step s i).2]) (step s i).1 ∧ P past (step s i).2)
    {past before later : List ο} {s : σ} {is : List ι} {a : ο} (h : J past s)
    (hmet : Meets step C s is) (hsplit : answers step s is = before ++ a :: later) :
    P (past ++ before) a := by
  induction is generalizing s past before with
  | nil => simp at hsplit
  | cons i is ih =>
    obtain ⟨hnow, hlater⟩ := hmet
    obtain ⟨hafter, hshown⟩ := hstep i h hnow
    cases before with
    | nil =>
      obtain ⟨rfl, -⟩ := List.cons.inj hsplit
      simpa using hshown
    | cons b before =>
      obtain ⟨rfl, hrest⟩ := List.cons.inj hsplit
      simpa using ih hafter hlater hrest

/-- What every step on an admitted input keeps, a run on such inputs keeps. -/
theorem finalState_keeps {P : σ → Prop} {admitted : ι → Prop}
    (hstep : ∀ s i, admitted i → P s → P (step s i).1) {s : σ} (hs : P s) {is : List ι}
    (his : ∀ i ∈ is, admitted i) : P (finalState step s is) := by
  induction is generalizing s with
  | nil => exact hs
  | cons i is ih =>
    obtain ⟨hfirst, hrest⟩ := List.forall_mem_cons.mp his
    exact ih (hstep s i hfirst hs) hrest

/-- What every step keeps, every run keeps. -/
theorem finalState_invariant {P : σ → Prop} (hstep : ∀ s i, P s → P (step s i).1)
    {s : σ} (hs : P s) (is : List ι) : P (finalState step s is) :=
  finalState_keeps (fun s i (_ : True) => hstep s i) hs fun _ _ => trivial

variable {s : σ} {is : List ι} {i j : ι} {m n : ℕ}

theorem finalState_take_succ (h : is[n]? = some i) :
    finalState step s (is.take (n + 1)) = (step (finalState step s (is.take n)) i).1 := by
  obtain ⟨hn, rfl⟩ := List.getElem?_eq_some_iff.mp h
  rw [List.take_succ_eq_append_getElem hn, finalState_append, finalState_cons, finalState_nil]

/-- What every step keeps lasts from one point of a run to any later one. -/
theorem finalState_take_keeps {P : σ → Prop} (hstep : ∀ s i, P s → P (step s i).1) (hmn : m ≤ n)
    (h : P (finalState step s (is.take m))) : P (finalState step s (is.take n)) := by
  have hsplit : is.take n = is.take m ++ (is.drop m).take (n - m) := by
    rw [← List.take_add, Nat.add_sub_cancel' hmn]
  rw [hsplit, finalState_append]
  exact finalState_invariant hstep h _

/-- Two events of a run, the earlier of which leaves a mark that the steps after it keep. -/
theorem events_related {P : σ → Prop} {E : σ → ι → Prop} {M : ι → σ → Prop}
    {R : ι → ι → Prop} (hstep : ∀ s i, P s → P (step s i).1)
    (hmark : ∀ s i, P s → E s i → M i (step s i).1)
    (hkeep : ∀ s i j, M i s → M i (step s j).1)
    (hrelated : ∀ s i j, P s → M i s → E s j → R i j)
    (hs : P s) (hmn : m < n) (hi : is[m]? = some i)
    (hfirst : E (finalState step s (is.take m)) i)
    (hsecond : E (finalState step s (is.take n)) j) : R i j := by
  have hafter : M i (finalState step s (is.take (m + 1))) := by
    rw [finalState_take_succ hi]
    exact hmark _ i (finalState_invariant hstep hs _) hfirst
  have hlater : M i (finalState step s (is.take n)) :=
    finalState_take_keeps (fun s j => hkeep s i j) hmn hafter
  exact hrelated _ i j (finalState_invariant hstep hs _) hlater hsecond

end Hologotchi.Library
