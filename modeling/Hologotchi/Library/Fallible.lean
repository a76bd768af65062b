import Mathlib.Init

/-! Taking a fallible computation that succeeded apart. -/
namespace Hologotchi.Library.Fallible

universe u v

variable {ε : Type u} {α β : Type v} {x : Except ε α} {f : α → Except ε β} {r : β}

theorem bind_eq_ok : (x >>= f) = .ok r ↔ ∃ a, x = .ok a ∧ f a = .ok r := by
  constructor
  · intro h
    cases x with
    | error e => contradiction
    | ok a => exact ⟨a, rfl, h⟩
  · rintro ⟨a, rfl, h⟩
    exact h

theorem isOk_bind (hx : x.isOk = true) (hf : ∀ a, (f a).isOk = true) : (x >>= f).isOk = true := by
  cases x with
  | error e => contradiction
  | ok a => exact hf a

/-- What a computation returns, the next one goes on with. -/
theorem returns_bind {Q : α → Prop} {R : β → Prop} (hx : ∃ a, x = .ok a ∧ Q a)
    (hf : ∀ a, Q a → ∃ b, f a = .ok b ∧ R b) : ∃ b, (x >>= f) = .ok b ∧ R b := by
  obtain ⟨a, rfl, ha⟩ := hx
  exact hf a ha

/-- Before what always succeeds. -/
theorem isOk_bind_iff (hf : ∀ a, (f a).isOk = true) : (x >>= f).isOk = true ↔ x.isOk = true := by
  cases x with
  | error e => exact Iff.rfl
  | ok a => exact iff_of_true (hf a) rfl

theorem exists_of_isOk (hx : x.isOk = true) : ∃ a, x = .ok a := by
  cases x with
  | error e => contradiction
  | ok a => exact ⟨a, rfl⟩

theorem isOk_iff_exists : x.isOk = true ↔ ∃ a, x = .ok a := by
  refine ⟨exists_of_isOk, ?_⟩
  rintro ⟨a, rfl⟩
  rfl

/-- A check that did not fail. -/
theorem of_ite_error {p : Prop} [Decidable p] {e : ε} {y : Except ε β}
    (h : (if p then .error e else y) = .ok r) : ¬ p ∧ y = .ok r := by
  split at h
  · contradiction
  · exact ⟨‹_›, h⟩

/-- A list gone through without an error. -/
theorem mapM_eq_ok {γ : Type*} {f : γ → Except ε α} {g : γ → α} {xs : List γ}
    (h : ∀ x ∈ xs, f x = .ok (g x)) : xs.mapM f = .ok (xs.map g) := by
  induction xs with
  | nil => rfl
  | cons x xs ih =>
    obtain ⟨hx, hrest⟩ := List.forall_mem_cons.mp h
    rw [List.mapM_cons, hx, ih hrest]
    rfl

/-- What a list was gone through with, item by item. -/
theorem getD_of_mapM {γ : Type*} {f : γ → Except ε α} {xs : List γ} {ys : List α} {i : Nat}
    (h : xs.mapM f = .ok ys) (hi : i < xs.length) (y : α) : f xs[i] = .ok (ys.getD i y) := by
  induction xs generalizing ys i with
  | nil => contradiction
  | cons x xs ih =>
    rw [List.mapM_cons] at h
    obtain ⟨first, hfirst, h⟩ := bind_eq_ok.mp h
    obtain ⟨rest, hrest, h⟩ := bind_eq_ok.mp h
    cases h
    cases i with
    | zero => exact hfirst
    | succ i => exact ih hrest (Nat.lt_of_succ_lt_succ hi)

theorem mapError_eq_ok_iff {δ : Type*} {g : ε → δ} {a : α} : x.mapError g = .ok a ↔ x = .ok a := by
  cases x with
  | error e => exact iff_of_false nofun nofun
  | ok b =>
    refine ⟨fun h => ?_, fun h => ?_⟩ <;>
    · cases h
      rfl

end Hologotchi.Library.Fallible
