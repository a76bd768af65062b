import Hologotchi.Library.Layers
import Mathlib.Data.Set.Function
import Mathlib.Order.Interval.Set.Defs

/-! Writing items one after another at the positions of a scan, and what is read back. -/
namespace Hologotchi.Library.Scan

open Layers

universe v

variable {σ α : Type v} {π : Type*} {get : σ → π → α} {set : σ → π → α → σ} {scan : ℕ → π} {s : σ}
  {items : List α} {q : π} {k i n : ℕ}

/-- Write the items from the `k`-th position on. -/
def fill (set : σ → π → α → σ) (scan : ℕ → π) : σ → ℕ → List α → σ
  | s, _, [] => s
  | s, k, a :: items => fill set scan (set s (scan k) a) (k + 1) items

variable [DecidableEq π]

/-- What no item is written over stays. -/
theorem get_fill_of_ne (hlaw : Lawful get set) (h : ∀ i < items.length, scan (k + i) ≠ q) :
    get (fill set scan s k items) q = get s q := by
  induction items generalizing s k with
  | nil => rfl
  | cons a items ih =>
    have hfirst : scan k ≠ q := h 0 (Nat.succ_pos _)
    have hrest : ∀ i < items.length, scan (k + 1 + i) ≠ q := by
      intro i hi
      have hlater := h (i + 1) (Nat.succ_lt_succ hi)
      rwa [Nat.add_comm i 1, ← Nat.add_assoc] at hlater
    rw [fill, ih hrest, hlaw, if_neg hfirst]

/-- A scan that comes to no place twice leaves every item at its place. -/
theorem get_fill (hlaw : Lawful get set) (hinj : Set.InjOn scan (Set.Iio (k + items.length)))
    (hi : i < items.length) : get (fill set scan s k items) (scan (k + i)) = items[i] := by
  induction items generalizing s k i with
  | nil => exact absurd hi (Nat.not_lt_zero i)
  | cons a items ih =>
    rw [List.length_cons] at hinj hi
    cases i with
    | zero =>
      have hlater : ∀ i < items.length, scan (k + 1 + i) ≠ scan k := by
        intro i hi heq
        have hpos : k + 1 + i = k := hinj (by simp; omega) (by simp) heq
        omega
      rw [fill]
      exact (get_fill_of_ne hlaw hlater).trans ((hlaw _ _ _ _).trans (if_pos rfl))
    | succ i =>
      have hrest : Set.InjOn scan (Set.Iio (k + 1 + items.length)) := by
        rwa [Nat.add_assoc, Nat.add_comm 1]
      have hnext := ih (s := set s (scan k) a) hrest (Nat.lt_of_succ_lt_succ hi)
      rw [fill, List.getElem_cons_succ, ← hnext]
      congr 2
      omega

/-- The `k`-th position when rows of `n` are gone through one after the other. -/
def rowAt (n k : ℕ) : ℕ × ℕ := (k % n, k / n)

theorem rowAt_injective (n : ℕ) : Function.Injective (rowAt n) := by
  intro j k h
  obtain ⟨hmod, hdiv⟩ := Prod.mk.inj h
  rw [← Nat.div_add_mod j n, ← Nat.div_add_mod k n, hmod, hdiv]

theorem rowAt_mul_add {x y : ℕ} (hx : x < n) : rowAt n (y * n + x) = (x, y) := by
  have hpos : 0 < n := Nat.zero_lt_of_lt hx
  rw [rowAt, Nat.mul_comm, Nat.mul_add_mod, Nat.mod_eq_of_lt hx, Nat.mul_add_div hpos,
    Nat.div_eq_of_lt hx, Nat.add_zero]

/-- Inside of a row the scan moves along it. -/
theorem rowAt_succ (h : k % n + 1 < n) : rowAt n (k + 1) = (k % n + 1, k / n) := by
  have hk : k + 1 = k / n * n + (k % n + 1) := by
    rw [Nat.mul_comm, ← Nat.add_assoc, Nat.div_add_mod]
  rw [hk, rowAt_mul_add h]

/-- From the end of a row it goes on with the next one. -/
theorem rowAt_wrap (hpos : 0 < n) (h : ¬ k % n + 1 < n) : rowAt n (k + 1) = (0, k / n + 1) := by
  have hmod : k % n < n := Nat.mod_lt k hpos
  have hdiv := Nat.div_add_mod k n
  have hnext : n * (k / n + 1) = n * (k / n) + n := Nat.mul_succ _ _
  have hk : k + 1 = (k / n + 1) * n + 0 := by
    rw [Nat.mul_comm]
    omega
  rw [hk, rowAt_mul_add hpos]

end Hologotchi.Library.Scan
