import Mathlib.Algebra.BigOperators.Group.List.Basic
import Mathlib.Algebra.Order.Floor.Semiring
import Mathlib.Algebra.Order.Field.Basic
import Mathlib.Tactic.FieldSimp
import Mathlib.Tactic.Linarith
import Mathlib.Tactic.Ring

/-! Using an amount up in portions of a fixed size, the last of which may be smaller. -/
namespace Hologotchi.Library.Portions

variable {K : Type*} [Field K] [LinearOrder K] [IsStrictOrderedRing K] [FloorSemiring K]
  {cap amount x : K}

/-- The number of portions. -/
def count (cap amount : K) : ℕ := ⌈amount / cap⌉₊

def portions (cap amount : K) : List K :=
  List.replicate (count cap amount - 1) cap ++ [amount - (count cap amount - 1 : ℕ) * cap]

theorem count_pos (hcap : 0 < cap) (h : 0 < amount) : 0 < count cap amount :=
  Nat.ceil_pos.mpr (div_pos h hcap)

theorem count_of_le (hcap : 0 < cap) (h : 0 < amount) (hle : amount ≤ cap) :
    count cap amount = 1 := by
  have hpos := count_pos hcap h
  have hone : count cap amount ≤ 1 := by
    rw [count, Nat.ceil_le, Nat.cast_one]
    exact (div_le_one hcap).mpr hle
  omega

theorem count_of_lt (hcap : 0 < cap) (hlt : cap < amount) :
    count cap amount = count cap (amount - cap) + 1 := by
  have hdiv : amount / cap = (amount - cap) / cap + 1 := by
    field_simp
    ring
  rw [count, count, hdiv]
  exact Nat.ceil_add_one (div_nonneg (by linarith) hcap.le)

/-- Taking at least a portion brings the end at least one portion closer. -/
theorem count_sub_lt (hcap : 0 < cap) (h : 0 < amount) (hx : min cap amount ≤ x) :
    count cap (amount - x) < count cap amount := by
  have hmono : count cap (amount - x) ≤ count cap (amount - min cap amount) := by
    refine Nat.ceil_mono (div_le_div_of_nonneg_right ?_ hcap.le)
    linarith
  refine Nat.lt_of_le_of_lt hmono ?_
  rcases le_or_gt amount cap with hle | hlt
  · rw [min_eq_right hle, sub_self, count_of_le hcap h hle, count, zero_div, Nat.ceil_zero]
    exact Nat.one_pos
  · rw [min_eq_left hlt.le, count_of_lt hcap hlt]
    exact Nat.lt_succ_self _

theorem portions_of_le (hcap : 0 < cap) (h : 0 < amount) (hle : amount ≤ cap) :
    portions cap amount = [amount] := by
  rw [portions, count_of_le hcap h hle]
  simp

theorem portions_of_lt (hcap : 0 < cap) (hlt : cap < amount) :
    portions cap amount = cap :: portions cap (amount - cap) := by
  have hpos := count_pos hcap (sub_pos.mpr hlt)
  obtain ⟨n, hn⟩ := Nat.exists_eq_succ_of_ne_zero hpos.ne'
  rw [portions, portions, count_of_lt hcap hlt, hn]
  simp only [Nat.succ_eq_add_one, Nat.add_sub_cancel, List.replicate_succ, List.cons_append,
    Nat.cast_add, Nat.cast_one]
  congr 3
  ring

/-- What holds of one portion, and of an amount when it holds of a portion less, holds of all. -/
theorem portions_induction {P : K → Prop} (hcap : 0 < cap)
    (last : ∀ amount, 0 < amount → amount ≤ cap → P amount)
    (more : ∀ amount, cap < amount → P (amount - cap) → P amount) (h : 0 < amount) :
    P amount := by
  induction hn : count cap amount using Nat.strongRecOn generalizing amount with
  | ind n ih =>
    rcases le_or_gt amount cap with hle | hlt
    · exact last amount h hle
    · have hcount := count_of_lt hcap hlt
      exact more amount hlt (ih (count cap (amount - cap)) (by omega) (sub_pos.mpr hlt) rfl)

omit [IsStrictOrderedRing K] in
theorem sum_portions (cap amount : K) : (portions cap amount).sum = amount := by
  simp [portions]

theorem portions_bounds (hcap : 0 < cap) (h : 0 < amount) :
    ∀ x ∈ portions cap amount, 0 < x ∧ x ≤ cap := by
  refine portions_induction (P := fun amount => ∀ x ∈ portions cap amount, 0 < x ∧ x ≤ cap)
    hcap ?_ ?_ h
  · intro amount h hle
    rw [portions_of_le hcap h hle]
    simpa using ⟨h, hle⟩
  · intro amount hlt ih
    rw [portions_of_lt hcap hlt]
    intro x hx
    rcases List.mem_cons.mp hx with rfl | hx
    · exact ⟨hcap, le_rfl⟩
    · exact ih x hx

omit [IsStrictOrderedRing K] in
theorem portions_ne_nil (cap amount : K) : portions cap amount ≠ [] := by
  simp [portions]

end Hologotchi.Library.Portions
