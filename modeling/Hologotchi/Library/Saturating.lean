import Mathlib.Algebra.Order.Group.MinMax
import Mathlib.Order.Interval.Set.Defs

/-! Levels kept inside an interval: steps that stop at its ends, and steps towards a target. -/
namespace Hologotchi.Library.Saturating

variable {α : Type*} [LinearOrder α]

def clamp (lo hi x : α) : α := min hi (max lo x)

/-- One step towards the target, which it never passes. -/
def approach [AddCommGroup α] (target x amount : α) : α :=
  if x > target then max target (x - amount)
  else if x < target then min target (x + amount)
  else x

variable {lo hi target x y amount more : α}

theorem clamp_mem (h : lo ≤ hi) : clamp lo hi x ∈ Set.Icc lo hi :=
  ⟨le_min h (le_max_left _ _), min_le_left _ _⟩

theorem clamp_of_mem (h : x ∈ Set.Icc lo hi) : clamp lo hi x = x := by
  rw [clamp, max_eq_right h.1, min_eq_right h.2]

theorem clamp_of_le (h : lo ≤ hi) (hx : x ≤ lo) : clamp lo hi x = lo := by
  rw [clamp, max_eq_left hx, min_eq_right h]

theorem clamp_of_ge (hx : hi ≤ x) : clamp lo hi x = hi :=
  min_eq_left (le_max_of_le_right hx)

theorem clamp_mono (h : x ≤ y) : clamp lo hi x ≤ clamp lo hi y :=
  min_le_min_left hi (max_le_max_left lo h)

theorem clamp_le_self (hx : lo ≤ x) : clamp lo hi x ≤ x :=
  (min_le_right _ _).trans (max_le hx le_rfl)

theorem le_clamp_self (hx : x ≤ hi) : x ≤ clamp lo hi x :=
  le_min hx (le_max_right _ _)

/-! Two steps the same way saturate as one: only the near end can be reached, and from there
the second step would only leave the interval again. -/
section Composition

variable [AddCommGroup α] [IsOrderedAddMonoid α]

theorem clamp_sub_clamp (h : lo ≤ hi) (hx : x ≤ hi) (hm : 0 ≤ more) :
    clamp lo hi (clamp lo hi x - more) = clamp lo hi (x - more) := by
  rcases le_total lo x with hlo | hlo
  · rw [clamp_of_mem ⟨hlo, hx⟩]
  · have hend : lo - more ≤ lo := sub_le_self lo hm
    have hpast : x - more ≤ lo := (sub_le_self x hm).trans hlo
    rw [clamp_of_le h hlo, clamp_of_le h hend, clamp_of_le h hpast]

theorem clamp_add_clamp (hx : lo ≤ x) (hm : 0 ≤ more) :
    clamp lo hi (clamp lo hi x + more) = clamp lo hi (x + more) := by
  rcases le_total x hi with hhi | hhi
  · rw [clamp_of_mem ⟨hx, hhi⟩]
  · have hend : hi ≤ hi + more := le_add_of_nonneg_right hm
    have hpast : hi ≤ x + more := hhi.trans (le_add_of_nonneg_right hm)
    rw [clamp_of_ge hhi, clamp_of_ge hend, clamp_of_ge hpast]

theorem approach_of_ge (h : target ≤ x) (ha : 0 ≤ amount) :
    approach target x amount = max target (x - amount) := by
  rcases h.lt_or_eq with h | rfl
  · exact if_pos h
  · have hback : target - amount ≤ target := sub_le_self target ha
    simp [approach, max_eq_left hback]

theorem approach_of_le (h : x ≤ target) (ha : 0 ≤ amount) :
    approach target x amount = min target (x + amount) := by
  rcases h.lt_or_eq with h | rfl
  · exact (if_neg h.not_gt).trans (if_pos h)
  · have hforth : x ≤ x + amount := le_add_of_nonneg_right ha
    simp [approach, min_eq_left hforth]

/-- Neither step passes the target, so both stay on the side they started on. -/
theorem approach_approach (ha : 0 ≤ amount) (hm : 0 ≤ more) :
    approach target (approach target x amount) more = approach target x (amount + more) := by
  have hsum : 0 ≤ amount + more := add_nonneg ha hm
  rcases le_total target x with h | h
  · have hback : target - more ≤ target := sub_le_self target hm
    rw [approach_of_ge h ha, approach_of_ge (le_max_left _ _) hm, approach_of_ge h hsum,
      ← max_sub_sub_right, ← max_assoc, max_eq_left hback, sub_sub]
  · have hforth : target ≤ target + more := le_add_of_nonneg_right hm
    rw [approach_of_le h ha, approach_of_le (min_le_left _ _) hm, approach_of_le h hsum,
      ← min_add_add_right, ← min_assoc, min_eq_left hforth, add_assoc]

end Composition

/-- A step towards a target inside the interval does not leave it: it stays between where it
was and the target. -/
theorem approach_mem [AddCommGroup α] [IsOrderedAddMonoid α] (ht : target ∈ Set.Icc lo hi)
    (hx : x ∈ Set.Icc lo hi) (ha : 0 ≤ amount) : approach target x amount ∈ Set.Icc lo hi := by
  obtain ⟨hlo, hhi⟩ := hx
  unfold approach
  split
  · have hback : x - amount ≤ x := sub_le_self x ha
    exact ⟨le_max_of_le_left ht.1, max_le ht.2 (hback.trans hhi)⟩
  · split
    · have hforth : x ≤ x + amount := le_add_of_nonneg_right ha
      exact ⟨le_min ht.1 (hlo.trans hforth), min_le_of_left_le ht.2⟩
    · exact ⟨hlo, hhi⟩

end Hologotchi.Library.Saturating
