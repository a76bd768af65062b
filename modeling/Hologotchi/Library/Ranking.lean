import Mathlib.Data.List.Pairwise
import Mathlib.Data.List.Nodup
import Mathlib.Data.List.Perm.Subperm

/-! The first elements of a sorted list: what comes in, and what a latecomer is beaten by. -/
namespace Hologotchi.Library

variable {α : Type*} {R : α → α → Prop} {xs ys : List α} {k : ℕ} {a b : α} {p : α → Bool}

/-- What comes in goes before what is left out. -/
theorem before_of_mem_take (h : xs.Pairwise R) (ha : a ∈ xs.take k) (hb : b ∈ xs)
    (hout : b ∉ xs.take k) : R a b := by
  rw [← List.take_append_drop k xs] at h hb
  obtain ⟨-, -, hacross⟩ := List.pairwise_append.mp h
  rcases List.mem_append.mp hb with hb | hb
  · contradiction
  · exact hacross a ha b hb

/-- Something is left out only when all places are taken. -/
theorem length_take_of_notMem (hb : b ∈ xs) (hout : b ∉ xs.take k) : (xs.take k).length = k := by
  rcases Nat.le_total k xs.length with hle | hle
  · exact List.length_take_of_le hle
  · rw [List.take_of_length_le hle] at hout
    contradiction

/-- Different elements that all pass a test are at most as many as pass it. -/
theorem length_le_of_forall_mem (hnodup : xs.Nodup) (h : ∀ x ∈ xs, x ∈ ys ∧ p x = true) :
    xs.length ≤ (ys.filter p).length := by
  have hsubset : xs ⊆ ys.filter p := fun x hx => List.mem_filter.mpr (h x hx)
  exact (hnodup.subperm hsubset).length_le

/-- What is left out of the first `k` of a sorted list has `k` others before it. -/
theorem le_length_of_notMem_take (h : xs.Pairwise R) (hnodup : xs.Nodup) (hperm : ∀ x ∈ xs, x ∈ ys)
    (hb : b ∈ xs) (hout : b ∉ xs.take k) (hp : ∀ x ∈ xs, x ≠ b → R x b → p x = true) :
    k ≤ (ys.filter p).length := by
  rw [← length_take_of_notMem hb hout]
  apply length_le_of_forall_mem (hnodup.sublist (List.take_sublist k xs))
  intro x hx
  have hxs : x ∈ xs := List.mem_of_mem_take hx
  have hne : x ≠ b := ne_of_mem_of_not_mem hx hout
  exact ⟨hperm x hxs, hp x hxs hne (before_of_mem_take h hx hb hout)⟩

/-- What `k` others must go before is not among the first `k`. -/
theorem notMem_take (h : xs.Pairwise R) (hnodup : (b :: ys).Nodup)
    (hbefore : ∀ y ∈ ys, y ∈ xs ∧ ¬ R b y) (hk : k ≤ ys.length) : b ∉ xs.take k := by
  intro hb
  have hall : ∀ y ∈ b :: ys, y ∈ xs.take k := by
    intro y hy
    rcases List.mem_cons.mp hy with rfl | hy
    · exact hb
    · by_contra hout
      exact (hbefore y hy).2 (before_of_mem_take h hb (hbefore y hy).1 hout)
  have hlength := (hnodup.subperm hall).length_le
  simp only [List.length_cons, List.length_take] at hlength
  omega

end Hologotchi.Library
