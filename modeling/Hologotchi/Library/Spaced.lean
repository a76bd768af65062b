import Mathlib.Data.List.DropRight
import Mathlib.Data.List.Nodup
import Mathlib.Data.List.Infix

/-! Sequences in which an element may return only after enough others. -/
namespace Hologotchi.Library

variable {α : Type*} {k : ℕ} {x : α} {xs : List α}

/-- Any `k + 1` elements in a row are pairwise different. -/
def Spaced (k : ℕ) (xs : List α) : Prop :=
  ∀ window, window <:+: xs → window.length ≤ k + 1 → window.Nodup

theorem rtake_suffix (k : ℕ) (xs : List α) : xs.rtake k <:+ xs := List.drop_suffix _ _

theorem length_rtake_le (k : ℕ) (xs : List α) : (xs.rtake k).length ≤ k := by
  simp only [List.rtake, List.length_drop]
  omega

/-- Remembering the last `k` elements is enough to keep remembering them. -/
theorem rtake_rtake_concat (k : ℕ) (xs : List α) (x : α) :
    (xs.rtake k ++ [x]).rtake k = (xs ++ [x]).rtake k := by
  cases k with
  | zero => simp
  | succ k =>
    have hshorter : (xs.rtake (k + 1)).rtake k = xs.rtake k := by
      simp only [List.rtake_eq_reverse_take_reverse, List.reverse_reverse, List.take_take]
      simp
    simp [hshorter]

theorem spaced_nil : Spaced k ([] : List α) := by
  intro window hw _
  simp [List.infix_nil.mp hw]

/-- The last `k` elements are pairwise different. -/
theorem Spaced.nodup_rtake (h : Spaced k xs) : (xs.rtake k).Nodup :=
  h _ (rtake_suffix k xs).isInfix (Nat.le_succ_of_le (length_rtake_le k xs))

/-- A new element that is none of the last `k` may follow. -/
theorem Spaced.concat (h : Spaced k xs) (hx : x ∉ xs.rtake k) : Spaced k (xs ++ [x]) := by
  intro window hw hlen
  rcases List.infix_concat_iff.mp hw with hsuffix | hinfix
  · rcases List.suffix_concat_iff.mp hsuffix with rfl | ⟨front, rfl, hfront⟩
    · exact List.nodup_nil
    · have hfl : front.length ≤ k := by simpa using hlen
      have hnodup := h front hfront.isInfix (by omega)
      have hrecent : front <:+ xs.rtake k := by
        apply List.suffix_of_suffix_length_le hfront (rtake_suffix k xs)
        have hle := hfront.length_le
        simp only [List.rtake, List.length_drop]
        omega
      have hnew : x ∉ front := fun hmem => hx (hrecent.subset hmem)
      have hothers : ∀ a ∈ front, a ≠ x := fun a ha => ne_of_mem_of_not_mem ha hnew
      exact List.nodup_append.mpr ⟨hnodup, by simp, by simpa using hothers⟩
  · exact h window hinfix hlen

end Hologotchi.Library
