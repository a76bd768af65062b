import Mathlib.Data.List.Pairwise

/-! Rows of a table: the statements that write them, and what holds of every row and of every
two rows. -/
namespace Hologotchi.Library.Table

variable {ρ : Type*}

/-- `UPDATE ... SET ... WHERE`. -/
def update (hit : ρ → Bool) (set : ρ → ρ) (rows : List ρ) : List ρ :=
  rows.map fun r => if hit r then set r else r

/-- `DELETE ... WHERE`. -/
def delete (hit : ρ → Bool) (rows : List ρ) : List ρ := rows.filter (!hit ·)

/-- `SELECT COUNT(*) ... WHERE`. -/
def count (hit : ρ → Bool) (rows : List ρ) : ℕ := (rows.filter hit).length

/-- Every row is as `P` says, and every two as `R` says. -/
structure Consistent (P : ρ → Prop) (R : ρ → ρ → Prop) (rows : List ρ) : Prop where
  each : ∀ r ∈ rows, P r
  pairwise : rows.Pairwise R

variable {P : ρ → Prop} {R : ρ → ρ → Prop} {rows : List ρ} {hit other : ρ → Bool} {set : ρ → ρ} {r : ρ}

theorem consistent_nil : Consistent P R [] := ⟨by simp, .nil⟩

theorem Consistent.insert (h : Consistent P R rows) (hr : P r) (hold : ∀ a ∈ rows, R a r) :
    Consistent P R (rows ++ [r]) where
  each := by simpa [or_imp, forall_and] using ⟨h.each, hr⟩
  pairwise := by
    refine List.pairwise_append.mpr ⟨h.pairwise, List.pairwise_singleton _ _, ?_⟩
    simpa using hold

theorem Consistent.delete (h : Consistent P R rows) : Consistent P R (delete hit rows) where
  each r hr := h.each r (List.mem_filter.mp hr).1
  pairwise := h.pairwise.filter _

/-- An update that keeps what each row satisfies, and nothing two rows are compared by. -/
theorem Consistent.update (h : Consistent P R rows) (hset : ∀ r ∈ rows, P r → P (set r))
    (hleft : ∀ a b, R a b → R (set a) b) (hright : ∀ a b, R a b → R a (set b)) :
    Consistent P R (update hit set rows) where
  each r hr := by
    obtain ⟨old, hold, rfl⟩ := List.mem_map.mp hr
    split
    · exact hset old hold (h.each old hold)
    · exact h.each old hold
  pairwise := by
    refine List.pairwise_map.mpr (h.pairwise.imp fun {a b} hab => ?_)
    split <;> split
    · exact hleft _ _ (hright _ _ hab)
    · exact hleft _ _ hab
    · exact hright _ _ hab
    · exact hab

/-- Two deletions that leave the same rows hit the same rows. -/
theorem delete_eq_iff : delete hit rows = delete other rows ↔ ∀ r ∈ rows, hit r = other r := by
  constructor
  · intro h r hr
    have hmem : r ∈ delete hit rows ↔ r ∈ delete other rows := by rw [h]
    simp only [delete, List.mem_filter, hr, true_and, Bool.not_eq_true'] at hmem
    cases hhit : hit r <;> cases hother : other r <;> simp_all
  · intro h
    apply List.filter_congr
    intro r hr
    rw [h r hr]

theorem count_congr (h : ∀ r ∈ rows, hit r = other r) : count hit rows = count other rows := by
  rw [count, count, List.filter_congr h]

/-- An update that a test does not notice. -/
theorem count_update (h : ∀ r, other (set r) = other r) :
    count other (update hit set rows) = count other rows := by
  have hsame : ∀ r, other (if hit r then set r else r) = other r := by
    intro r
    split
    · exact h r
    · rfl
  rw [count, count, update, List.filter_map, List.length_map]
  exact congrArg List.length (List.filter_congr fun r _ => hsame r)

theorem count_insert (hit : ρ → Bool) (rows : List ρ) (r : ρ) :
    count hit (rows ++ [r]) = count hit rows + if hit r then 1 else 0 := by
  rw [count, count, List.filter_append, List.length_append]
  cases hhit : hit r <;> simp [hhit]

end Hologotchi.Library.Table
