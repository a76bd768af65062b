import Hologotchi.Python
import Hologotchi.Library.Rounding

/-! How the arithmetic of floats rounds its exact results. -/
namespace Hologotchi.Python

open Library.Rounding

def binary64 : Format := ⟨53, -1074, by decide⟩

/-- The finite values a `float` has. -/
def IsFloat (q : ℚ) : Prop := binary64.Holds q ∧ |q| < 2 ^ 1024

namespace Double

/-- The `float` an exact result becomes: the nearest one, infinite past the largest. -/
def round (x : ℚ) : Double :=
  let y := binary64.round x
  if |y| < 2 ^ 1024 then .finite y else if 0 < y then .posInf else .negInf

/-- A value that a `float` can have. -/
def Valid : Double → Prop
  | .finite q => IsFloat q
  | _ => True

end Double

variable {x y : ℚ} {a b c : Double}

theorem round_of_isFloat (h : IsFloat x) : Double.round x = .finite x := by
  rw [Double.round, round_of_holds h.1, if_pos h.2]

theorem valid_round (x : ℚ) : (Double.round x).Valid := by
  rw [Double.round]
  split_ifs with hfits
  · exact ⟨holds_round _ x, hfits⟩
  · trivial
  · trivial

/-- Rounding keeps the order. -/
theorem round_le_round (h : x ≤ y) : (Double.round x).le (.round y) = true := by
  have hmono := round_mono binary64 h
  rw [Double.round, Double.round]
  by_cases hx : |binary64.round x| < 2 ^ 1024
  · by_cases hy : |binary64.round y| < 2 ^ 1024
    · simpa [hx, hy, Double.le] using hmono
    · have hpos : 0 < binary64.round y := by
        by_contra hneg
        rw [abs_of_nonpos (not_lt.mp hneg)] at hy
        rw [abs_of_nonpos (hmono.trans (not_lt.mp hneg))] at hx
        exact hy ((neg_le_neg hmono).trans_lt hx)
      simp [hx, hy, hpos, Double.le]
  · by_cases hpos : 0 < binary64.round x
    · have hy : ¬ |binary64.round y| < 2 ^ 1024 := by
        rw [abs_of_pos hpos] at hx
        rw [abs_of_pos (hpos.trans_le hmono)]
        exact fun hlt => hx (hmono.trans_lt hlt)
      simp [hx, hy, hpos, hpos.trans_le hmono, Double.le]
    · simp only [hx, hpos, if_false]
      split_ifs
      all_goals simp [Double.le]

theorem lt_round_double {q : ℚ} (hq : 0 ≤ q) (h : q < binary64.round x) :
    (Double.finite q).lt (.round x) = true := by
  rw [Double.round]
  split_ifs with hfits hpos
  · simpa [Double.lt] using h
  · rfl
  · exact absurd (hq.trans_lt h) hpos

/-- More than half a gap between two floats is not rounded away from what is smaller than both. -/
theorem lt_round_of_gap {e t q : ℚ} (he : IsFloat e) (ht : IsFloat t) (hlt : e < t) (hq : 0 ≤ q)
    (hqe : q ≤ e) (hx : q + (t - e) / 2 < x) : (Double.finite q).lt (.round x) = true :=
  lt_round_double hq (lt_round he.1 ht.1 hlt hq hqe hx)

/-- A float above a rounded sum is further from the larger summand than the smaller one is. -/
theorem lt_round_of_rounded_sum {e t q : ℚ} (hx : IsFloat x) (hq : IsFloat q) (hpos : 0 ≤ q)
    (hle : q ≤ x) (ht : IsFloat t) (he : Double.round (x + q) = .finite e) (hlt : e < t) :
    (Double.finite q).lt (.round (t - x)) = true := by
  refine lt_round_double hpos (lt_round_of_sum hx.1 hq.1 hpos hle ht.1 ?_)
  rw [Double.round] at he
  split_ifs at he
  exact Double.finite.inj he ▸ hlt

end Hologotchi.Python
