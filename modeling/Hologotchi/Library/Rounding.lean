import Mathlib.Data.Int.Log
import Mathlib.Data.Rat.Floor
import Mathlib.Algebra.Order.Field.Power
import Mathlib.Tactic.Linarith
import Mathlib.Tactic.Positivity
import Mathlib.Tactic.Ring

/-! Binary formats of a fixed precision, and rounding to the nearest value of one. -/
namespace Hologotchi.Library.Rounding

/-- Significands of so many bits, in units of no less than `2 ^ minExponent`. -/
structure Format where
  precision : ℕ
  minExponent : ℤ
  positive : 0 < precision

/-- The nearest integer, the even one of two. -/
def nearest (x : ℚ) : ℤ :=
  if x - ⌊x⌋ < 1 / 2 then ⌊x⌋
  else if 1 / 2 < x - ⌊x⌋ then ⌊x⌋ + 1
  else if ⌊x⌋ % 2 = 0 then ⌊x⌋ else ⌊x⌋ + 1

namespace Format

variable (F : Format)

/-- The exponent of the unit that a value of this size is rounded to. -/
def exponent (x : ℚ) : ℤ := max F.minExponent (Int.log 2 |x| - (F.precision - 1))

def unit (x : ℚ) : ℚ := 2 ^ F.exponent x

def round (x : ℚ) : ℚ := nearest (x / F.unit x) * F.unit x

/-- The format has this value. -/
def Holds (x : ℚ) : Prop :=
  ∃ (m e : ℤ), |m| ≤ 2 ^ F.precision ∧ F.minExponent ≤ e ∧ x = m * 2 ^ e

end Format

theorem nearest_bounds (x : ℚ) : ⌊x⌋ ≤ nearest x ∧ nearest x ≤ ⌊x⌋ + 1 := by
  rw [nearest]
  split_ifs
  all_goals omega

theorem le_nearest {n : ℤ} {x : ℚ} (h : n ≤ x) : n ≤ nearest x :=
  (Int.le_floor.mpr h).trans (nearest_bounds x).1

theorem nearest_le {n : ℤ} {x : ℚ} (h : x ≤ n) : nearest x ≤ n := by
  rcases h.eq_or_lt with rfl | hlt
  · simp [nearest]
  · have hfloor : ⌊x⌋ < n := Int.floor_lt.mpr hlt
    have hbound := (nearest_bounds x).2
    omega

theorem nearest_intCast (n : ℤ) : nearest n = n := (nearest_le le_rfl).antisymm (le_nearest le_rfl)

theorem nearest_error (x : ℚ) : |(nearest x : ℚ) - x| ≤ 1 / 2 := by
  have hbelow := Int.floor_le x
  have habove := Int.lt_floor_add_one x
  rw [nearest, abs_le]
  split_ifs
  all_goals
    push_cast
    constructor <;> linarith

theorem nearest_neg (x : ℚ) : nearest (-x) = -nearest x := by
  rcases (Int.floor_le x).eq_or_lt with hint | hrest
  · rw [← hint, ← Int.cast_neg, nearest_intCast, nearest_intCast]
  · have hfloor : ⌊-x⌋ = -⌊x⌋ - 1 := by
      have hlt := Int.lt_floor_add_one x
      refine Int.floor_eq_iff.mpr ⟨?_, ?_⟩
      all_goals
        push_cast
        linarith
    have hleft : -x - (⌊-x⌋ : ℤ) = 1 - (x - ⌊x⌋) := by
      rw [hfloor]
      push_cast
      ring
    rw [nearest, nearest, hleft, hfloor]
    split_ifs
    all_goals first | omega | linarith

theorem nearest_mono {x y : ℚ} (h : x ≤ y) : nearest x ≤ nearest y := by
  have hfloor := Int.floor_le_floor h
  rcases hfloor.eq_or_lt with heq | hlt
  · have hrest : x - ⌊x⌋ ≤ y - ⌊y⌋ := by
      rw [heq]
      exact sub_le_sub_right h _
    rw [nearest, nearest, ← heq] at *
    split_ifs
    all_goals first | omega | linarith
  · have hx := (nearest_bounds x).2
    have hy := (nearest_bounds y).1
    omega

variable {F : Format} {x y b e t q : ℚ}

theorem unit_pos : 0 < F.unit x := zpow_pos (by norm_num) _

theorem lt_precision (F : Format) (x : ℚ) : |x| < 2 ^ (F.exponent x + F.precision) := by
  have hlog : |x| < 2 ^ (Int.log 2 |x| + 1) := Int.lt_zpow_succ_log_self (by norm_num) _
  refine hlog.trans_le (zpow_le_zpow_right₀ (by norm_num) ?_)
  have hexponent : Int.log 2 |x| - (F.precision - 1) ≤ F.exponent x := le_max_right _ _
  omega

/-- A value that is not rounded to the least unit fills the precision. -/
theorem precision_le (hx : x ≠ 0) (h : F.minExponent < F.exponent x) :
    2 ^ (F.exponent x + F.precision - 1) ≤ |x| := by
  have hexponent : F.exponent x = Int.log 2 |x| - (F.precision - 1) := by
    rcases max_choice F.minExponent (Int.log 2 |x| - (F.precision - 1)) with hmin | hlog
    · exact absurd hmin h.ne'
    · exact hlog
  have hlog : F.exponent x + F.precision - 1 = Int.log 2 |x| := by omega
  rw [hlog]
  exact Int.zpow_log_le_self (by norm_num) (abs_pos.mpr hx)

theorem minExponent_le (F : Format) (x : ℚ) : F.minExponent ≤ F.exponent x := le_max_left _ _

theorem exponent_mono (hx : x ≠ 0) (h : |x| ≤ |y|) : F.exponent x ≤ F.exponent y :=
  max_le_max le_rfl (sub_le_sub_right (Int.log_mono_right (abs_pos.mpr hx) h) _)

theorem holds_zero (F : Format) : F.Holds 0 := ⟨0, F.minExponent, by simp, le_rfl, by simp⟩

theorem holds_neg (h : F.Holds x) : F.Holds (-x) := by
  obtain ⟨m, e, hm, he, rfl⟩ := h
  exact ⟨-m, e, by rwa [abs_neg], he, by push_cast; ring⟩

/-- The least value that fills the precision in the unit of `x`. -/
def Format.full (F : Format) (x : ℚ) : ℚ := ((2 ^ (F.precision - 1) : ℤ) : ℚ) * F.unit x

theorem full_eq (F : Format) (x : ℚ) : F.full x = 2 ^ (F.exponent x + F.precision - 1) := by
  have hpositive := F.positive
  have hexponent : F.exponent x + F.precision - 1 = ((F.precision - 1 : ℕ) : ℤ) + F.exponent x := by
    omega
  rw [hexponent, zpow_add₀ (by norm_num), zpow_natCast, Format.full, Format.unit]
  push_cast
  rfl

theorem holds_full (F : Format) (x : ℚ) : F.Holds (F.full x) := by
  refine ⟨2 ^ (F.precision - 1), F.exponent x, ?_, minExponent_le F x, rfl⟩
  rw [abs_of_nonneg (by positivity)]
  exact pow_le_pow_right₀ (by norm_num) (Nat.sub_le _ _)

/-- What is rounded to a finer unit is smaller than what fills the precision. -/
theorem lt_full (h : F.exponent y < F.exponent x) : |y| < F.full x := by
  rw [full_eq]
  refine (lt_precision F y).trans_le (zpow_le_zpow_right₀ (by norm_num) ?_)
  omega

theorem full_le (hx : x ≠ 0) (h : F.exponent y < F.exponent x) : F.full x ≤ |x| := by
  rw [full_eq]
  exact precision_le hx ((minExponent_le F y).trans_lt h)

/-- A value of the format is a multiple of its own unit and of all finer ones. -/
theorem holds_multiple (hb : F.Holds b) (h : F.exponent x ≤ F.exponent b) :
    ∃ n : ℤ, b = n * F.unit x := by
  have hscale : ∀ (m e : ℤ), F.exponent x ≤ e → ∃ n : ℤ, (m : ℚ) * 2 ^ e = n * F.unit x := by
    intro m e he
    refine ⟨m * 2 ^ (e - F.exponent x).toNat, ?_⟩
    have hsplit : e = ((e - F.exponent x).toNat : ℤ) + F.exponent x := by omega
    conv_lhs => rw [hsplit, zpow_add₀ (by norm_num), zpow_natCast]
    rw [Format.unit]
    push_cast
    ring
  rcases eq_or_ne b 0 with rfl | hne
  · exact ⟨0, by simp⟩
  obtain ⟨m, e, hm, he, hvalue⟩ := hb
  rcases le_or_gt (F.exponent x) e with hfine | hcoarse
  · rw [hvalue]
    exact hscale m e hfine
  -- in a unit finer than its own a value has to fill the precision
  have hfull : |b| ≤ F.full b := by
    have hm' : |(m : ℚ)| ≤ 2 ^ F.precision := by exact_mod_cast hm
    rw [hvalue, abs_mul, abs_of_pos (zpow_pos (by norm_num : (0 : ℚ) < 2) e), ← hvalue, full_eq]
    calc |(m : ℚ)| * 2 ^ e ≤ 2 ^ (F.precision : ℤ) * 2 ^ e := by
          rw [zpow_natCast]
          exact mul_le_mul_of_nonneg_right hm' (zpow_pos (by norm_num) e).le
      _ = 2 ^ (F.precision + e) := (zpow_add₀ (by norm_num) _ _).symm
      _ ≤ 2 ^ (F.exponent b + F.precision - 1) := zpow_le_zpow_right₀ (by norm_num) (by omega)
  have habs : |b| = F.full b := by
    refine hfull.antisymm ?_
    rw [full_eq]
    exact precision_le hne (by omega)
  obtain ⟨n, hn⟩ := hscale (2 ^ (F.precision - 1)) (F.exponent b) h
  have hn : F.full b = n * F.unit x := by exact_mod_cast hn
  rcases abs_choice b with hpos | hneg
  · exact ⟨n, by rw [← hpos, habs, hn]⟩
  · refine ⟨-n, ?_⟩
    push_cast
    rw [neg_mul, ← hn, ← habs, hneg, neg_neg]

theorem round_le (hb : F.Holds b) (h : x ≤ b) : F.round x ≤ b := by
  have hround : ∀ n : ℤ, x ≤ n * F.unit x → F.round x ≤ n * F.unit x := by
    intro n hn
    have hnearest : nearest (x / F.unit x) ≤ n := nearest_le ((div_le_iff₀ unit_pos).mpr hn)
    exact mul_le_mul_of_nonneg_right (by exact_mod_cast hnearest) unit_pos.le
  rcases eq_or_ne x 0 with rfl | hne
  · refine (hround 0 (by simp)).trans ?_
    simpa using h
  rcases le_or_gt (F.exponent x) (F.exponent b) with hfine | hcoarse
  · obtain ⟨n, hn⟩ := holds_multiple hb hfine
    rw [hn] at h ⊢
    exact hround n h
  -- then `x` is below zero and has already filled the precision
  · have hfull := full_le hne hcoarse
    have hbelow := abs_lt.mp (lt_full hcoarse)
    have hneg : F.full x ≤ -x := by
      rcases abs_choice x with hpos | hneg
      · linarith [hbelow.2]
      · rwa [hneg] at hfull
    refine (hround (-2 ^ (F.precision - 1)) ?_).trans ?_
    all_goals
      have hn : ((-2 ^ (F.precision - 1) : ℤ) : ℚ) * F.unit x = -F.full x := by
        rw [Format.full]
        push_cast
        ring
      rw [hn]
      linarith [hbelow.1]

theorem round_neg (F : Format) (x : ℚ) : F.round (-x) = -F.round x := by
  have hunit : F.unit (-x) = F.unit x := by rw [Format.unit, Format.unit, Format.exponent,
    Format.exponent, abs_neg]
  rw [Format.round, Format.round, hunit, neg_div, nearest_neg]
  push_cast
  ring

theorem le_round (hb : F.Holds b) (h : b ≤ x) : b ≤ F.round x := by
  have hneg := round_le (holds_neg hb) (neg_le_neg h)
  rw [round_neg] at hneg
  exact neg_le_neg_iff.mp hneg

theorem round_of_holds (h : F.Holds x) : F.round x = x :=
  (round_le h le_rfl).antisymm (le_round h le_rfl)

theorem holds_round (F : Format) (x : ℚ) : F.Holds (F.round x) := by
  refine ⟨nearest (x / F.unit x), F.exponent x, ?_, minExponent_le F x, rfl⟩
  have hsize : |x / F.unit x| < 2 ^ F.precision := by
    rw [abs_div, abs_of_pos unit_pos, div_lt_iff₀ unit_pos, Format.unit, ← zpow_natCast,
      ← zpow_add₀ (by norm_num), add_comm]
    exact lt_precision F x
  obtain ⟨hbelow, habove⟩ := abs_lt.mp hsize
  refine abs_le.mpr ⟨le_nearest ?_, nearest_le ?_⟩
  all_goals
    push_cast
    linarith

/-- Between two values that are rounded to different units the format has a value. -/
theorem exists_between (h : x ≤ y) (hne : F.exponent x ≠ F.exponent y) (hx : x ≠ 0) (hy : y ≠ 0) :
    ∃ b, F.Holds b ∧ x ≤ b ∧ b ≤ y := by
  rcases lt_or_gt_of_ne hne with hlt | hgt
  · have hbelow := abs_lt.mp (lt_full hlt)
    have hfull := full_le hy hlt
    refine ⟨F.full y, holds_full F y, hbelow.2.le, ?_⟩
    rcases abs_choice y with hpos | hneg
    · rwa [hpos] at hfull
    · linarith [hbelow.1]
  · have habove := abs_lt.mp (lt_full hgt)
    have hfull := full_le hx hgt
    refine ⟨-F.full x, holds_neg (holds_full F x), ?_, habove.1.le⟩
    rcases abs_choice x with hpos | hneg
    · linarith [habove.2]
    · rw [hneg] at hfull
      linarith

theorem round_mono (F : Format) (h : x ≤ y) : F.round x ≤ F.round y := by
  have hbetween : ∀ b, F.Holds b → x ≤ b → b ≤ y → F.round x ≤ F.round y := by
    intro b hb hxb hby
    exact (round_le hb hxb).trans (le_round hb hby)
  rcases eq_or_ne x 0 with rfl | hx
  · exact hbetween 0 (holds_zero F) le_rfl h
  rcases eq_or_ne y 0 with rfl | hy
  · exact hbetween 0 (holds_zero F) h le_rfl
  by_cases heq : F.exponent x = F.exponent y
  · have hunit : F.unit x = F.unit y := by rw [Format.unit, Format.unit, heq]
    have hnearest := nearest_mono (div_le_div_of_nonneg_right h (unit_pos (F := F) (x := y)).le)
    rw [Format.round, Format.round, hunit]
    exact mul_le_mul_of_nonneg_right (by exact_mod_cast hnearest) unit_pos.le
  · obtain ⟨b, hb, hxb, hby⟩ := exists_between h heq hx hy
    exact hbetween b hb hxb hby

theorem holds_of_multiple {n : ℤ} (h : x = n * F.unit x) : F.Holds x := by
  have hdiv : x / F.unit x = n := (div_eq_iff unit_pos.ne').mpr h
  have hround : F.round x = x := by rw [Format.round, hdiv, nearest_intCast, ← h]
  exact hround ▸ holds_round F x

/-- Rounding moves a value by half a unit at most. -/
theorem round_error (F : Format) (x : ℚ) : |F.round x - x| ≤ F.unit x / 2 := by
  have hscale : F.round x - x = ((nearest (x / F.unit x) : ℚ) - x / F.unit x) * F.unit x := by
    rw [sub_mul, div_mul_cancel₀ _ unit_pos.ne', Format.round]
  rw [hscale, abs_mul, abs_of_pos unit_pos]
  calc |(nearest (x / F.unit x) : ℚ) - x / F.unit x| * F.unit x
      ≤ 1 / 2 * F.unit x := mul_le_mul_of_nonneg_right (nearest_error _) unit_pos.le
    _ = F.unit x / 2 := by ring

theorem unit_le_sub {m n : ℤ} (he : e = m * F.unit x) (ht : t = n * F.unit x) (hlt : e < t) :
    F.unit x ≤ t - e := by
  have hmn : m < n := by
    rw [he, ht] at hlt
    exact_mod_cast lt_of_mul_lt_mul_right hlt unit_pos.le
  have hstep : ((m : ℚ) + 1) * F.unit x ≤ n * F.unit x :=
    mul_le_mul_of_nonneg_right (by exact_mod_cast hmn) unit_pos.le
  rw [add_mul, ← he, ← ht] at hstep
  linarith

/-- What is above `q` by more than half the unit of a larger value is not rounded to `q`. -/
theorem lt_round_of_half_unit (hq : 0 ≤ q) (hqe : q ≤ |e|) (hx : q + F.unit e / 2 < x) :
    q < F.round x := by
  have hu : 0 < F.unit e := unit_pos
  rcases le_or_gt (F.exponent x) (F.exponent e) with hfine | hcoarse
  · have hunit : F.unit x ≤ F.unit e := zpow_le_zpow_right₀ (by norm_num) hfine
    have herror := (abs_le.mp (round_error F x)).1
    linarith
  · have hxpos : 0 < x := by linarith
    have hfull := full_le hxpos.ne' hcoarse
    rw [abs_of_pos hxpos] at hfull
    calc q ≤ |e| := hqe
      _ < F.full x := lt_full hcoarse
      _ ≤ F.round x := le_round (holds_full F x) hfull

/-- More than half a gap between two values of the format is not rounded away from what is smaller
than both. -/
theorem lt_round (he : F.Holds e) (ht : F.Holds t) (hlt : e < t) (hq : 0 ≤ q) (hqe : q ≤ e)
    (hx : q + (t - e) / 2 < x) : q < F.round x := by
  have hepos : 0 ≤ e := hq.trans hqe
  have htpos : 0 < t := hepos.trans_lt hlt
  obtain ⟨n, hn⟩ := holds_multiple ht le_rfl
  rcases eq_or_ne e 0 with rfl | hne
  · have hgap := unit_le_sub (m := 0) (by simp) hn htpos
    exact lt_round_of_half_unit (e := t) hq (by rw [abs_of_pos htpos]; linarith) (by linarith)
  · have hexponent : F.exponent e ≤ F.exponent t := by
      refine exponent_mono hne ?_
      rw [abs_of_nonneg hepos, abs_of_pos htpos]
      exact hlt.le
    obtain ⟨m, hm⟩ := holds_multiple he le_rfl
    obtain ⟨n, hn⟩ := holds_multiple ht hexponent
    have hgap := unit_le_sub hm hn hlt
    exact lt_round_of_half_unit hq (by rwa [abs_of_nonneg hepos]) (by linarith)

/-- A value of the format above a rounding is half a unit above what was rounded. -/
theorem half_unit_le_sub (hx : 0 < x) (ht : F.Holds t) (hlt : F.round x < t) :
    F.unit x / 2 ≤ t - x := by
  have habove : x < t := by
    by_contra hle
    exact (le_round ht (not_lt.mp hle)).not_gt hlt
  have hexponent : F.exponent x ≤ F.exponent t := by
    refine exponent_mono hx.ne' ?_
    rw [abs_of_pos hx, abs_of_pos (hx.trans habove)]
    exact habove.le
  obtain ⟨n, hn⟩ := holds_multiple ht hexponent
  have hgap : F.unit x ≤ t - F.round x := unit_le_sub rfl hn hlt
  have herror := (abs_le.mp (round_error F x)).1
  linarith

/-- A sum that has to be rounded is rounded to a coarser unit than its smaller summand has. -/
theorem exponent_lt_of_sum (hb : F.Holds b) (hq : F.Holds q) (hpos : 0 < q) (hle : q ≤ b)
    (hsum : ¬ F.Holds (b + q)) : F.exponent q < F.exponent (b + q) := by
  by_contra hnot
  have hmono : ∀ y, q ≤ y → F.exponent q ≤ F.exponent y := by
    intro y hy
    refine exponent_mono hpos.ne' ?_
    rwa [abs_of_pos hpos, abs_of_pos (hpos.trans_le hy)]
  have hexponent := (not_lt.mp hnot).antisymm (hmono (b + q) (by linarith))
  obtain ⟨m, hm⟩ := holds_multiple hb (hexponent.trans_le (hmono b hle))
  obtain ⟨n, hn⟩ := holds_multiple hq hexponent.le
  refine hsum (holds_of_multiple (n := m + n) ?_)
  push_cast
  rw [add_mul, ← hm, ← hn]

/-- A value of the format above a rounded sum is further from the larger summand than the smaller
one is, rounded or not. -/
theorem lt_round_of_sum (hb : F.Holds b) (hq : F.Holds q) (hpos : 0 ≤ q) (hle : q ≤ b)
    (ht : F.Holds t) (hlt : F.round (b + q) < t) : q < F.round (t - b) := by
  by_cases hsum : F.Holds (b + q)
  · rw [round_of_holds hsum] at hlt
    exact lt_round hsum ht hlt hpos (by linarith) (by linarith)
  · rcases hpos.eq_or_lt with rfl | hpos
    · exact absurd (by rwa [add_zero]) hsum
    · have hunit : 2 * F.unit q ≤ F.unit (b + q) := by
        rw [Format.unit, Format.unit, ← zpow_one_add₀ (by norm_num)]
        refine zpow_le_zpow_right₀ (by norm_num) ?_
        have hexponent := exponent_lt_of_sum hb hq hpos hle hsum
        omega
      have habove := half_unit_le_sub (by linarith) ht hlt
      have hu : 0 < F.unit q := unit_pos
      exact lt_round_of_half_unit hpos.le (le_abs_self q) (by linarith)

end Hologotchi.Library.Rounding
