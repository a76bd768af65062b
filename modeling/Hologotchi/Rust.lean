import Mathlib.Algebra.Group.Int.Defs
import Mathlib.Algebra.Group.Nat.Defs

/-! The machine integers of the firmware. A sum that does not fit panics where the build has
overflow checks, and wraps elsewhere. -/
namespace Hologotchi.Rust

inductive Panic
  | overflow
  | divisionByZero
  | indexOutOfBounds
  deriving DecidableEq, Repr

/-- `+` on `u32`. -/
def addU32 (checks : Bool) (a b : UInt32) : Except Panic UInt32 :=
  if checks ∧ 2 ^ 32 ≤ a.toNat + b.toNat then .error .overflow else .ok (a + b)

/-- `-` on `u32`. -/
def subU32 (checks : Bool) (a b : UInt32) : Except Panic UInt32 :=
  if checks ∧ a < b then .error .overflow else .ok (a - b)

/-- A value that an `i32` has. -/
def FitsI32 (n : ℤ) : Prop := -2 ^ 31 ≤ n ∧ n < 2 ^ 31

instance : DecidablePred FitsI32 := fun _ => instDecidableAnd

/-- `+` on `i32`. -/
def addI32 (checks : Bool) (a b : ℤ) : Except Panic ℤ :=
  if FitsI32 (a + b) then .ok (a + b)
  else if checks then .error .overflow else .ok ((a + b).bmod (2 ^ 32))

variable {checks : Bool} {a b : UInt32}

theorem addU32_ok (h : a.toNat + b.toNat < 2 ^ 32) : addU32 checks a b = .ok (a + b) := by
  rw [addU32, if_neg]
  rintro ⟨_, hover⟩
  omega

theorem addU32_wraps (a b : UInt32) : addU32 false a b = .ok (a + b) := by simp [addU32]

theorem addU32_overflows (h : 2 ^ 32 ≤ a.toNat + b.toNat) :
    addU32 true a b = .error .overflow := by
  rw [addU32, if_pos ⟨rfl, h⟩]

theorem subU32_ok (h : b ≤ a) : subU32 checks a b = .ok (a - b) := by
  simp [subU32, UInt32.not_lt.mpr h]

theorem addI32_ok {m n : ℤ} (h : FitsI32 (m + n)) : addI32 checks m n = .ok (m + n) := if_pos h

end Hologotchi.Rust
