import Mathlib.Algebra.Group.Int.Defs
import Mathlib.Algebra.Group.Nat.Defs

/-!
Words of 32 bits read as signed numbers, and signed arithmetic that wraps around.

An operation whose exact result is in range is exact.
-/

namespace Base

theorem toInt_toInt32 (x : UInt32) :
    x.toInt32.toInt = if x.toNat < 2 ^ 31 then (x.toNat : Int) else (x.toNat : Int) - 2 ^ 32 := by
  have same : x.toInt32.toInt = x.toBitVec.toInt := rfl
  rw [same, BitVec.toInt_eq_toNat_cond, UInt32.toNat_toBitVec]
  split <;> split <;> omega

theorem toInt32_nonneg_iff (x : UInt32) : 0 ≤ x.toInt32 ↔ x.toNat < 2 ^ 31 := by
  have bound := x.toNat_lt
  rw [Int32.le_iff_toInt_le, Int32.toInt_zero, toInt_toInt32]
  split <;> omega

theorem toInt_widened (x : UInt32) : x.toUInt64.toInt64.toInt = x.toNat := by
  have same : x.toUInt64.toInt64.toInt = x.toUInt64.toBitVec.toInt := rfl
  have bound := x.toNat_lt
  rw [same, BitVec.toInt_eq_toNat_cond, UInt64.toNat_toBitVec, UInt32.toNat_toUInt64,
    if_pos (by omega)]

/-- The values of `int32_t`. -/
def InInt32 (x : Int) : Prop := -2 ^ 31 ≤ x ∧ x < 2 ^ 31

instance (x : Int) : Decidable (InInt32 x) := inferInstanceAs (Decidable (_ ∧ _))

theorem inInt32_toInt (x : Int32) : InInt32 x.toInt := ⟨x.le_toInt, x.toInt_lt⟩

theorem bmod_of_inInt32 {x : Int} (h : InInt32 x) : x.bmod (2 ^ 32) = x :=
  Int.bmod_eq_of_le h.1 h.2

theorem toInt_add_of_inInt32 {x y : Int32} (h : InInt32 (x.toInt + y.toInt)) :
    (x + y).toInt = x.toInt + y.toInt :=
  (Int32.toInt_add x y).trans (bmod_of_inInt32 h)

theorem toInt_sub_of_inInt32 {x y : Int32} (h : InInt32 (x.toInt - y.toInt)) :
    (x - y).toInt = x.toInt - y.toInt :=
  (Int32.toInt_sub x y).trans (bmod_of_inInt32 h)

theorem toInt_neg_of_inInt32 {x : Int32} (h : InInt32 (-x.toInt)) : (-x).toInt = -x.toInt :=
  (Int32.toInt_neg x).trans (bmod_of_inInt32 h)

theorem toInt_div_of_inInt32 {x y : Int32} (h : InInt32 (x.toInt.tdiv y.toInt)) :
    (x / y).toInt = x.toInt.tdiv y.toInt :=
  (Int32.toInt_div x y).trans (bmod_of_inInt32 h)

end Base
