import Mathlib.Order.Bounds.Basic

/-!
The integer next to a quotient of naturals, above or below it. Truncating division gives the
one below; it gives the one above only where nothing is cut off.
-/

namespace Base

inductive Rounding where
  | up
  | down
  deriving DecidableEq, Repr

/-- `r` is the least integer not below `n / d`, or the greatest not above it. -/
def Rounding.Rounds (direction : Rounding) (n d r : Nat) : Prop :=
  match direction with
  | .up => IsLeast {q | n ≤ q * d} r
  | .down => IsGreatest {q | q * d ≤ n} r

namespace Rounding

theorem div_rounds_down (n : Nat) {d : Nat} (pos : 0 < d) : down.Rounds n d (n / d) := by
  refine ⟨Nat.div_mul_le_self n d, ?_⟩
  intro q below
  exact (Nat.le_div_iff_mul_le pos).mpr below

/-- Truncating division is not below the quotient only where it is exact. -/
theorem le_div_mul_iff (n d : Nat) : n ≤ n / d * d ↔ d ∣ n := by
  have split := Nat.div_add_mod' n d
  rw [Nat.dvd_iff_mod_eq_zero]
  omega

theorem div_rounds_up_iff (n : Nat) {d : Nat} (pos : 0 < d) :
    up.Rounds n d (n / d) ↔ d ∣ n := by
  rw [← le_div_mul_iff n d]
  refine ⟨fun least => least.1, fun above => ⟨above, ?_⟩⟩
  intro q notBelow
  have exact : n / d * d ≤ q * d := Nat.le_trans (Nat.div_mul_le_self n d) notBelow
  exact Nat.le_of_mul_le_mul_right exact pos

/-- A quotient that fits a word has its truncation in the word too. -/
theorem div_lt_of_fits {n d bound : Nat} (fits : n ≤ (bound - 1) * d) (pos : 0 < bound) :
    n / d < bound := by
  have small := Nat.div_le_of_le_mul (Nat.mul_comm _ d ▸ fits)
  omega

/-- The quotient measured for `n` pieces of work `b` in a time between `n` and `m` units
`u`, against the quotient of `b` by `u`. -/
theorem measured_between {n m b t u : Nat} (pos : 0 < n) (after : n * u ≤ t) (before : t ≤ m * u)
    (passed : 0 < t) : n * b / t * u ≤ b ∧ n * b < (n * b / t + 1) * (m * u) := by
  constructor
  · have below : n * (n * b / t * u) ≤ n * b := calc
      n * (n * b / t * u) = n * b / t * (n * u) := Nat.mul_left_comm _ _ _
      _ ≤ n * b / t * t := Nat.mul_le_mul_left _ after
      _ ≤ n * b := Nat.div_mul_le_self _ _
    exact Nat.le_of_mul_le_mul_left below pos
  · calc
      n * b < (n * b / t + 1) * t := (Nat.div_lt_iff_lt_mul passed).mp (Nat.lt_succ_self _)
      _ ≤ (n * b / t + 1) * (m * u) := Nat.mul_le_mul_left _ before

end Rounding
end Base
