import Mathlib.Algebra.Group.Int.Defs
import Mathlib.Algebra.Group.Nat.Defs
import Mathlib.Tactic.Linarith

/-!
A running average that moves by a fraction of the distance to each new value.

The fraction is taken with the division of C, which truncates towards zero; the
average stays between the bounds of the values all the same.
-/

namespace Base

/-- The average `j` after the value `x`. -/
def smooth (k j x : Int) : Int := j + (x - j).tdiv k

theorem tdiv_between {a k : Int} (ha : 0 ≤ a) (hk : 0 < k) : 0 ≤ a.tdiv k ∧ a.tdiv k ≤ a :=
  ⟨Int.tdiv_nonneg ha hk.le, Int.tdiv_le_self k ha⟩

theorem smooth_between {k j x : Int} (hk : 0 < k) :
    min j x ≤ smooth k j x ∧ smooth k j x ≤ max j x := by
  unfold smooth
  cases Int.le_total j x with
  | inl h =>
      have step := tdiv_between (Int.sub_nonneg_of_le h) hk
      omega
  | inr h =>
      have step := tdiv_between (Int.sub_nonneg_of_le h) hk
      rw [← Int.neg_sub, Int.neg_tdiv]
      omega

theorem smooth_nonneg {k j x : Int} (hk : 0 < k) (hj : 0 ≤ j) (hx : 0 ≤ x) :
    0 ≤ smooth k j x :=
  (le_min hj hx).trans (smooth_between hk).1

theorem smooth_le {k j x m : Int} (hk : 0 < k) (hj : j ≤ m) (hx : x ≤ m) : smooth k j x ≤ m :=
  (smooth_between hk).2.trans (max_le hj hx)

/-- The largest step between neighbours. -/
def largestStep : List Int → Nat
  | x :: y :: xs => max (y - x).natAbs (largestStep (y :: xs))
  | _ => 0

theorem largestStep_append_singleton (xs : List Int) (x y : Int) :
    largestStep (xs ++ [x, y]) = max (largestStep (xs ++ [x])) (y - x).natAbs := by
  induction xs with
  | nil => simp [largestStep]
  | cons z xs ih =>
      cases xs with
      | nil => simp [largestStep]
      | cons w xs =>
          simp only [List.cons_append, largestStep] at ih ⊢
          rw [ih, max_assoc]

end Base
