import Mathlib.Algebra.Order.Monoid.Defs
import Mathlib.Algebra.Order.Monoid.Unbundled.MinMax

/-!
Periodic work that does not run ahead of its schedule.

It is due one period after it was due before, and at once when it started later than
that. A late start moves the schedule for good; how far is told by the starts alone.
-/

namespace Base

variable {α : Type*} [AddCommMonoid α] [LinearOrder α]

/-- When work of period `p` is due after the starts `ts`, if it was first due at `d`. -/
def dueAfter (p : α) : α → List α → α
  | d, [] => d
  | d, t :: ts => dueAfter p (max (d + p) t) ts

@[simp] theorem dueAfter_nil (p d : α) : dueAfter p d [] = d := rfl

@[simp] theorem dueAfter_cons (p d t : α) (ts : List α) :
    dueAfter p d (t :: ts) = dueAfter p (max (d + p) t) ts := rfl

theorem dueAfter_append_singleton (p d t : α) (ts : List α) :
    dueAfter p d (ts ++ [t]) = max (dueAfter p d ts + p) t := by
  induction ts generalizing d with
  | nil => rfl
  | cons u ts ih => exact ih _

variable [IsOrderedCancelAddMonoid α]

/-- What is due is the greatest of the unmoved schedule and of the schedules that the
starts begin anew. -/
theorem dueAfter_le_iff (p d x : α) (ts : List α) :
    dueAfter p d ts ≤ x ↔ d + ts.length • p ≤ x ∧
      ∀ pre t post, ts = pre ++ t :: post → t + post.length • p ≤ x := by
  induction ts generalizing d with
  | nil => simp
  | cons u ts ih =>
      have moved : max (d + p) u + ts.length • p ≤ x ↔
          d + (u :: ts).length • p ≤ x ∧ u + ts.length • p ≤ x := by
        rw [← max_add_add_right, max_le_iff, List.length_cons, succ_nsmul', add_assoc]
      rw [dueAfter_cons, ih, moved, and_assoc]
      refine and_congr_right fun _ => ⟨?split, ?joined⟩
      case split =>
        rintro ⟨here, later⟩ pre t post split
        cases pre with
        | nil =>
            obtain ⟨rfl, rfl⟩ := List.cons_eq_cons.mp split
            exact here
        | cons _ pre => exact later pre t post (List.cons_eq_cons.mp split).2
      case joined =>
        intro all
        exact ⟨all [] u ts rfl, fun pre t post split => all (u :: pre) t post (split ▸ rfl)⟩

/-- The schedule has not moved exactly if no start came more than a period after it was
due on it. -/
theorem dueAfter_eq_iff (p d : α) (ts : List α) :
    dueAfter p d ts = d + ts.length • p ↔
      ∀ pre t post, ts = pre ++ t :: post → t ≤ d + (pre.length + 1) • p := by
  have unmoved : d + ts.length • p ≤ dueAfter p d ts := ((dueAfter_le_iff p d _ ts).mp le_rfl).1
  have slack {pre post : List α} {t : α} (split : ts = pre ++ t :: post) :
      t + post.length • p ≤ d + ts.length • p ↔ t ≤ d + (pre.length + 1) • p := by
    have length : ts.length = (pre.length + 1) + post.length := by
      rw [split, List.length_append, List.length_cons]
      omega
    rw [length, add_nsmul, ← add_assoc, add_le_add_iff_right]
  constructor
  · intro same pre t post split
    exact (slack split).mp (((dueAfter_le_iff p d _ ts).mp same.le).2 pre t post split)
  · intro onTime
    refine le_antisymm ((dueAfter_le_iff p d _ ts).mpr ⟨le_rfl, ?_⟩) unmoved
    intro pre t post split
    exact (slack split).mpr (onTime pre t post split)

end Base
