import Mathlib.Data.Finset.Card
import Mathlib.Data.Finset.Range

/-!
Loss accounting by a receiver that remembers one sequence number.

The next number expected is all it keeps of the past: a number ahead of it is
charged with the gap it leaves, a number behind it is late, be it reordered or
a duplicate. What the charges say about the numbers really missing follows from
one balance equation and one inequality.
-/

namespace Base

structure Tally where
  next : Nat
  late : Nat
  gaps : Nat

/-- The numbers below `n` that are not in `S`. -/
def missing (n : Nat) (S : Finset Nat) : Nat := (Finset.range n \ S).card

theorem missing_add_card {n : Nat} {S : Finset Nat} (h : S ⊆ Finset.range n) :
    missing n S + S.card = n := by
  rw [missing, Finset.card_sdiff_add_card_eq_card h, Finset.card_range]

namespace Tally

def receive (t : Tally) (id : Nat) : Tally :=
  if id < t.next then { t with late := t.late + 1 }
  else { t with gaps := t.gaps + (id - t.next), next := id + 1 }

def receiveAll (t : Tally) (ids : List Nat) : Tally := ids.foldl receive t

@[simp] theorem receiveAll_nil (t : Tally) : t.receiveAll [] = t := rfl

@[simp] theorem receiveAll_cons (t : Tally) (id : Nat) (ids : List Nat) :
    t.receiveAll (id :: ids) = (t.receive id).receiveAll ids := rfl

theorem receiveAll_append (t : Tally) (ids ids' : List Nat) :
    t.receiveAll (ids ++ ids') = (t.receiveAll ids).receiveAll ids' :=
  List.foldl_append

theorem receive_late {t : Tally} {id : Nat} (h : id < t.next) :
    t.receive id = { t with late := t.late + 1 } := by
  simp [receive, h]

theorem receive_ahead {t : Tally} {id : Nat} (h : t.next ≤ id) :
    t.receive id = { t with gaps := t.gaps + (id - t.next), next := id + 1 } := by
  simp [receive, Nat.not_lt.mpr h]

theorem next_receive (t : Tally) (id : Nat) : (t.receive id).next = max t.next (id + 1) := by
  cases Nat.lt_or_ge id t.next with
  | inl h =>
      rw [receive_late h]
      exact (Nat.max_eq_left h).symm
  | inr h =>
      rw [receive_ahead h]
      exact (Nat.max_eq_right (Nat.le_succ_of_le h)).symm

/-- The next number expected is one past the largest received. -/
theorem next_receiveAll (t : Tally) (ids : List Nat) {m : Nat} (h : t.next = m + 1) :
    (t.receiveAll ids).next = ids.foldl max m + 1 := by
  induction ids generalizing t m with
  | nil => exact h
  | cons id ids ih =>
      refine ih (t.receive id) (m := max m id) ?_
      rw [next_receive, h, Nat.succ_max_succ]

theorem next_le_receiveAll (t : Tally) (ids : List Nat) : t.next ≤ (t.receiveAll ids).next := by
  induction ids generalizing t with
  | nil => exact Nat.le_refl _
  | cons id ids ih =>
      refine Nat.le_trans ?_ (ih (t.receive id))
      rw [next_receive]
      exact Nat.le_max_left _ _

theorem next_receiveAll_le (t : Tally) {ids : List Nat} {n : Nat} (h : t.next ≤ n)
    (below : ∀ id ∈ ids, id < n) : (t.receiveAll ids).next ≤ n := by
  induction ids generalizing t with
  | nil => exact h
  | cons id ids ih =>
      refine ih (t.receive id) ?_ fun k hk => below k (List.mem_cons_of_mem id hk)
      rw [next_receive]
      exact Nat.max_le.mpr ⟨h, below id List.mem_cons_self⟩

theorem lt_next_receiveAll (t : Tally) {ids : List Nat} {id : Nat} (h : id ∈ ids) :
    id < (t.receiveAll ids).next := by
  induction ids generalizing t with
  | nil => simp at h
  | cons first ids ih =>
      rcases List.mem_cons.mp h with rfl | h
      · refine Nat.lt_of_lt_of_le ?_ (next_le_receiveAll (t.receive id) ids)
        rw [next_receive]
        omega
      · exact ih (t.receive first) h

/-- Every number received is paid for once: by a step of the number expected, net
of the gap charged, or as late. -/
theorem balance_receive (t : Tally) (id : Nat) :
    (t.receive id).gaps + t.late + t.next + 1 =
      t.gaps + (t.receive id).late + (t.receive id).next := by
  cases Nat.lt_or_ge id t.next with
  | inl h =>
      simp only [receive_late h]
      omega
  | inr h =>
      simp only [receive_ahead h]
      omega

theorem balance_receiveAll (t : Tally) (ids : List Nat) :
    (t.receiveAll ids).gaps + t.late + t.next + ids.length =
      t.gaps + (t.receiveAll ids).late + (t.receiveAll ids).next := by
  induction ids generalizing t with
  | nil => simp [Nat.add_right_comm]
  | cons id ids ih =>
      have here := balance_receive t id
      have rest := ih (t.receive id)
      simp only [receiveAll_cons, List.length_cons]
      omega

theorem late_receiveAll_le (t : Tally) (ids : List Nat) :
    (t.receiveAll ids).late ≤ t.late + ids.length := by
  induction ids generalizing t with
  | nil => simp
  | cons id ids ih =>
      have here : (t.receive id).late ≤ t.late + 1 := by
        unfold receive
        split <;> simp
      have rest := ih (t.receive id)
      simp only [receiveAll_cons, List.length_cons]
      omega

/-- A number that comes in leaves no more missing than the gap it is charged with. -/
theorem missing_receive (t : Tally) (id : Nat) (S : Finset Nat) :
    missing (t.receive id).next (insert id S) + t.gaps ≤
      missing t.next S + (t.receive id).gaps := by
  cases Nat.lt_or_ge id t.next with
  | inl h =>
      rw [receive_late h]
      have fewer : missing t.next (insert id S) ≤ missing t.next S :=
        Finset.card_le_card (Finset.sdiff_subset_sdiff (Finset.Subset.refl _)
          (Finset.subset_insert id S))
      simpa using fewer
  | inr h =>
      rw [receive_ahead h]
      have cover : Finset.range (id + 1) \ insert id S ⊆
          (Finset.range t.next \ S) ∪ (Finset.range id \ Finset.range t.next) := by
        intro k hk
        simp only [Finset.mem_sdiff, Finset.mem_range, Finset.mem_insert, Finset.mem_union,
          not_or] at hk ⊢
        by_cases below : k < t.next
        · exact .inl ⟨below, hk.2.2⟩
        · exact .inr ⟨by omega, below⟩
      have gap : (Finset.range id \ Finset.range t.next).card = id - t.next := by
        have sub : Finset.range t.next ⊆ Finset.range id := by simpa using h
        rw [Finset.card_sdiff_of_subset sub, Finset.card_range, Finset.card_range]
      have bound := (Finset.card_le_card cover).trans (Finset.card_union_le _ _)
      rw [gap] at bound
      simp only [missing]
      omega

theorem missing_receiveAll (t : Tally) (ids : List Nat) (S : Finset Nat) :
    missing (t.receiveAll ids).next (S ∪ ids.toFinset) + t.gaps ≤
      missing t.next S + (t.receiveAll ids).gaps := by
  induction ids generalizing t S with
  | nil => simp
  | cons id ids ih =>
      have here := missing_receive t id S
      have rest := ih (t.receive id) (insert id S)
      have same : insert id S ∪ ids.toFinset = S ∪ (id :: ids).toFinset := by
        simp [Finset.insert_union, Finset.union_insert]
      rw [same] at rest
      simp only [receiveAll_cons]
      omega

end Tally
end Base
