import Mathlib.Algebra.Order.BigOperators.Group.Finset
import Mathlib.Data.Fintype.BigOperators

/-!
Tables of switches and the log of their use.

A log entry says that a switch was turned on (`true`) or off (`false`). A switch
alternates when each entry changes its position; then the entries of a whole table
tell how many of its switches are on.
-/

namespace Base

/-- The position of a switch after a log, from the position `b`; none if an entry turns
it to where it already is. -/
def switchRun : Bool → List Bool → Option Bool
  | b, [] => some b
  | b, k :: ks => if k = b then none else switchRun k ks

@[simp] theorem switchRun_nil (b : Bool) : switchRun b [] = some b := rfl

theorem switchRun_append (b : Bool) (ks ks' : List Bool) :
    switchRun b (ks ++ ks') = (switchRun b ks).bind fun c => switchRun c ks' := by
  induction ks generalizing b with
  | nil => rfl
  | cons k ks ih =>
      simp only [List.cons_append, switchRun]
      split
      · rfl
      · exact ih k

theorem count_switchRun {b c : Bool} {ks : List Bool} (h : switchRun b ks = some c) :
    ks.count true + b.toNat = ks.count false + c.toNat := by
  induction ks generalizing b with
  | nil =>
      obtain rfl := Option.some.inj h
      rfl
  | cons k ks ih =>
      simp only [switchRun] at h
      split at h
      · simp at h
      · have rest := ih h
        cases b with
        | false | true =>
            cases k <;> simp_all
            all_goals omega

variable {ι : Type*}

/-- The log `ks` of switch `i` leads the table from `b` to `b'`. -/
structure Switched (b b' : ι → Bool) (i : ι) (ks : List Bool) : Prop where
  others : ∀ j, j ≠ i → b' j = b j
  own : switchRun (b i) ks = some (b' i)

def switchesOn [Fintype ι] (b : ι → Bool) : Nat :=
  ∑ i, (b i).toNat

theorem switchesOn_le [Fintype ι] (b : ι → Bool) : switchesOn b ≤ Fintype.card ι := by
  apply (Finset.sum_le_card_nsmul Finset.univ _ 1 fun i _ => Bool.toNat_le (b i)).trans
  simp

theorem Switched.count [Fintype ι] [DecidableEq ι] {b b' : ι → Bool} {i : ι} {ks : List Bool}
    (h : Switched b b' i ks) :
    ks.count true + switchesOn b = ks.count false + switchesOn b' := by
  have own := count_switchRun h.own
  have others : ∑ j ∈ Finset.univ.erase i, (b' j).toNat = ∑ j ∈ Finset.univ.erase i, (b j).toNat :=
    Finset.sum_congr rfl fun j hj => by rw [h.others j (Finset.ne_of_mem_erase hj)]
  have before := Finset.add_sum_erase Finset.univ (fun j => (b j).toNat) (Finset.mem_univ i)
  have after := Finset.add_sum_erase Finset.univ (fun j => (b' j).toNat) (Finset.mem_univ i)
  simp only [switchesOn] at before after ⊢
  omega

/-- The part of a log that is about switch `i`. -/
def switchLog [DecidableEq ι] (i : ι) (log : List (ι × Bool)) : List Bool :=
  (log.filter fun e => e.1 = i).map Prod.snd

theorem switchLog_append [DecidableEq ι] (i : ι) (log log' : List (ι × Bool)) :
    switchLog i (log ++ log') = switchLog i log ++ switchLog i log' := by
  simp [switchLog]

theorem switchLog_self [DecidableEq ι] (i : ι) (ks : List Bool) :
    switchLog i (ks.map fun k => (i, k)) = ks := by
  induction ks with
  | nil => rfl
  | cons k ks ih => simpa [switchLog] using ih

theorem switchLog_ne [DecidableEq ι] {i j : ι} (h : j ≠ i) (ks : List Bool) :
    switchLog j (ks.map fun k => (i, k)) = [] := by
  have none : (ks.map fun k => (i, k)).filter (fun e => e.1 = j) = [] := by
    simp only [List.filter_map, List.map_eq_nil_iff, List.filter_eq_nil_iff]
    intro k _
    simpa using Ne.symm h
  rw [switchLog, none, List.map_nil]

/-- All switches start off, and the table is what the log makes of them. -/
structure LogTells [Fintype ι] [DecidableEq ι] (b : ι → Bool) (log : List (ι × Bool)) : Prop where
  each : ∀ i, switchRun false (switchLog i log) = some (b i)
  count : (log.map Prod.snd).count true = (log.map Prod.snd).count false + switchesOn b

theorem LogTells.start [Fintype ι] [DecidableEq ι] {b : ι → Bool} (off : ∀ i, b i = false) :
    LogTells b [] where
  each i := by rw [off i]; rfl
  count := by simp [switchesOn, off]

theorem LogTells.switched [Fintype ι] [DecidableEq ι] {b b' : ι → Bool}
    {log : List (ι × Bool)} {i : ι} {ks : List Bool} (h : LogTells b log)
    (step : Switched b b' i ks) : LogTells b' (log ++ ks.map fun k => (i, k)) where
  each j := by
    rw [switchLog_append, switchRun_append, h.each j]
    by_cases own : j = i
    · subst own
      rw [switchLog_self]
      exact step.own
    · rw [switchLog_ne own, step.others j own]
      rfl
  count := by
    have before := h.count
    have here := step.count
    simp only [List.map_append, List.count_append, List.map_map] at before ⊢
    have same : (Prod.snd ∘ fun k => (i, k)) = (id : Bool → Bool) := rfl
    rw [same, List.map_id]
    omega

end Base
