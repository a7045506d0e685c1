import Mathlib.Data.List.Nodup
import Mathlib.Logic.Function.Basic
import Zperf.Base.Machine

/-!
Resources leased to the entries of a table.

A log says what each resource was taken for and when it was given back. A table of
leases is in step with its log when every resource out on lease is in one entry and
every other has been given back as often as it was taken.
-/

namespace Base

variable {ρ κ ι : Type*}

inductive LeaseAct (κ : Type*) where
  | take (k : κ)
  | drop
  deriving DecidableEq, Repr

/-- What a resource is out for after its own part of a log; no answer if it was taken
while it was out or given back while it was not. -/
def leaseRun : Option κ → List (LeaseAct κ) → Option (Option κ)
  | held, [] => some held
  | none, .take k :: acts => leaseRun (some k) acts
  | some _, .drop :: acts => leaseRun none acts
  | none, .drop :: _ | some _, .take _ :: _ => none

theorem leaseRun_append (held : Option κ) (acts acts' : List (LeaseAct κ)) :
    leaseRun held (acts ++ acts') = (leaseRun held acts).bind fun h => leaseRun h acts' := by
  induction acts generalizing held with
  | nil => rfl
  | cons act acts ih =>
      cases held with
      | none =>
          cases act with
          | take k => exact ih (some k)
          | drop => rfl
      | some k =>
          cases act with
          | take k' => rfl
          | drop => exact ih none

variable [DecidableEq ρ]

/-- The part of a log that is about resource `r`. -/
def actsOn (r : ρ) (log : List (ρ × LeaseAct κ)) : List (LeaseAct κ) :=
  (log.filter fun e => e.1 = r).map Prod.snd

/-- What resource `r` is out for after a log. -/
def leaseOf (r : ρ) (log : List (ρ × LeaseAct κ)) : Option (Option κ) :=
  leaseRun none (actsOn r log)

@[simp] theorem leaseOf_nil (r : ρ) : leaseOf r ([] : List (ρ × LeaseAct κ)) = some none := rfl

theorem leaseOf_snoc_self (r : ρ) (log : List (ρ × LeaseAct κ)) (act : LeaseAct κ) :
    leaseOf r (log ++ [(r, act)]) = (leaseOf r log).bind fun h => leaseRun h [act] := by
  simp [leaseOf, actsOn, leaseRun_append]

theorem leaseOf_snoc_ne {r r' : ρ} (h : r' ≠ r) (log : List (ρ × LeaseAct κ))
    (act : LeaseAct κ) : leaseOf r (log ++ [(r', act)]) = leaseOf r log := by
  simp [leaseOf, actsOn, h]

/-- Whoever hands out the resources hands out none that is out. -/
def HandedOutFree (log : List (ρ × LeaseAct κ)) : Prop :=
  ∀ pre r k post, log = pre ++ (r, .take k) :: post → (leaseOf r pre).join = none

theorem HandedOutFree.of_append {log log' : List (ρ × LeaseAct κ)}
    (h : HandedOutFree (log ++ log')) : HandedOutFree log := by
  intro pre r k post split
  apply h pre r k (post ++ log')
  rw [split, List.append_assoc, List.cons_append]

theorem handedOutFree_iff (log : List (ρ × LeaseAct κ)) :
    HandedOutFree log ↔
      ∀ i : Fin log.length, log[i].2 ≠ .drop → (leaseOf log[i].1 (log.take i)).join = none := by
  rw [← forall_split_iff (fun pre e => e.2 ≠ .drop → (leaseOf e.1 pre).join = none) log]
  constructor
  · intro h pre e post split taken
    cases act : e.2 with
    | drop => exact absurd act taken
    | take k => exact h pre e.1 k post (act ▸ split)
  · intro h pre r k post split
    exact h pre (r, .take k) post split (by simp)

instance (log : List (ρ × LeaseAct κ)) [DecidableEq κ] : Decidable (HandedOutFree log) :=
  decidable_of_iff _ (handedOutFree_iff log).symm

/-- The table `t` has the resources that are out by the log, those in entry `i` for
`kind i`. -/
structure LeaseTable (kind : ι → κ) (t : ι → Option ρ) (log : List (ρ × LeaseAct κ)) :
    Prop where
  once : ∀ i j r, t i = some r → t j = some r → i = j
  held : ∀ i r, t i = some r → leaseOf r log = some (some (kind i))
  free : ∀ r, (∀ i, t i ≠ some r) → leaseOf r log = some none

namespace LeaseTable

variable {kind : ι → κ} {t : ι → Option ρ} {log : List (ρ × LeaseAct κ)}

theorem start (empty : ∀ i, t i = none) : LeaseTable kind t [] where
  once i j r h _ := by simp [empty] at h
  held i r h := by simp [empty] at h
  free r _ := rfl

/-- An empty table, where all that was taken has been given back. -/
theorem restart (empty : ∀ i, t i = none) (free : ∀ r, leaseOf r log = some none) :
    LeaseTable kind t log where
  once i j r h _ := by simp [empty] at h
  held i r h := by simp [empty] at h
  free r _ := free r

theorem untaken (h : LeaseTable kind t log) {r : ρ} {k : κ}
    (fresh : HandedOutFree (log ++ [(r, .take k)])) (i : ι) : t i ≠ some r := by
  intro hi
  have free := fresh log r k [] rfl
  simp [h.held i r hi] at free

/-- A resource that is given back at once leaves the table as it is. -/
theorem takeDrop (h : LeaseTable kind t log) {r : ρ} {k : κ}
    (fresh : HandedOutFree (log ++ [(r, .take k)])) :
    LeaseTable kind t (log ++ [(r, .take k)] ++ [(r, .drop)]) := by
  have none := h.untaken fresh
  refine ⟨h.once, ?held, ?free⟩
  case held =>
    intro i r' hi
    have ne : r ≠ r' := fun same => none i (same ▸ hi)
    rw [leaseOf_snoc_ne ne, leaseOf_snoc_ne ne, h.held i r' hi]
  case free =>
    intro r' absent
    by_cases same : r = r'
    · subst same
      rw [leaseOf_snoc_self, leaseOf_snoc_self, h.free r none]
      rfl
    · rw [leaseOf_snoc_ne same, leaseOf_snoc_ne same, h.free r' absent]

variable [DecidableEq ι]

theorem take (h : LeaseTable kind t log) {i : ι} (empty : t i = none) {r : ρ}
    (fresh : HandedOutFree (log ++ [(r, .take (kind i))])) :
    LeaseTable kind (Function.update t i (some r)) (log ++ [(r, .take (kind i))]) := by
  have none := h.untaken fresh
  refine ⟨?once, ?held, ?free⟩
  case once =>
    intro j j' r' hj hj'
    rw [Function.update_apply] at hj hj'
    split at hj <;> split at hj'
    · simp_all
    · obtain rfl := Option.some.inj hj
      exact absurd hj' (none j')
    · obtain rfl := Option.some.inj hj'
      exact absurd hj (none j)
    · exact h.once j j' r' hj hj'
  case held =>
    intro j r' hj
    rw [Function.update_apply] at hj
    split at hj
    · rename_i own
      obtain rfl := Option.some.inj hj
      rw [leaseOf_snoc_self, h.free r none, own]
      rfl
    · have ne : r ≠ r' := fun same => none j (same ▸ hj)
      rw [leaseOf_snoc_ne ne, h.held j r' hj]
  case free =>
    intro r' absent
    have ne : r ≠ r' := by
      intro same
      exact absent i (by rw [Function.update_self, same])
    rw [leaseOf_snoc_ne ne]
    apply h.free
    intro j hj
    by_cases own : j = i
    · rw [own, empty] at hj
      simp at hj
    · exact absent j (by rw [Function.update_of_ne own, hj])

theorem drop (h : LeaseTable kind t log) {i : ι} {r : ρ} (here : t i = some r) :
    LeaseTable kind (Function.update t i none) (log ++ [(r, .drop)]) := by
  have elsewhere {j : ι} {r' : ρ} (hj : Function.update t i none j = some r') :
      t j = some r' ∧ r ≠ r' := by
    rw [Function.update_apply] at hj
    split at hj
    · simp at hj
    · rename_i own
      refine ⟨hj, ?_⟩
      rintro rfl
      exact own (h.once j i r hj here)
  refine ⟨?once, ?held, ?free⟩
  case once =>
    intro j j' r' hj hj'
    exact h.once j j' r' (elsewhere hj).1 (elsewhere hj').1
  case held =>
    intro j r' hj
    rw [leaseOf_snoc_ne (elsewhere hj).2, h.held j r' (elsewhere hj).1]
  case free =>
    intro r' absent
    by_cases same : r = r'
    · subst same
      rw [leaseOf_snoc_self, h.held i r here]
      rfl
    · rw [leaseOf_snoc_ne same]
      apply h.free
      intro j hj
      have ne : j ≠ i := by
        rintro rfl
        exact same (Option.some.inj (here.symm.trans hj))
      exact absent j (by rw [Function.update_of_ne ne, hj])

/-- Giving back what is in the entries `is`, one after the other. -/
theorem dropAll (h : LeaseTable kind t log) (is : List ι) (nodup : is.Nodup) :
    LeaseTable kind (fun i => if i ∈ is then none else t i)
      (log ++ is.filterMap fun i => (t i).map fun r => (r, .drop)) := by
  induction is generalizing t log with
  | nil => simpa using h
  | cons i is ih =>
      rw [List.nodup_cons] at nodup
      have rest : (is.filterMap fun j => (Function.update t i none j).map fun r =>
          (r, (.drop : LeaseAct κ))) = is.filterMap fun j => (t j).map fun r => (r, .drop) := by
        apply List.filterMap_congr
        intro j hj
        have ne : j ≠ i := fun same => nodup.1 (same ▸ hj)
        rw [Function.update_of_ne ne]
      have table : (fun j => if j ∈ is then none else Function.update t i none j) =
          fun j => if j ∈ i :: is then none else t j := by
        funext j
        by_cases own : j = i
        · simp [own]
        · simp [own]
      rw [← table, List.filterMap_cons]
      cases here : t i with
      | none =>
          have same : Function.update t i none = t := by
            rw [← here, Function.update_eq_self]
          rw [same]
          exact ih h nodup.2
      | some r =>
          have next := ih (h.drop here) nodup.2
          rw [rest, List.append_assoc] at next
          exact next

end LeaseTable

end Base
