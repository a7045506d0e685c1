import Mathlib.Logic.Function.Basic

/-!
A fixed table of slots that keeps keyed sessions.

A slot keeps its key after its session has ended and may be given to another
key then. What a slot means is read off by a `SlotReading`, so the results hold
of any slot type: keys stay apart, and a slot that is given away never holds
another key's open session.
-/

namespace Base

/-- What a slot says: the key written in it, and its session while one is open. -/
structure SlotReading (κ σ α : Type*) where
  key : α → Option κ
  session : α → Option σ

namespace SlotReading

variable {ι κ σ α : Type*} (K : SlotReading κ σ α)

/-- No key is written in two slots, and an open session has a key. -/
structure WellKeyed (t : ι → α) : Prop where
  unique : ∀ i j p, K.key (t i) = some p → K.key (t j) = some p → i = j
  keyed : ∀ i s, K.session (t i) = some s → ∃ p, K.key (t i) = some p

/-- Slot `i` may be given to `p`: it has the key already, or no slot has it and
`i` has no open session. -/
def Grants (t : ι → α) (p : κ) (i : ι) : Prop :=
  K.key (t i) = some p ∨ (∀ j, K.key (t j) ≠ some p) ∧ K.session (t i) = none

/-- There is no slot for `p`: none has the key and every one has an open session. -/
def Refuses (t : ι → α) (p : κ) : Prop :=
  (∀ j, K.key (t j) ≠ some p) ∧ ∀ j, (K.session (t j)).isSome

def Holds (t : ι → α) (p : κ) (s : σ) : Prop :=
  ∃ i, K.key (t i) = some p ∧ K.session (t i) = some s

theorem Refuses.not_grants {t : ι → α} {p : κ} (h : K.Refuses t p) (i : ι) :
    ¬ K.Grants t p i := by
  rintro (hk | ⟨_, hs⟩)
  · exact h.1 i hk
  · simpa [hs] using h.2 i

variable {K}

theorem Grants.holds_iff {t : ι → α} (wk : K.WellKeyed t) {p : κ} {i : ι}
    (grant : K.Grants t p i) (s : σ) : K.Holds t p s ↔ K.session (t i) = some s := by
  constructor
  · rintro ⟨j, hk, hs⟩
    rcases grant with hi | ⟨none, _⟩
    · rwa [wk.unique i j p hi hk]
    · exact absurd hk (none j)
  · intro hs
    rcases grant with hi | ⟨_, closed⟩
    · exact ⟨i, hi, hs⟩
    · simp [closed] at hs

variable [DecidableEq ι]

theorem unique_update {t : ι → α}
    (unique : ∀ i j p, K.key (t i) = some p → K.key (t j) = some p → i = j) {i : ι} {a : α}
    (only : ∀ j p, j ≠ i → K.key a = some p → K.key (t j) ≠ some p) :
    ∀ j k q, K.key (Function.update t i a j) = some q → K.key (Function.update t i a k) = some q →
      j = k := by
  intro j k q hj hk
  rw [Function.update_apply] at hj hk
  split at hj <;> split at hk
  · simp_all
  · rename_i other
    exact absurd hk (only k q other hj)
  · rename_i other _
    exact absurd hj (only j q other hk)
  · exact unique j k q hj hk

omit [DecidableEq ι] in
theorem Grants.only {t : ι → α}
    (unique : ∀ i j p, K.key (t i) = some p → K.key (t j) = some p → i = j) {p : κ} {i : ι}
    (grant : K.Grants t p i) (j : ι) (hj : j ≠ i) : K.key (t j) ≠ some p := by
  cases grant with
  | inl here => exact fun there => hj (unique j i p there here)
  | inr nowhere => exact nowhere.1 j

theorem WellKeyed.update {t : ι → α} (wk : K.WellKeyed t) {p : κ} {i : ι}
    (grant : K.Grants t p i) {a : α} (hkey : K.key a = some p) :
    K.WellKeyed (Function.update t i a) where
  unique := by
    apply unique_update wk.unique
    intro j q hj hq
    rw [hkey] at hq
    obtain rfl := Option.some.inj hq
    exact grant.only wk.unique j hj
  keyed := by
    intro j s hs
    by_cases hj : j = i
    · exact ⟨p, by rw [hj, Function.update_self, hkey]⟩
    · rw [Function.update_of_ne hj] at hs ⊢
      exact wk.keyed j s hs

theorem Grants.holds_update_self {t : ι → α} (wk : K.WellKeyed t) {p : κ} {i : ι}
    (grant : K.Grants t p i) {a : α} (hkey : K.key a = some p) (s : σ) :
    K.Holds (Function.update t i a) p s ↔ K.session a = some s := by
  have here : K.Grants (Function.update t i a) p i := .inl (by rw [Function.update_self, hkey])
  rw [here.holds_iff (wk.update grant hkey), Function.update_self]

/-- The frame rule: a slot given to `p` is not one where another key's session
is open, so that session is held afterwards as it was before. -/
theorem Grants.holds_update_ne {t : ι → α} {p q : κ} {i : ι}
    (grant : K.Grants t p i) {a : α} (hkey : K.key a = some p) (hne : q ≠ p) (s : σ) :
    K.Holds (Function.update t i a) q s ↔ K.Holds t q s := by
  have notHere (h : K.key (t i) = some q) (hs : K.session (t i) = some s) : False := by
    rcases grant with hi | ⟨_, closed⟩
    · exact hne (Option.some.inj (h.symm.trans hi))
    · simp [closed] at hs
  constructor
  · rintro ⟨j, hk, hs⟩
    by_cases hj : j = i
    · subst hj
      rw [Function.update_self, hkey] at hk
      exact absurd (Option.some.inj hk).symm hne
    · rw [Function.update_of_ne hj] at hk hs
      exact ⟨j, hk, hs⟩
  · rintro ⟨j, hk, hs⟩
    have hj : j ≠ i := by
      rintro rfl
      exact notHere hk hs
    exact ⟨j, by rwa [Function.update_of_ne hj], by rwa [Function.update_of_ne hj]⟩

end SlotReading

end Base
