import Zperf.Base.Machine

/-!
Loops that test a clock reading after each iteration.

The loop is left when the reading has come to a limit. Whether that is the right
moment depends on what the readings tell of the time that has really passed; a reading
of a counter that starts again from zero tells less.
-/

namespace Base

namespace Machine

variable {σ α ω : Type*}

/-- A machine that goes on while `again` holds, and sets it by a test of the reading
that comes with the input. -/
structure TestsClock (m : Machine σ α ω) (again : σ → Bool) (reading : α → Nat)
    (limit : Nat) : Prop where
  enters : ∀ s a, again s = true → (m.step s a).2.isSome
  leaves : ∀ s a, again s = false → (m.step s a).2 = none
  tests : ∀ s a out t, m.step s a = (out, some t) → (again t = false ↔ limit ≤ reading a)

/-- In every iteration of the inputs `as` that is entered, the loop is left exactly if
`d` has passed. -/
def LeavesOnTime (m : Machine σ α ω) (again : σ → Bool) (s : σ) (elapsed : α → Nat)
    (d : Nat) (as : List α) : Prop :=
  ∀ pre a post out t, as = pre ++ a :: post → m.Reaches s (pre ++ [a]) out t →
    (again t = false ↔ d ≤ elapsed a)

/-- The first reading that is due is seen to be due. -/
def FirstDueShows (reading elapsed : α → Nat) (limit d : Nat) (as : List α) : Prop :=
  ∀ pre a post, as = pre ++ a :: post → (∀ b ∈ pre, elapsed b < d) → d ≤ elapsed a →
    limit ≤ reading a

variable {m : Machine σ α ω} {again : σ → Bool} {reading elapsed : α → Nat} {limit d : Nat}

theorem TestsClock.goes_on (clock : m.TestsClock again reading limit) {s : σ} {as : List α}
    (start : again s = true) (early : ∀ a ∈ as, reading a < limit) :
    ∃ out t, m.Reaches s as out t ∧ again t = true := by
  induction as generalizing s with
  | nil => exact ⟨[], s, by simp, start⟩
  | cons a as ih =>
      obtain ⟨mid, step⟩ := Option.isSome_iff_exists.mp (clock.enters s a start)
      have step' : m.step s a = ((m.step s a).1, some mid) := Prod.ext rfl step
      have here : again mid = true := by
        cases hmid : again mid with
        | true => rfl
        | false =>
            have late := (clock.tests s a _ mid step').mp hmid
            exact absurd late (Nat.not_le.mpr (early a List.mem_cons_self))
      obtain ⟨out, t, run, final⟩ := ih here fun b hb => early b (List.mem_cons_of_mem a hb)
      exact ⟨_, t, (Reaches.single step').append run, final⟩

/-- A run goes on after an input only if the limit did not show in it. -/
theorem TestsClock.early (clock : m.TestsClock again reading limit) {s t : σ}
    {as : List α} {a : α} {out : List ω} (run : m.Reaches s (as ++ [a]) out t) :
    ∀ b ∈ as, reading b < limit := by
  induction as generalizing s out with
  | nil => simp
  | cons b as ih =>
      obtain ⟨first, mid, rest, step, run', -⟩ := (reaches_cons m s b _ out t).mp run
      refine List.forall_mem_cons.mpr ⟨Nat.not_le.mp fun late => ?_, ih run'⟩
      have left := (clock.tests s b first mid step).mpr late
      cases as with
      | nil =>
          obtain ⟨_, _, _, step', -, -⟩ := (reaches_cons m mid a [] rest t).mp run'
          have stuck := clock.leaves mid a left
          simp [step'] at stuck
      | cons c as =>
          obtain ⟨_, _, _, step', -, -⟩ := (reaches_cons m mid c _ rest t).mp run'
          have stuck := clock.leaves mid c left
          simp [step'] at stuck

/-- A loop whose readings never show the limit too early leaves on time exactly if they
show it in the first iteration that is due. -/
theorem TestsClock.leavesOnTime_iff (clock : m.TestsClock again reading limit) {s : σ}
    {as : List α} (start : again s = true)
    (notEarly : ∀ a ∈ as, limit ≤ reading a → d ≤ elapsed a) :
    m.LeavesOnTime again s elapsed d as ↔ FirstDueShows reading elapsed limit d as := by
  constructor
  · intro onTime pre a post split notDue due
    have early : ∀ b ∈ pre, reading b < limit := fun b hb => Nat.not_le.mp fun late =>
      absurd (notEarly b (by simp [split, hb]) late) (Nat.not_le.mpr (notDue b hb))
    obtain ⟨out, mid, run, going⟩ := clock.goes_on start early
    obtain ⟨t, step⟩ := Option.isSome_iff_exists.mp (clock.enters mid a going)
    have step' : m.step mid a = ((m.step mid a).1, some t) := Prod.ext rfl step
    have left := (onTime pre a post _ t split (run.append (Reaches.single step'))).mpr due
    exact (clock.tests mid a _ t step').mp left
  · intro shows pre a post out t split run
    obtain ⟨first, mid, rest, -, last, -⟩ := (reaches_append m s pre [a] out t).mp run
    have tests := clock.tests mid a rest t ((reaches_single m mid t a rest).mp last)
    rw [tests]
    refine ⟨notEarly a (by simp [split]), fun due => ?_⟩
    have early := clock.early run
    cases found : pre.find? fun b => d ≤ elapsed b with
    | none =>
        have notDue : ∀ b ∈ pre, elapsed b < d := by simpa using found
        exact shows pre a post split notDue due
    | some b =>
        -- `b` would have been the first input to show the limit, and the loop went on
        obtain ⟨dueB, pre₁, pre₂, rfl, notDue⟩ := List.find?_eq_some_iff_append.mp found
        have shown := shows pre₁ b (pre₂ ++ a :: post) (by simp [split])
          (by simpa using notDue) (by simpa using dueB)
        exact absurd shown (Nat.not_le.mpr (early b (by simp)))

end Machine
end Base
