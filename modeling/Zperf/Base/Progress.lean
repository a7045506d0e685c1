import Zperf.Base.Machine

/-!
Rules for what a run comes to, beside those for what it keeps.

A property is traced back from the end of a run to its start, or a rank that some of the
steps lower bounds how many of them there can be before the run is done.
-/

namespace Base
namespace Machine

variable {σ α ω : Type*} {m : Machine σ α ω}

/-- The backward rule: what can be traced back over every step can be traced back over a
run. -/
theorem Reaches.traced {s t : σ} {as : List α} {out : List ω} (P : σ → Prop)
    (back : ∀ s a out t, m.step s a = (out, some t) → P t → P s)
    (run : m.Reaches s as out t) (ends : P t) : P s := by
  induction as generalizing s out with
  | nil =>
      obtain ⟨-, rfl⟩ := (reaches_nil m s t out).mp run
      exact ends
  | cons a as ih =>
      obtain ⟨first, mid, rest, step, later, -⟩ := (reaches_cons m s a as out t).mp run
      exact back s a first mid step (ih later)

/-- The rank rule: where each step of one kind lowers the rank and no other raises it until
something is done, a run in which nothing is done has at most as many steps of that kind as
the rank it begins with. -/
theorem Reaches.turns_le {Inv : σ → Prop} {rank : σ → Nat} {turn : α → Bool} {done : ω → Prop}
    (lowers : ∀ s a out t, Inv s → m.step s a = (out, some t) → (∀ e ∈ out, ¬ done e) →
      Inv t ∧ rank t + (if turn a then 1 else 0) ≤ rank s)
    {s t : σ} {as : List α} {out : List ω} (start : Inv s) (run : m.Reaches s as out t)
    (undone : ∀ e ∈ out, ¬ done e) : as.countP turn + rank t ≤ rank s := by
  induction as generalizing s out with
  | nil =>
      obtain ⟨-, rfl⟩ := (reaches_nil m s t out).mp run
      simp
  | cons a as ih =>
      obtain ⟨first, mid, rest, step, later, rfl⟩ := (reaches_cons m s a as out t).mp run
      rw [List.forall_mem_append] at undone
      obtain ⟨kept, lower⟩ := lowers s a first mid start step undone.1
      have ahead := ih kept later undone.2
      rw [List.countP_cons]
      omega

end Machine
end Base
