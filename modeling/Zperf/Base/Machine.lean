import Mathlib.Data.List.Basic
import Mathlib.Data.List.Induction

/-!
Machines that read one input at a time, emit outputs and may stop for good.

A stop is an outcome of a step, not a state: it keeps what the step emitted
before it. Runs, their composition, invariants over the inputs read so far and
simulations between two machines are stated once, for any machine.
-/

namespace Base

/-- One input gives the outputs emitted and the next state, or no next state
when the machine stops in the middle of the step. -/
structure Machine (σ α ω : Type*) where
  step : σ → α → List ω × Option σ

/-- A step that goes on has one outcome. -/
theorem goesOn_inj {ω σ : Type*} {out out' : List ω} {s s' : σ}
    (h : (out, some s) = (out', some s')) : out = out' ∧ s = s' :=
  (Prod.mk.inj h).imp id Option.some.inj

/-- What holds at every entry of a log and the entries before it, entry by entry. -/
theorem forall_split_iff {ω : Type*} (P : List ω → ω → Prop) (log : List ω) :
    (∀ pre e post, log = pre ++ e :: post → P pre e) ↔
      ∀ i : Fin log.length, P (log.take i) log[i] := by
  constructor
  · intro h i
    exact h (log.take i) log[i] (log.drop (i + 1)) (by simp)
  · intro h pre e post split
    subst split
    simpa using h ⟨pre.length, by simp⟩

namespace Machine

variable {σ α ω τ β ω' : Type*}

def run (m : Machine σ α ω) : σ → List α → List ω × Option σ
  | s, [] => ([], some s)
  | s, a :: as =>
      match m.step s a with
      | (out, none) => (out, none)
      | (out, some t) => (out ++ (m.run t as).1, (m.run t as).2)

/-- The inputs lead from `s` to `t` without a stop and emit `out`. -/
def Reaches (m : Machine σ α ω) (s : σ) (as : List α) (out : List ω) (t : σ) : Prop :=
  m.run s as = (out, some t)

@[simp] theorem reaches_nil (m : Machine σ α ω) (s t : σ) (out : List ω) :
    m.Reaches s [] out t ↔ out = [] ∧ s = t := by
  simp [Reaches, run, eq_comm]

theorem reaches_cons (m : Machine σ α ω) (s : σ) (a : α) (as : List α)
    (out : List ω) (t : σ) :
    m.Reaches s (a :: as) out t ↔
      ∃ first mid rest, m.step s a = (first, some mid) ∧
        m.Reaches mid as rest t ∧ out = first ++ rest := by
  unfold Reaches
  simp only [run]
  constructor
  · intro h
    rcases hs : m.step s a with ⟨first, _ | mid⟩
    · simp [hs] at h
    · simp only [hs, Prod.mk.injEq] at h
      exact ⟨first, mid, (m.run mid as).1, rfl, Prod.ext rfl h.2, h.1.symm⟩
  · rintro ⟨first, mid, rest, hs, hr, rfl⟩
    simp [hs, hr]

theorem Reaches.single {m : Machine σ α ω} {s t : σ} {a : α} {out : List ω}
    (h : m.step s a = (out, some t)) : m.Reaches s [a] out t := by
  rw [reaches_cons]
  exact ⟨out, t, [], h, by simp, by simp⟩

theorem reaches_single (m : Machine σ α ω) (s t : σ) (a : α) (out : List ω) :
    m.Reaches s [a] out t ↔ m.step s a = (out, some t) := by
  refine ⟨?_, Reaches.single⟩
  rw [reaches_cons]
  rintro ⟨first, mid, rest, hs, hr, rfl⟩
  obtain ⟨rfl, rfl⟩ := (reaches_nil m mid t rest).mp hr
  simpa using hs

theorem reaches_append (m : Machine σ α ω) (s : σ) (as bs : List α)
    (out : List ω) (t : σ) :
    m.Reaches s (as ++ bs) out t ↔
      ∃ first mid rest, m.Reaches s as first mid ∧
        m.Reaches mid bs rest t ∧ out = first ++ rest := by
  induction as generalizing s out with
  | nil =>
      simp only [List.nil_append, reaches_nil]
      constructor
      · intro h
        exact ⟨[], s, out, ⟨rfl, rfl⟩, h, rfl⟩
      · rintro ⟨_, _, rest, ⟨rfl, rfl⟩, h, rfl⟩
        exact h
  | cons a as ih =>
      simp only [List.cons_append, reaches_cons, ih]
      constructor
      · rintro ⟨o₁, u, _, hs, ⟨o₂, v, o₃, h₁, h₂, rfl⟩, rfl⟩
        exact ⟨o₁ ++ o₂, v, o₃, ⟨o₁, u, o₂, hs, h₁, rfl⟩, h₂, by simp⟩
      · rintro ⟨_, v, o₃, ⟨o₁, u, o₂, hs, h₁, rfl⟩, h₂, rfl⟩
        exact ⟨o₁, u, o₂ ++ o₃, hs, ⟨o₂, v, o₃, h₁, h₂, rfl⟩, by simp⟩

theorem Reaches.append {m : Machine σ α ω} {s u t : σ} {as bs : List α}
    {out out' : List ω} (h : m.Reaches s as out u) (h' : m.Reaches u bs out' t) :
    m.Reaches s (as ++ bs) (out ++ out') t :=
  (reaches_append m s as bs _ t).mpr ⟨out, u, out', h, h', rfl⟩

theorem Reaches.functional {m : Machine σ α ω} {s t t' : σ} {as : List α}
    {out out' : List ω} (h : m.Reaches s as out t) (h' : m.Reaches s as out' t') :
    out = out' ∧ t = t' := by
  have same := h.symm.trans h'
  simpa using same

theorem Reaches.isSome {m : Machine σ α ω} {s t : σ} {as : List α} {out : List ω}
    (h : m.Reaches s as out t) : (m.run s as).2.isSome = true := by
  rw [show m.run s as = (out, some t) from h]
  rfl

theorem reaches_of_final (m : Machine σ α ω) {s t : σ} {as : List α}
    (h : (m.run s as).2 = some t) : m.Reaches s as (m.run s as).1 t :=
  Prod.ext rfl h

theorem reaches_of_isSome (m : Machine σ α ω) (s : σ) (as : List α)
    (h : (m.run s as).2.isSome) :
    m.Reaches s as (m.run s as).1 ((m.run s as).2.get h) :=
  Prod.ext rfl (Option.some_get h).symm

/-- The invariant rule, with the inputs read so far and the outputs emitted so
far as history. -/
theorem Reaches.invariant {m : Machine σ α ω} (Inv : List α → List ω → σ → Prop)
    (preserved : ∀ past emitted s a out t, Inv past emitted s →
      m.step s a = (out, some t) → Inv (past ++ [a]) (emitted ++ out) t)
    {s t : σ} {past as : List α} {emitted out : List ω} (start : Inv past emitted s)
    (h : m.Reaches s as out t) : Inv (past ++ as) (emitted ++ out) t := by
  induction as generalizing s past emitted out with
  | nil =>
      obtain ⟨rfl, rfl⟩ := (reaches_nil m s t out).mp h
      simpa using start
  | cons a as ih =>
      obtain ⟨first, mid, rest, hs, hr, rfl⟩ := (reaches_cons m s a as out t).mp h
      have next := ih (preserved past emitted s a first mid start hs) hr
      simpa using next

theorem Reaches.preserves {m : Machine σ α ω} (Inv : σ → Prop)
    (preserved : ∀ s a out t, Inv s → m.step s a = (out, some t) → Inv t)
    {s t : σ} {as : List α} {out : List ω} (start : Inv s)
    (h : m.Reaches s as out t) : Inv t :=
  @invariant σ α ω m (fun _ _ => Inv) (fun _ _ s a out t => preserved s a out t)
    s t [] as [] out start h

/-- A step-by-step simulation carries whole runs: what each step of `m` does to
related states, the function `f` of its input does on the other side. -/
theorem Reaches.simulates {m : Machine σ α ω} (R : σ → τ → Prop) (f : τ → α → τ)
    (step : ∀ s r a out t, R s r → m.step s a = (out, some t) → R t (f r a))
    {s t : σ} {as : List α} {out : List ω} {r : τ} (start : R s r)
    (h : m.Reaches s as out t) : R t (as.foldl f r) := by
  induction as generalizing s r out with
  | nil =>
      obtain ⟨rfl, rfl⟩ := (reaches_nil m s t out).mp h
      exact start
  | cons a as ih =>
      obtain ⟨first, mid, rest, hs, hr, rfl⟩ := (reaches_cons m s a as out t).mp h
      exact ih (step s r a first mid start hs) hr

/-- The machine behind inputs that are translated for it. -/
def comap (m : Machine σ α ω) (f : β → α) : Machine σ β ω where
  step s b := m.step s (f b)

/-- The machine with its outputs labelled by what they are about. -/
def labelled (m : Machine σ α ω) (label : σ → α → β) : Machine σ α (β × ω) where
  step s a := ((m.step s a).1.map fun o => (label s a, o), (m.step s a).2)

theorem labelled_step {m : Machine σ α ω} {label : σ → α → β} {s t : σ} {a : α}
    {out : List (β × ω)} (h : (m.labelled label).step s a = (out, some t)) :
    ∃ o, m.step s a = (o, some t) ∧ out = o.map fun x => (label s a, x) := by
  obtain ⟨rfl, next⟩ := Prod.mk.inj h
  exact ⟨(m.step s a).1, Prod.ext rfl next, rfl⟩

/-- At every step of a run, `P` holds of the inputs read before, the state and the
input. -/
def Along (m : Machine σ α ω) (P : List α → σ → α → Prop) : List α → σ → List α → Prop
  | _, _, [] => True
  | past, s, a :: as =>
      P past s a ∧ match (m.step s a).2 with
        | none => True
        | some t => m.Along P (past ++ [a]) t as

instance decidableAlong (m : Machine σ α ω) (P : List α → σ → α → Prop)
    [∀ past s a, Decidable (P past s a)] :
    ∀ past s as, Decidable (m.Along P past s as)
  | _, _, [] => .isTrue trivial
  | past, s, a :: as =>
      have : Decidable (match (m.step s a).2 with
          | none => True
          | some t => m.Along P (past ++ [a]) t as) :=
        match (m.step s a).2 with
        | none => .isTrue trivial
        | some t => m.decidableAlong P (past ++ [a]) t as
      inferInstanceAs (Decidable (_ ∧ _))

theorem Along.of_forall {m : Machine σ α ω} {Q : α → Prop} {as : List α} (h : ∀ a ∈ as, Q a)
    (past : List α) (s : σ) : m.Along (fun _ _ => Q) past s as := by
  induction as generalizing past s with
  | nil => trivial
  | cons a as ih =>
      refine ⟨h a List.mem_cons_self, ?_⟩
      cases (m.step s a).2 with
      | none => trivial
      | some t => exact ih (fun b hb => h b (List.mem_cons_of_mem a hb)) _ t

theorem Along.always {m : Machine σ α ω} {P : List α → σ → α → Prop} (h : ∀ past s a, P past s a)
    (past : List α) (s : σ) (as : List α) : m.Along P past s as := by
  induction as generalizing past s with
  | nil => trivial
  | cons a as ih =>
      refine ⟨h past s a, ?_⟩
      cases (m.step s a).2 with
      | none => trivial
      | some t => exact ih _ t

theorem Along.and {m : Machine σ α ω} {P Q : List α → σ → α → Prop} {past as : List α} {s : σ}
    (hP : m.Along P past s as) (hQ : m.Along Q past s as) :
    m.Along (fun past s a => P past s a ∧ Q past s a) past s as := by
  induction as generalizing past s with
  | nil => trivial
  | cons a as ih =>
      refine ⟨⟨hP.1, hQ.1⟩, ?_⟩
      have later := hP.2
      have later' := hQ.2
      cases hs : (m.step s a).2 with
      | none => trivial
      | some t =>
          rw [hs] at later later'
          exact ih later later'

/-- What an invariant and the condition on each step say of that step, along a run. -/
theorem Along.of_invariant {m : Machine σ α ω} {P Q : List α → σ → α → Prop}
    (Inv : List α → σ → Prop)
    (preserved : ∀ past s a out t, Inv past s → P past s a →
      m.step s a = (out, some t) → Inv (past ++ [a]) t)
    (holds : ∀ past s a, Inv past s → P past s a → Q past s a)
    {past as : List α} {s : σ} (start : Inv past s) (along : m.Along P past s as) :
    m.Along Q past s as := by
  induction as generalizing past s with
  | nil => trivial
  | cons a as ih =>
      obtain ⟨here, later⟩ := along
      refine ⟨holds past s a start here, ?_⟩
      cases hs : m.step s a with
      | mk out next =>
          rw [hs] at later
          cases next with
          | none => trivial
          | some t => exact ih (preserved past s a out t start here hs) later

/-- The invariant rule for runs whose steps all meet a condition. -/
theorem Reaches.invariant_along {m : Machine σ α ω} {P : List α → σ → α → Prop}
    (Inv : List α → List ω → σ → Prop)
    (preserved : ∀ past emitted s a out t, Inv past emitted s → P past s a →
      m.step s a = (out, some t) → Inv (past ++ [a]) (emitted ++ out) t)
    {s t : σ} {past as : List α} {emitted out : List ω} (start : Inv past emitted s)
    (along : m.Along P past s as) (h : m.Reaches s as out t) :
    Inv (past ++ as) (emitted ++ out) t := by
  induction as generalizing s past emitted out with
  | nil =>
      obtain ⟨rfl, rfl⟩ := (reaches_nil m s t out).mp h
      simpa using start
  | cons a as ih =>
      obtain ⟨first, mid, rest, hs, hr, rfl⟩ := (reaches_cons m s a as out t).mp h
      obtain ⟨here, later⟩ := along
      rw [hs] at later
      have next := ih (preserved past emitted s a first mid start here hs) later hr
      simpa using next

theorem Reaches.history_along {m : Machine σ α ω} {P : List α → σ → α → Prop}
    (Inv : List α → σ → Prop)
    (preserved : ∀ past s a out t, Inv past s → P past s a →
      m.step s a = (out, some t) → Inv (past ++ [a]) t)
    {s t : σ} {as : List α} {out : List ω} (start : Inv [] s)
    (along : m.Along P [] s as) (h : m.Reaches s as out t) : Inv as t :=
  @invariant_along σ α ω m P (fun past _ => Inv past)
    (fun past _ s a out t => preserved past s a out t) s t [] as [] out start along h

/-- The inputs are read to their end exactly when no step on the way stops. -/
theorem exists_reaches_iff (m : Machine σ α ω) (s : σ) (as : List α) :
    (∃ out t, m.Reaches s as out t) ↔
      ∀ pre a post, as = pre ++ a :: post → ∀ out t, m.Reaches s pre out t →
        (m.step t a).2.isSome := by
  constructor
  · rintro ⟨out, t, h⟩ pre a post rfl out' t' hpre
    obtain ⟨first, mid, rest, hfirst, hrest, -⟩ := (reaches_append m s pre _ out t).mp h
    obtain ⟨o, u, _, hs, -, -⟩ := (reaches_cons m mid a post rest t).mp hrest
    obtain ⟨-, rfl⟩ := hpre.functional hfirst
    simp [hs]
  · intro total
    induction as using List.reverseRecOn with
    | nil => exact ⟨[], s, by simp⟩
    | append_singleton as a ih =>
        obtain ⟨out, t, hr⟩ := ih (by
          intro pre b post hsplit out t hr
          exact total pre b (post ++ [a]) (by simp [hsplit]) out t hr)
        obtain ⟨t', ht⟩ := Option.isSome_iff_exists.mp (total as a [] rfl out t hr)
        exact ⟨_, t', hr.append (Reaches.single (Prod.ext rfl ht))⟩

end Machine
end Base
