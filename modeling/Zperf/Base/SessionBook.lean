import Mathlib.Data.Fintype.Card
import Mathlib.Data.Finset.Card
import Mathlib.Data.List.AList
import Zperf.Base.SlotTable

/-!
The bounded map of sessions that a slot table stands for.

A `Discipline` gives the rules of one session apart from where it is kept, a
`Book` the open sessions by key. `Discipline.serve` is the service itself: it
never opens more sessions than there are slots, and says nothing of slots. A
table whose every step `Answers` an input refines it (`Answers.refines`).
-/

namespace Base

/-- Whose input it is (nobody's when it is ignored), whether it closes a session,
what it opens one with, and what it makes of an open one. -/
structure Discipline (κ δ σ : Type*) where
  peer : δ → Option κ
  closes : δ → Bool
  start : δ → σ
  next : σ → δ → σ

/-- The open sessions, by key. -/
abbrev Book (κ σ : Type*) := AList (fun _ : κ => σ)

namespace Book

variable {κ σ : Type*} [DecidableEq κ]

def put (b : Book κ σ) (p : κ) : Option σ → Book κ σ
  | some s => AList.insert p s b
  | none => AList.erase p b

theorem lookup_put_self (b : Book κ σ) (p : κ) (o : Option σ) :
    (b.put p o).lookup p = o := by
  cases o with
  | none => exact AList.lookup_erase p b
  | some s => exact AList.lookup_insert b

theorem lookup_put_ne (b : Book κ σ) {p q : κ} (o : Option σ) (h : q ≠ p) :
    (b.put p o).lookup q = b.lookup q := by
  cases o with
  | none => exact AList.lookup_erase_ne h
  | some s => exact AList.lookup_insert_ne h

end Book

namespace Discipline

variable {κ δ σ : Type*} (D : Discipline κ δ σ)

/-- What an input makes of the sender's session, open or not. -/
def advance (d : δ) (o : Option σ) : Option σ :=
  if D.closes d then none else some (o.elim (D.start d) fun s => D.next s d)

theorem advance_closes {d : δ} (h : D.closes d = true) (o : Option σ) :
    D.advance d o = none := by
  simp [advance, h]

theorem advance_start {d : δ} (h : D.closes d = false) :
    D.advance d none = some (D.start d) := by
  simp [advance, h]

theorem advance_next {d : δ} (h : D.closes d = false) (s : σ) :
    D.advance d (some s) = some (D.next s d) := by
  simp [advance, h]

variable [DecidableEq κ]

/-- One input against the open sessions. A sender without a session is turned
away while `cap` sessions are open. -/
def serve (cap : Nat) (b : Book κ σ) (d : δ) : Book κ σ :=
  match D.peer d with
  | none => b
  | some p =>
      if b.lookup p = none ∧ cap ≤ b.entries.length then b
      else b.put p (D.advance d (b.lookup p))

theorem lookup_serve_ne (cap : Nat) (b : Book κ σ) (d : δ) {q : κ}
    (h : D.peer d ≠ some q) : (D.serve cap b d).lookup q = b.lookup q := by
  unfold serve
  split
  · rfl
  · rename_i p hp
    split
    · rfl
    · exact b.lookup_put_ne _ (by rintro rfl; exact h hp)

theorem lookup_serve_open (cap : Nat) (b : Book κ σ) (d : δ) {p : κ} {s : σ}
    (hp : D.peer d = some p) (hs : b.lookup p = some s) :
    (D.serve cap b d).lookup p = D.advance d (some s) := by
  simp [serve, hp, hs, Book.lookup_put_self]

theorem lookup_serve_room (cap : Nat) (b : Book κ σ) (d : δ) {p : κ}
    (hp : D.peer d = some p) (room : b.entries.length < cap) :
    (D.serve cap b d).lookup p = D.advance d (b.lookup p) := by
  simp [serve, hp, Nat.not_le.mpr room, Book.lookup_put_self]

theorem serve_full (cap : Nat) (b : Book κ σ) (d : δ) {p : κ}
    (hp : D.peer d = some p) (closed : b.lookup p = none) (full : cap ≤ b.entries.length) :
    D.serve cap b d = b := by
  simp [serve, hp, closed, full]

/-- Only an input of its own peer opens a session, and it starts it afresh. -/
theorem lookup_serve_opened (cap : Nat) (b : Book κ σ) (d : δ) {p : κ} {s : σ}
    (closed : b.lookup p = none) (opened : (D.serve cap b d).lookup p = some s) :
    D.peer d = some p ∧ D.closes d = false ∧ s = D.start d := by
  have hp : D.peer d = some p := by
    by_contra other
    simp [D.lookup_serve_ne cap b d other, closed] at opened
  have room : b.entries.length < cap := by
    by_contra full
    simp [D.serve_full cap b d hp closed (Nat.not_lt.mp full), closed] at opened
  rw [D.lookup_serve_room cap b d hp room, closed] at opened
  cases hc : D.closes d with
  | true => simp [D.advance_closes hc] at opened
  | false =>
      rw [D.advance_start hc] at opened
      exact ⟨hp, rfl, (Option.some.inj opened).symm⟩

/-- An open session is made by its own peer's inputs alone: the others' inputs
in between leave it as it was. -/
theorem lookup_foldl_serve (cap : Nat) (ds : List δ) (b : Book κ σ) {p : κ} {s : σ}
    (hs : b.lookup p = some s) (stays : ∀ d ∈ ds, D.peer d = some p → D.closes d = false) :
    (ds.foldl (D.serve cap) b).lookup p =
      some ((ds.filter fun d => D.peer d = some p).foldl D.next s) := by
  induction ds generalizing b s with
  | nil => simpa using hs
  | cons d ds ih =>
      have rest : ∀ e ∈ ds, D.peer e = some p → D.closes e = false :=
        fun e he => stays e (List.mem_cons_of_mem d he)
      by_cases hp : D.peer d = some p
      · have here := D.lookup_serve_open cap b d hp hs
        rw [D.advance_next (stays d List.mem_cons_self hp)] at here
        simpa [hp] using ih (D.serve cap b d) here rest
      · have kept := (D.lookup_serve_ne cap b d hp).trans hs
        simpa [hp] using ih (D.serve cap b d) kept rest

variable {τ : Type*}

/-- Two disciplines that differ only in what a session remembers. -/
structure Parallel (D' : Discipline κ δ τ) (R : σ → τ → Prop) : Prop where
  peer : ∀ d, D.peer d = D'.peer d
  closes : ∀ d, D.closes d = D'.closes d
  start : ∀ d, D.closes d = false → R (D.start d) (D'.start d)
  next : ∀ s t d, D.closes d = false → R s t → R (D.next s d) (D'.next t d)

variable {D} {D' : Discipline κ δ τ} {R : σ → τ → Prop}

omit [DecidableEq κ] in
theorem Parallel.advance (par : D.Parallel D' R) (d : δ) {o : Option σ} {o' : Option τ}
    (rel : Option.Rel R o o') : Option.Rel R (D.advance d o) (D'.advance d o') := by
  cases hc : D.closes d with
  | true =>
      rw [D.advance_closes hc, D'.advance_closes ((par.closes d).symm.trans hc)]
      exact .none
  | false =>
      have hc' := (par.closes d).symm.trans hc
      cases rel with
      | none =>
          rw [D.advance_start hc, D'.advance_start hc']
          exact .some (par.start d hc)
      | some rel =>
          rw [D.advance_next hc, D'.advance_next hc']
          exact .some (par.next _ _ d hc rel)

private theorem rel_eq_none_iff {o : Option σ} {o' : Option τ}
    (h : Option.Rel R o o') : o = none ↔ o' = none := by
  cases h <;> simp

/-- The same sessions are open, with related contents. -/
structure Book.Related (R : σ → τ → Prop) (b : Book κ σ) (b' : Book κ τ) : Prop where
  keys : b.keys = b'.keys
  sessions : ∀ p, Option.Rel R (b.lookup p) (b'.lookup p)

theorem Book.Related.left {b : Book κ σ} {b' : Book κ τ} (rel : Book.Related R b b') {p : κ}
    {s : σ} (h : b.lookup p = some s) : ∃ t, b'.lookup p = some t ∧ R s t := by
  have here := rel.sessions p
  rw [h] at here
  cases hb : b'.lookup p <;> rw [hb] at here <;> cases here
  exact ⟨_, rfl, ‹_›⟩

theorem Book.Related.right {b : Book κ σ} {b' : Book κ τ} (rel : Book.Related R b b') {p : κ}
    {t : τ} (h : b'.lookup p = some t) : ∃ s, b.lookup p = some s ∧ R s t := by
  have here := rel.sessions p
  rw [h] at here
  cases hb : b.lookup p <;> rw [hb] at here <;> cases here
  exact ⟨_, rfl, ‹_›⟩

theorem Book.Related.empty : Book.Related R (∅ : Book κ σ) (∅ : Book κ τ) :=
  ⟨rfl, fun _ => .none⟩

theorem Book.Related.put {b : Book κ σ} {b' : Book κ τ} (rel : Book.Related R b b') (p : κ)
    {o : Option σ} {o' : Option τ} (h : Option.Rel R o o') :
    Book.Related R (b.put p o) (b'.put p o') where
  keys := by
    cases h <;> simp [Base.Book.put, rel.keys]
  sessions q := by
    by_cases hq : q = p
    · subst hq
      rwa [Base.Book.lookup_put_self, Base.Book.lookup_put_self]
    · rw [Base.Book.lookup_put_ne _ _ hq, Base.Book.lookup_put_ne _ _ hq]
      exact rel.sessions q

theorem Parallel.serve (par : D.Parallel D' R) (cap : Nat) (d : δ) {b : Book κ σ}
    {b' : Book κ τ} (rel : Book.Related R b b') :
    Book.Related R (D.serve cap b d) (D'.serve cap b' d) := by
  unfold Discipline.serve
  rw [← par.peer d]
  cases D.peer d with
  | none => exact rel
  | some p =>
      have closed : b.lookup p = none ↔ b'.lookup p = none := rel_eq_none_iff (rel.sessions p)
      have size : b.entries.length = b'.entries.length := by
        have h := congrArg List.length rel.keys
        simpa [AList.keys, List.keys] using h
      simp only [closed, size]
      split
      · exact rel
      · exact rel.put p (par.advance d (rel.sessions p))

theorem Parallel.foldl_serve (par : D.Parallel D' R) (cap : Nat) (ds : List δ)
    {b : Book κ σ} {b' : Book κ τ} (rel : Book.Related R b b') :
    Book.Related R (ds.foldl (D.serve cap) b) (ds.foldl (D'.serve cap) b') := by
  induction ds generalizing b b' with
  | nil => exact rel
  | cons d ds ih => exact ih (par.serve cap d rel)

end Discipline

namespace SlotReading

variable {ι κ σ α δ : Type*} (K : SlotReading κ σ α)

/-- The table and the book have the same open sessions. -/
def Refines [DecidableEq κ] (t : ι → α) (b : Book κ σ) : Prop :=
  ∀ p s, b.lookup p = some s ↔ K.Holds t p s

/-- What one input may do to the table: nothing when it is ignored or refused;
else it changes one slot granted to its sender, and that slot's session is what
the discipline makes of the session that was in it. -/
def Answers [DecidableEq ι] (D : Discipline κ δ σ) (t : ι → α) (d : δ) (t' : ι → α) : Prop :=
  match D.peer d with
  | none => t' = t
  | some p => K.Refuses t p ∧ t' = t ∨
      ∃ i a, K.Grants t p i ∧ t' = Function.update t i a ∧ K.key a = some p ∧
        K.session a = D.advance d (K.session (t i))

variable {K}

theorem Refines.room_iff [Fintype ι] [DecidableEq κ] {t : ι → α} {b : Book κ σ}
    (wk : K.WellKeyed t) (ref : K.Refines t b) :
    b.entries.length < Fintype.card ι ↔ ∃ i, K.session (t i) = none := by
  classical
  let busy : Finset ι := Finset.univ.filter fun i => (K.session (t i)).isSome
  let keyAt : ι → Option κ := fun i => K.key (t i)
  have image : busy.image keyAt = b.keys.toFinset.image some := by
    ext o
    simp only [Finset.mem_image, List.mem_toFinset, busy, keyAt, Finset.mem_filter,
      Finset.mem_univ, true_and]
    constructor
    · rintro ⟨i, hi, rfl⟩
      obtain ⟨s, hs⟩ := Option.isSome_iff_exists.mp hi
      obtain ⟨p, hp⟩ := wk.keyed i s hs
      refine ⟨p, ?_, hp.symm⟩
      rw [← AList.mem_keys, ← AList.lookup_isSome, (ref p s).mpr ⟨i, hp, hs⟩]
      rfl
    · rintro ⟨p, hp, rfl⟩
      rw [← AList.mem_keys, ← AList.lookup_isSome] at hp
      obtain ⟨s, hs⟩ := Option.isSome_iff_exists.mp hp
      obtain ⟨i, hk, hi⟩ := (ref p s).mp hs
      exact ⟨i, by simp [hi], hk⟩
  have injective : Set.InjOn keyAt busy := by
    intro i hi j hj hij
    simp only [busy, Finset.coe_filter, Finset.mem_univ, true_and, Set.mem_ofPred_eq] at hi
    obtain ⟨s, hs⟩ := Option.isSome_iff_exists.mp hi
    obtain ⟨p, hp⟩ := wk.keyed i s hs
    exact wk.unique i j p hp (by rw [← hp]; exact hij.symm)
  have count : busy.card = b.entries.length := by
    rw [← Finset.card_image_of_injOn injective, image,
      Finset.card_image_of_injective _ (Option.some_injective κ),
      List.toFinset_card_of_nodup b.keys_nodup]
    simp [AList.keys, List.keys]
  rw [← count, Finset.card_lt_iff_ne_univ]
  simp [busy, Finset.filter_eq_self]

theorem Refines.lookup_none {t : ι → α} [DecidableEq κ] {b : Book κ σ} (ref : K.Refines t b)
    {p : κ} (h : ∀ s, ¬ K.Holds t p s) : b.lookup p = none := by
  cases hb : b.lookup p with
  | none => rfl
  | some s => exact absurd ((ref p s).mp hb) (h s)

theorem Grants.lookup_eq {t : ι → α} [DecidableEq κ] {b : Book κ σ} (wk : K.WellKeyed t)
    (ref : K.Refines t b) {p : κ} {i : ι} (grant : K.Grants t p i) :
    b.lookup p = K.session (t i) := by
  cases hs : K.session (t i) with
  | none =>
      apply ref.lookup_none
      intro s hold
      simp [(grant.holds_iff wk s).mp hold] at hs
  | some s => exact (ref p s).mpr ((grant.holds_iff wk s).mpr hs)

theorem Refines.refused [Fintype ι] [DecidableEq κ] {t : ι → α} {b : Book κ σ}
    (wk : K.WellKeyed t) (ref : K.Refines t b) {p : κ} (h : K.Refuses t p) :
    b.lookup p = none ∧ Fintype.card ι ≤ b.entries.length := by
  constructor
  · apply ref.lookup_none
    rintro s ⟨i, hk, -⟩
    exact h.1 i hk
  · rw [← Nat.not_lt, ref.room_iff wk]
    rintro ⟨i, hi⟩
    simpa [hi] using h.2 i

theorem Answers.wellKeyed [DecidableEq ι] {D : Discipline κ δ σ} {t t' : ι → α} {d : δ}
    (wk : K.WellKeyed t) (h : K.Answers D t d t') : K.WellKeyed t' := by
  unfold Answers at h
  split at h
  · rwa [h]
  · rcases h with ⟨-, rfl⟩ | ⟨i, a, grant, rfl, hkey, -⟩
    · exact wk
    · exact wk.update grant hkey

/-- An open session of another peer keeps its slot, every field of it. -/
theorem Answers.frame [DecidableEq ι] {D : Discipline κ δ σ} {t t' : ι → α} {d : δ}
    (h : K.Answers D t d t') {j : ι} (busy : K.session (t j) ≠ none)
    (other : K.key (t j) ≠ D.peer d) : t' j = t j := by
  unfold Answers at h
  split at h
  · rw [h]
  · rename_i p hp
    rcases h with ⟨-, rfl⟩ | ⟨i, a, grant, rfl, -, -⟩
    · rfl
    · refine Function.update_of_ne ?_ _ _
      rintro rfl
      rcases grant with mine | ⟨-, closed⟩
      · exact other (mine.trans hp.symm)
      · exact busy closed

/-- The refinement: whatever slot the table chooses, its open sessions change as
the book's do. -/
theorem Answers.refines [Fintype ι] [DecidableEq ι] [DecidableEq κ]
    {D : Discipline κ δ σ} {t t' : ι → α} {d : δ} {b : Book κ σ} (wk : K.WellKeyed t)
    (ref : K.Refines t b) (h : K.Answers D t d t') :
    K.Refines t' (D.serve (Fintype.card ι) b d) := by
  unfold Answers at h
  split at h
  · rename_i hp
    simpa [h, Discipline.serve, hp] using ref
  · rename_i p hp
    rcases h with ⟨refused, rfl⟩ | ⟨i, a, grant, rfl, hkey, hsession⟩
    · obtain ⟨closed, full⟩ := ref.refused wk refused
      rwa [D.serve_full _ b d hp closed full]
    · have served : (D.serve (Fintype.card ι) b d).lookup p = K.session a := by
        have same := grant.lookup_eq wk ref
        rw [hsession, ← same]
        cases hs : b.lookup p with
        | some s => exact D.lookup_serve_open _ b d hp hs
        | none =>
            have room := (ref.room_iff wk).mpr ⟨i, by rw [← same, hs]⟩
            rw [D.lookup_serve_room _ b d hp room, hs]
      intro q s
      by_cases hq : q = p
      · subst hq
        rw [served, grant.holds_update_self wk hkey]
      · rw [grant.holds_update_ne hkey hq, ← ref q s, D.lookup_serve_ne]
        rw [hp]
        exact fun h => hq (Option.some.inj h).symm

end SlotReading
end Base
