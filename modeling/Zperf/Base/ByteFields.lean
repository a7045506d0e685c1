import Mathlib.Data.List.TakeDrop

/-!
Objects of bytes with fields at fixed places, and stores into them.

Outside the bytes of a store an object keeps what it had.
-/

namespace Base

/-- The `size` bytes from `offset` on. -/
def field (object : List UInt8) (offset size : Nat) : List UInt8 :=
  (object.drop offset).take size

theorem field_middle {front bytes back : List UInt8} {offset size : Nat}
    (place : front.length = offset) (length : bytes.length = size) :
    field (front ++ (bytes ++ back)) offset size = bytes := by
  rw [field, List.drop_left' place, List.take_left' length]

structure Store where
  offset : Nat
  bytes : List UInt8
  deriving DecidableEq, Repr

namespace Store

def apply (object : List UInt8) (store : Store) : List UInt8 :=
  object.take store.offset ++ store.bytes ++ object.drop (store.offset + store.bytes.length)

/-- The store stays inside an object of `size` bytes. -/
def Inside (store : Store) (size : Nat) : Prop := store.offset + store.bytes.length ≤ size

instance (store : Store) (size : Nat) : Decidable (store.Inside size) :=
  inferInstanceAs (Decidable (_ ≤ _))

def applyAll (object : List UInt8) (stores : List Store) : List UInt8 := stores.foldl apply object

/-- The store does not touch the field. -/
def Apart (store : Store) (offset size : Nat) : Prop :=
  offset + size ≤ store.offset ∨ store.offset + store.bytes.length ≤ offset

instance (store : Store) (offset size : Nat) : Decidable (store.Apart offset size) :=
  inferInstanceAs (Decidable (_ ∨ _))

theorem length_apply {object : List UInt8} {store : Store} (inside : store.Inside object.length) :
    (store.apply object).length = object.length := by
  simp only [Inside] at inside
  simp only [apply, List.length_append, List.length_take, List.length_drop]
  omega

theorem field_apply_self {object : List UInt8} {store : Store}
    (inside : store.Inside object.length) :
    field (store.apply object) store.offset store.bytes.length = store.bytes := by
  have front : (object.take store.offset).length = store.offset := by
    simp only [Inside] at inside
    rw [List.length_take]
    omega
  rw [field, apply, List.append_assoc, List.drop_left' front, List.take_left]

/-- A field apart from the bytes of a store is kept. -/
theorem field_apply_other {object : List UInt8} {store : Store} {offset size : Nat}
    (inside : store.Inside object.length)
    (apart : store.Apart offset size) :
    field (store.apply object) offset size = field object offset size := by
  simp only [Inside] at inside
  have front : (object.take store.offset).length = store.offset := by
    rw [List.length_take]
    omega
  cases apart with
  | inl before =>
      rw [field, apply, List.append_assoc, List.drop_append_of_le_length (by omega),
        List.take_append_of_le_length (by rw [List.length_drop]; omega), List.drop_take,
        List.take_take, Nat.min_eq_left (by omega), field]
  | inr behind =>
      have length : (object.take store.offset ++ store.bytes).length =
          store.offset + store.bytes.length := by rw [List.length_append, front]
      have split : offset = (object.take store.offset ++ store.bytes).length +
          (offset - (store.offset + store.bytes.length)) := by omega
      rw [field, apply, split, List.drop_length_add_append, List.drop_drop, length,
        field]

theorem length_applyAll {object : List UInt8} {stores : List Store}
    (inside : ∀ store ∈ stores, store.Inside object.length) :
    (applyAll object stores).length = object.length := by
  induction stores generalizing object with
  | nil => rfl
  | cons store stores ih =>
      have length := length_apply (inside store List.mem_cons_self)
      rw [applyAll, List.foldl_cons]
      rw [← length] at inside
      exact (ih fun other later => inside other (List.mem_cons_of_mem _ later)).trans length

theorem field_applyAll_other {object : List UInt8} {stores : List Store} {offset size : Nat}
    (inside : ∀ store ∈ stores, store.Inside object.length)
    (apart : ∀ store ∈ stores, store.Apart offset size) :
    field (applyAll object stores) offset size = field object offset size := by
  induction stores generalizing object with
  | nil => rfl
  | cons store stores ih =>
      have here := inside store List.mem_cons_self
      rw [applyAll, List.foldl_cons, ← field_apply_other here (apart store List.mem_cons_self)]
      rw [← length_apply here] at inside
      exact ih (fun other later => inside other (List.mem_cons_of_mem _ later))
        (fun other later => apart other (List.mem_cons_of_mem _ later))

/-- What was stored stays there if no later store touches it. -/
theorem field_applyAll_self {object : List UInt8} {front back : List Store} {store : Store}
    (inside : ∀ other ∈ front ++ store :: back, other.Inside object.length)
    (apart : ∀ other ∈ back, other.Apart store.offset store.bytes.length) :
    field (applyAll object (front ++ store :: back)) store.offset store.bytes.length =
      store.bytes := by
  have before : ∀ other ∈ front, other.Inside object.length := fun other earlier =>
    inside other (List.mem_append_left _ earlier)
  have length := length_applyAll before
  have here : store.Inside (applyAll object front).length := by
    rw [length]
    exact inside store (List.mem_append_right _ List.mem_cons_self)
  have after : ∀ other ∈ back, other.Inside (store.apply (applyAll object front)).length := by
    intro other later
    rw [length_apply here, length]
    exact inside other (List.mem_append_right _ (List.mem_cons_of_mem _ later))
  have split : applyAll object (front ++ store :: back) =
      applyAll (store.apply (applyAll object front)) back := by
    rw [applyAll, List.foldl_append, List.foldl_cons]
    rfl
  rw [split, field_applyAll_other after apart, field_apply_self here]

end Store
end Base
