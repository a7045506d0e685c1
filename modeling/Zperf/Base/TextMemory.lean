import Mathlib.Data.List.TakeWhile

/-!
Texts in memory: what the C functions on them read and write.

An object is the list of its characters. An access outside it is a fault, and nothing that
follows a fault is defined. A text is stored with a NUL behind it.
-/

namespace Base

inductive Fault where
  /-- a character behind the end of an object is read -/
  | read
  /-- an element behind the end of a buffer of this size is written -/
  | write (size : Nat)
  /-- a copy of a negative number of characters -/
  | negative (length : Int)
  deriving DecidableEq, Repr

/-- The object that holds a text. -/
def terminated (text : List Char) : List Char := text ++ ['\x00']

def charAt (mem : List Char) (i : Nat) : Except Fault Char :=
  match mem[i]? with
  | some c => .ok c
  | none => .error .read

/-- `for (i = 0; i < len; i++) if (!str[i]) { len = i; break; }`: the value of `len`. -/
def strnlen : List Char → Nat → Except Fault Nat
  | _, 0 => .ok 0
  | [], _ + 1 => .error .read
  | c :: mem, len + 1 => if c = '\x00' then .ok 0 else (strnlen mem len).map (· + 1)

/-- The place of the first `c` among the first `len` characters. -/
def memchr (c : Char) : List Char → Nat → Except Fault (Option Nat)
  | _, 0 => .ok none
  | [], _ + 1 => .error .read
  | d :: mem, len + 1 =>
      if d = c then .ok (some 0) else (memchr c mem len).map (Option.map (· + 1))

/-- How often `c` is among the first `len` characters before a NUL. -/
def countChar (c : Char) : List Char → Nat → Except Fault Nat
  | _, 0 => .ok 0
  | [], _ + 1 => .error .read
  | d :: mem, len + 1 =>
      if d = '\x00' then .ok 0
      else (countChar c mem len).map fun count => if d = c then count + 1 else count

/-- `memcpy(buf, mem, length); buf[length] = '\0'` with a buffer of `size` characters: the
text in the buffer. -/
def copyText (size : Nat) (mem : List Char) (length : Int) : Except Fault (List Char) :=
  if length < 0 then .error (.negative length)
  else if mem.length < length.toNat then .error .read
  else if size ≤ length.toNat then .error (.write size)
  else .ok ((mem.take length.toNat).takeWhile (· ≠ '\x00'))

theorem strnlen_terminated {text : List Char} (noNul : '\x00' ∉ text) (len : Nat) :
    strnlen (terminated text) len = .ok (min len text.length) := by
  induction text generalizing len with
  | nil =>
      cases len with
      | zero => rfl
      | succ len => rfl
  | cons c text ih =>
      cases len with
      | zero => rfl
      | succ len =>
          have here : c ≠ '\x00' := (List.ne_of_not_mem_cons noNul).symm
          have later := ih (List.not_mem_of_not_mem_cons noNul) len
          rw [terminated] at later
          simp only [terminated, List.cons_append, strnlen, if_neg here, later, Except.map,
            List.length_cons, Nat.succ_min_succ]

theorem memchr_found {c : Char} {front : List Char} (notIn : c ∉ front) (back : List Char)
    {len : Nat} (inside : front.length < len) :
    memchr c (front ++ c :: back) len = .ok (some front.length) := by
  induction front generalizing len with
  | nil =>
      cases len with
      | zero => contradiction
      | succ len => simp [memchr]
  | cons d front ih =>
      cases len with
      | zero => contradiction
      | succ len =>
          have other : d ≠ c := (List.ne_of_not_mem_cons notIn).symm
          have later := ih (List.not_mem_of_not_mem_cons notIn) (Nat.lt_of_succ_lt_succ inside)
          simp only [List.cons_append, memchr, if_neg other, later, Except.map, Option.map_some,
            List.length_cons]

theorem memchr_none {c : Char} {mem : List Char} {len : Nat} (inside : len ≤ mem.length)
    (notIn : c ∉ mem.take len) : memchr c mem len = .ok none := by
  induction mem generalizing len with
  | nil =>
      obtain rfl := Nat.le_zero.mp inside
      rfl
  | cons d mem ih =>
      cases len with
      | zero => rfl
      | succ len =>
          rw [List.take_succ_cons] at notIn
          have other : d ≠ c := (List.ne_of_not_mem_cons notIn).symm
          have later := ih (Nat.le_of_succ_le_succ inside) (List.not_mem_of_not_mem_cons notIn)
          simp only [memchr, if_neg other, later, Except.map, Option.map_none]

theorem countChar_terminated (c : Char) {text : List Char} (noNul : '\x00' ∉ text) :
    countChar c (terminated text) text.length = .ok (text.count c) := by
  induction text with
  | nil => rfl
  | cons d text ih =>
      have here : d ≠ '\x00' := (List.ne_of_not_mem_cons noNul).symm
      have later := ih (List.not_mem_of_not_mem_cons noNul)
      rw [terminated] at later
      simp only [terminated, List.cons_append, List.length_cons, countChar, if_neg here, later,
        Except.map, List.count_cons, beq_iff_eq]
      split <;> rfl

/-- Characters without a NUL that fit the buffer are copied as they are. -/
theorem copyText_fits {size : Nat} {text : List Char} (noNul : '\x00' ∉ text)
    (back : List Char) (fits : text.length < size) :
    copyText size (text ++ back) text.length = .ok text := by
  have all : ∀ c ∈ text, decide (c ≠ '\x00') = true := fun c inside =>
    decide_eq_true fun same => noNul (same ▸ inside)
  rw [copyText, if_neg (by omega), Int.toNat_natCast, if_neg (by simp), if_neg (by omega),
    List.take_left, List.takeWhile_eq_self_iff.mpr all]

theorem copyText_overflows {size : Nat} {mem : List Char} {length : Nat}
    (inside : length ≤ mem.length) (large : size ≤ length) :
    copyText size mem length = .error (.write size) := by
  rw [copyText, if_neg (by omega), Int.toNat_natCast, if_neg (by omega), if_pos large]

/-- The copy of a text with its NUL. -/
theorem copyText_terminated {size : Nat} {text : List Char} (noNul : '\x00' ∉ text)
    (fits : text.length + 1 < size) :
    copyText size (terminated text) (text.length + 1 : Nat) = .ok text := by
  have all : ∀ c ∈ text, decide (c ≠ '\x00') = true := fun c inside =>
    decide_eq_true fun same => noNul (same ▸ inside)
  have whole : (terminated text).take (text.length + 1) = terminated text :=
    List.take_of_length_le (by simp [terminated])
  rw [copyText, if_neg (by omega), Int.toNat_natCast, if_neg (by simp [terminated]),
    if_neg (by omega), whole, terminated, List.takeWhile_append_of_pos all]
  simp

end Base
