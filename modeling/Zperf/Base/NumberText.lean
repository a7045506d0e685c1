import Mathlib.Algebra.Group.Int.Defs
import Mathlib.Algebra.Group.Nat.Defs
import Mathlib.Data.List.TakeWhile

/-!
Numbers at the start of a text, as the C library reads them: white space, a sign, the
prefix of a hexadecimal number and the longest run of digits. The long types have 32 bits.
-/

namespace Base

/-- `isspace` in the C locale. -/
def isSpace (c : Char) : Bool :=
  c = ' ' || (9 ≤ c.toNat && c.toNat ≤ 13)

/-- The value of a digit of some base, or 36. -/
def digitValue (c : Char) : Nat :=
  if '0' ≤ c ∧ c ≤ '9' then c.toNat - 48
  else if 'A' ≤ c ∧ c ≤ 'Z' then c.toNat - 55
  else if 'a' ≤ c ∧ c ≤ 'z' then c.toNat - 87
  else 36

def isDigitOf (base : Nat) (c : Char) : Bool := decide (digitValue c < base)

def digitsValue (base : Nat) (digits : List Char) : Nat :=
  digits.foldl (fun value c => value * base + digitValue c) 0

structure Numeral where
  negative : Bool
  magnitude : Nat
  rest : List Char
  deriving DecidableEq, Repr

def takeSign : List Char → Bool × List Char
  | '-' :: text => (true, text)
  | '+' :: text => (false, text)
  | text => (false, text)

/-- Without the prefix `0x`, which counts only in front of a digit. -/
def dropHexPrefix : List Char → List Char
  | '0' :: x :: c :: text =>
      if (x = 'x' ∨ x = 'X') ∧ isDigitOf 16 c then c :: text else '0' :: x :: c :: text
  | text => text

/-- The number that `text` begins with; `none` where there is no conversion. -/
def numeral (base : Nat) (text : List Char) : Option Numeral :=
  let (negative, unsigned) := takeSign (text.dropWhile isSpace)
  let body := if base = 16 then dropHexPrefix unsigned else unsigned
  match body.takeWhile (isDigitOf base) with
  | [] => none
  | digit :: digits =>
      some ⟨negative, digitsValue base (digit :: digits), body.dropWhile (isDigitOf base)⟩

/-- `strtoul`: its value, and the text from `*endptr` on. -/
def strtoul (base : Nat) (text : List Char) : UInt32 × List Char :=
  match numeral base text with
  | none => (0, text)
  | some n =>
      if 2 ^ 32 ≤ n.magnitude then (UInt32.ofNat (2 ^ 32 - 1), n.rest)
      else if n.negative then (-UInt32.ofNat n.magnitude, n.rest)
      else (UInt32.ofNat n.magnitude, n.rest)

/-- `ERANGE`. -/
def erange : Int := 34

/-- `strtol`: its value, the text from `*endptr` on, and what it sets `errno` to, or 0. -/
def strtol (base : Nat) (text : List Char) : Int32 × List Char × Int :=
  match numeral base text with
  | none => (0, text, 0)
  | some n =>
      if n.negative then
        if 2 ^ 31 < n.magnitude then (Int32.ofInt (-2 ^ 31), n.rest, erange)
        else (Int32.ofInt (-n.magnitude), n.rest, 0)
      else
        if 2 ^ 31 ≤ n.magnitude then (Int32.ofInt (2 ^ 31 - 1), n.rest, erange)
        else (Int32.ofInt n.magnitude, n.rest, 0)

example : strtol 16 ['0', 'x', '1', 'F', 'g'] = (31, ['g'], 0) := by decide

/-- A number of 32 bits without a minus sign is read exactly. -/
theorem strtoul_of_numeral {base : Nat} {text rest : List Char} {n : Nat}
    (read : numeral base text = some ⟨false, n, rest⟩) (fits : n < 2 ^ 32) :
    strtoul base text = (UInt32.ofNat n, rest) := by
  simp only [strtoul, read]
  rw [if_neg (by omega)]
  rfl

theorem isDigitOf_ten_iff {c : Char} : isDigitOf 10 c = true ↔ 48 ≤ c.toNat ∧ c.toNat ≤ 57 := by
  have le (a b : Char) : a ≤ b ↔ a.toNat ≤ b.toNat := UInt32.le_iff_toNat_le
  simp only [isDigitOf, digitValue, le, decide_eq_true_eq, Char.reduceToNat]
  split
  · omega
  · split
    · omega
    · split <;> omega

theorem ne_of_digit {c d : Char} (digit : isDigitOf 10 c = true)
    (other : isDigitOf 10 d = false) : c ≠ d := by
  intro same
  rw [same, other] at digit
  exact Bool.false_ne_true digit

theorem not_space_of_digit {c : Char} (digit : isDigitOf 10 c = true) : isSpace c = false := by
  have range := isDigitOf_ten_iff.mp digit
  have blank : c ≠ ' ' := ne_of_digit digit rfl
  simp only [isSpace, blank, decide_false, Bool.false_or, Bool.and_eq_false_iff,
    decide_eq_false_iff_not]
  omega

theorem takeSign_of_digit {c : Char} {text : List Char} (digit : isDigitOf 10 c = true) :
    takeSign (c :: text) = (false, c :: text) := by
  have minus : c ≠ '-' := ne_of_digit digit rfl
  have plus : c ≠ '+' := ne_of_digit digit rfl
  unfold takeSign
  split
  · rename_i same
    exact absurd (List.cons.inj same).1 minus
  · rename_i same
    exact absurd (List.cons.inj same).1 plus
  · rfl

/-- Digits with something else behind them are read as their value. -/
theorem numeral_of_digits {digits rest : List Char} (nonempty : digits ≠ [])
    (all : ∀ c ∈ digits, isDigitOf 10 c = true)
    (ends : ∀ c ∈ rest.head?, isDigitOf 10 c = false) :
    numeral 10 (digits ++ rest) = some ⟨false, digitsValue 10 digits, rest⟩ := by
  cases digits with
  | nil => exact absurd rfl nonempty
  | cons c digits =>
      have digit := all c List.mem_cons_self
      have start : ((c :: digits) ++ rest).dropWhile isSpace = (c :: digits) ++ rest := by
        rw [List.cons_append, List.dropWhile_cons_of_neg (by rw [not_space_of_digit digit]; decide)]
      have takes : rest.takeWhile (isDigitOf 10) = [] ∧ rest.dropWhile (isDigitOf 10) = rest := by
        cases rest with
        | nil => exact ⟨rfl, rfl⟩
        | cons d rest =>
            have other : ¬ isDigitOf 10 d = true := by rw [ends d rfl]; decide
            exact ⟨List.takeWhile_cons_of_neg other, List.dropWhile_cons_of_neg other⟩
      have sign : takeSign ((c :: digits) ++ rest) = (false, (c :: digits) ++ rest) :=
        takeSign_of_digit digit
      have ten : ¬ (10 : Nat) = 16 := by decide
      simp only [numeral, start, sign, if_neg ten, List.takeWhile_append_of_pos all,
        List.dropWhile_append_of_pos all, takes.1, takes.2, List.append_nil]

theorem digits_of_toDigits (n : Nat) : ∀ c ∈ Nat.toDigits 10 n, isDigitOf 10 c = true := by
  intro c inside
  have digit := Nat.isDigit_of_mem_toDigits (by decide) (by decide) inside
  simp only [Char.isDigit, Bool.and_eq_true, decide_eq_true_eq, UInt32.le_iff_toNat_le] at digit
  exact isDigitOf_ten_iff.mpr digit

theorem digitsValue_toDigits (n : Nat) : digitsValue 10 (Nat.toDigits 10 n) = n := by
  have agree (digits : List Char) (all : ∀ c ∈ digits, isDigitOf 10 c = true) (value : Nat) :
      digits.foldl (fun value c => value * 10 + digitValue c) value =
        Nat.ofDigitChars 10 digits value := by
    induction digits generalizing value with
    | nil => exact Nat.ofDigitChars_nil.symm
    | cons c digits ih =>
        have digit := isDigitOf_ten_iff.mp (all c List.mem_cons_self)
        have here : digitValue c = c.toNat - '0'.toNat := by
          have le (a b : Char) : a ≤ b ↔ a.toNat ≤ b.toNat := UInt32.le_iff_toNat_le
          rw [digitValue, if_pos (by rw [le, le]; exact digit)]
          rfl
        rw [List.foldl_cons, ih (fun d inside => all d (List.mem_cons_of_mem _ inside)),
          Nat.ofDigitChars_cons, here, Nat.mul_comm]
  rw [digitsValue, agree _ (digits_of_toDigits n)]
  exact Nat.ofDigitChars_ten_toDigits

/-- What may stand between white space and digits. -/
inductive Sign where
  | none
  | plus
  | minus
  deriving DecidableEq, Repr

def Sign.text : Sign → List Char
  | none => []
  | plus => ['+']
  | minus => ['-']

/-- A text that is a number and nothing else, as it is read. -/
structure NumberText (text : List Char) (blanks : List Char) (sign : Sign)
    (digits : List Char) : Prop where
  whole : text = blanks ++ (sign.text ++ digits)
  spaces : ∀ c ∈ blanks, isSpace c = true
  nonempty : digits ≠ []
  all : ∀ c ∈ digits, isDigitOf 10 c = true

theorem takeSign_text (text : List Char) :
    ∃ sign : Sign, text = sign.text ++ (takeSign text).2 ∧
      (takeSign text).1 = decide (sign = .minus) := by
  unfold takeSign
  split
  · exact ⟨.minus, rfl, rfl⟩
  · exact ⟨.plus, rfl, rfl⟩
  · exact ⟨.none, rfl, rfl⟩

theorem takeSign_of_text (sign : Sign) {c : Char} {digits : List Char}
    (digit : isDigitOf 10 c = true) :
    takeSign (sign.text ++ c :: digits) = (decide (sign = .minus), c :: digits) := by
  cases sign with
  | none => exact takeSign_of_digit digit
  | plus | minus => rfl

theorem numeral_of_numberText {text blanks digits : List Char} {sign : Sign}
    (number : NumberText text blanks sign digits) :
    numeral 10 text = some ⟨decide (sign = .minus), digitsValue 10 digits, []⟩ := by
  obtain ⟨rfl, spaces, nonempty, all⟩ := number
  cases digits with
  | nil => exact absurd rfl nonempty
  | cons c digits =>
      have digit := all c List.mem_cons_self
      have start : (sign.text ++ c :: digits).dropWhile isSpace = sign.text ++ c :: digits := by
        cases sign with
        | none => exact List.dropWhile_cons_of_neg (by rw [not_space_of_digit digit]; decide)
        | plus | minus => rfl
      have ten : ¬ (10 : Nat) = 16 := by decide
      have takes : (c :: digits).takeWhile (isDigitOf 10) = c :: digits :=
        List.takeWhile_eq_self_iff.mpr all
      have drops : (c :: digits).dropWhile (isDigitOf 10) = [] :=
        List.dropWhile_eq_nil_iff.mpr all
      simp only [numeral, List.dropWhile_append_of_pos spaces, start, takeSign_of_text sign digit,
        if_neg ten, takes, drops]

theorem numberText_of_numeral {text : List Char} {negative : Bool} {n : Nat}
    (read : numeral 10 text = some ⟨negative, n, []⟩) :
    ∃ blanks sign digits, NumberText text blanks sign digits ∧
      negative = decide (sign = .minus) ∧ n = digitsValue 10 digits := by
  obtain ⟨sign, unsigned, negative'⟩ := takeSign_text (text.dropWhile isSpace)
  have ten : ¬ (10 : Nat) = 16 := by decide
  simp only [numeral, if_neg ten] at read
  have split := @List.takeWhile_append_dropWhile _ (isDigitOf 10)
    (takeSign (text.dropWhile isSpace)).2
  cases digits : (takeSign (text.dropWhile isSpace)).2.takeWhile (isDigitOf 10) with
  | nil =>
      rw [digits] at read
      cases read
  | cons c rest =>
      simp only [digits] at read
      obtain ⟨rfl, rfl, ends⟩ := Numeral.mk.inj (Option.some.inj read)
      rw [ends, List.append_nil] at split
      refine ⟨text.takeWhile isSpace, sign, c :: rest, ⟨?_, ?_, nofun, ?_⟩, negative', rfl⟩
      · rw [← digits, split, ← unsigned, List.takeWhile_append_dropWhile]
      · exact fun d inside => List.mem_takeWhile_imp inside
      · rw [← digits]
        exact fun d inside => List.mem_takeWhile_imp inside

theorem NumberText.ne_nil {text blanks digits : List Char} {sign : Sign}
    (number : NumberText text blanks sign digits) : text ≠ [] := by
  rw [number.whole]
  intro none
  exact number.nonempty (List.append_eq_nil_iff.mp (List.append_eq_nil_iff.mp none).2).2

end Base
