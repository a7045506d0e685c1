import Mathlib.Algebra.Group.Nat.Defs
import Mathlib.Data.List.Basic

/-!
Big-endian 32-bit words in byte strings.

`putWord` is the network order of a word, `word` reads the first four bytes of
a string. A byte that is not there reads as zero, so a reader is total; the
round trips below only use strings that are long enough.
-/

namespace Base

/-- The four bytes of a word in network order. -/
def putWord (w : UInt32) : List UInt8 :=
  [UInt8.ofNat (w.toNat / 2 ^ 24), UInt8.ofNat (w.toNat / 2 ^ 16),
    UInt8.ofNat (w.toNat / 2 ^ 8), UInt8.ofNat w.toNat]

/-- The word that the first four bytes spell in network order. -/
def word (bytes : List UInt8) : UInt32 :=
  UInt32.ofNat ((bytes.getD 0 0).toNat * 2 ^ 24 + (bytes.getD 1 0).toNat * 2 ^ 16 +
    (bytes.getD 2 0).toNat * 2 ^ 8 + (bytes.getD 3 0).toNat)

@[simp] theorem putWord_length (w : UInt32) : (putWord w).length = 4 := rfl

@[simp] theorem word_putWord (w : UInt32) (rest : List UInt8) :
    word (putWord w ++ rest) = w := by
  apply UInt32.toNat_inj.mp
  have bound := w.toNat_lt
  simp only [word, putWord, List.cons_append, List.nil_append, List.getD_cons_zero,
    List.getD_cons_succ, UInt8.toNat_ofNat', UInt32.toNat_ofNat']
  omega

@[simp] theorem word_putWord_nil (w : UInt32) : word (putWord w) = w := by
  simpa using word_putWord w []

@[simp] theorem drop_putWord (w : UInt32) (rest : List UInt8) :
    (putWord w ++ rest).drop 4 = rest := rfl

theorem drop_putWord_add (w : UInt32) (rest : List UInt8) (n : Nat) :
    (putWord w ++ rest).drop (4 + n) = rest.drop n := by
  rw [← List.drop_drop, drop_putWord]

end Base
