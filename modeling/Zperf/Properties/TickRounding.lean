import Mathlib.Algebra.Group.Nat.Defs
import Zperf.Base.Rounding
import Zperf.Core.Kernel

/-!
Which way the tick conversions round.

All of them truncate, so a conversion named `ceil` gives the rounded-up result only for the
arguments that convert exactly.
-/

namespace Zperf

open Base

/-- The conversions of the kernel shim. -/
inductive TickConversion where
  | ticksToUsCeil32
  | usToTicksCeil32
  | ticksToMsCeil32
  | msToTicksCeil32
  | ticksToUsCeil64
  | msToTicksCeil64
  | ticksToUsFloor64
  deriving DecidableEq, Repr

namespace TickConversion

/-- The bits of the argument and of the result. -/
def width : TickConversion → Nat
  | ticksToUsCeil32 | usToTicksCeil32 | ticksToMsCeil32 | msToTicksCeil32 => 32
  | ticksToUsCeil64 | msToTicksCeil64 | ticksToUsFloor64 => 64

/-- The direction that the name promises. -/
def direction : TickConversion → Rounding
  | ticksToUsFloor64 => .down
  | _ => .up

/-- The exact result is the argument times `factor` by `divisor`. -/
def factor (hz : UInt64) : TickConversion → Nat
  | ticksToUsCeil32 | ticksToUsCeil64 | ticksToUsFloor64 => 1000000
  | ticksToMsCeil32 => 1000
  | usToTicksCeil32 | msToTicksCeil32 | msToTicksCeil64 => hz.toNat

def divisor (hz : UInt64) : TickConversion → Nat
  | ticksToUsCeil32 | ticksToMsCeil32 | ticksToUsCeil64 | ticksToUsFloor64 => hz.toNat
  | usToTicksCeil32 => 1000000
  | msToTicksCeil32 | msToTicksCeil64 => 1000

/-- The call, with an argument of `width` bits. -/
def call (hz : UInt64) (arg : Nat) : TickConversion → Nat
  | ticksToUsCeil32 => (kTicksToUsCeil32 hz (UInt32.ofNat arg)).toNat
  | usToTicksCeil32 => (kUsToTicksCeil32 hz (UInt32.ofNat arg)).toNat
  | ticksToMsCeil32 => (kTicksToMsCeil32 hz (UInt32.ofNat arg)).toNat
  | msToTicksCeil32 => (kMsToTicksCeil32 hz (UInt32.ofNat arg)).toNat
  | ticksToUsCeil64 => (kTicksToUsCeil64 hz (UInt64.ofNat arg)).toNat
  | msToTicksCeil64 => (kMsToTicksCeil64 hz (UInt64.ofNat arg)).toNat
  | ticksToUsFloor64 => (kTicksToUsFloor64 hz (UInt64.ofNat arg)).toNat

/-- An argument of the conversion with a product of 64 bits and an exact result of `width`
bits. -/
structure Fits (conversion : TickConversion) (hz : UInt64) (arg : Nat) : Prop where
  inside : arg < 2 ^ conversion.width
  product : arg * conversion.factor hz < 2 ^ 64
  result : arg * conversion.factor hz ≤ (2 ^ conversion.width - 1) * conversion.divisor hz

/-- The result is rounded the way the name says, and a wait for a time in ticks is not shorter
than the time. -/
def AsNamed (conversion : TickConversion) (hz : UInt64) (arg : Nat) : Prop :=
  conversion.direction.Rounds (arg * conversion.factor hz) (conversion.divisor hz)
    (conversion.call hz arg) ∧
  (conversion = usToTicksCeil32 → arg * hz.toNat ≤ conversion.call hz arg * 1000000)

theorem divisor_pos {hz : UInt64} (running : 1 ≤ hz) (conversion : TickConversion) :
    0 < conversion.divisor hz := by
  have pos : 1 ≤ hz.toNat := UInt64.le_iff_toNat_le.mp running
  cases conversion <;> simp only [divisor] <;> omega

theorem toNat_narrow {n d : UInt64} {product bound : Nat} (numerator : n.toNat = product)
    (denominator : d.toNat = bound) (fits : product / bound < 2 ^ 32) :
    (n / d).toUInt32.toNat = product / bound := by
  rw [UInt64.toNat_toUInt32, UInt64.toNat_div, numerator, denominator, Nat.mod_eq_of_lt fits]

theorem toNat_product {x y : UInt64} {a b : Nat} (left : x.toNat = a) (right : y.toNat = b)
    (fits : a * b < 2 ^ 64) : (x * y).toNat = a * b := by
  rw [UInt64.toNat_mul, left, right, Nat.mod_eq_of_lt fits]

theorem toNat_widened {arg : Nat} (fits : arg < 2 ^ 32) :
    (UInt32.ofNat arg).toUInt64.toNat = arg := by
  rw [UInt32.toNat_toUInt64, UInt32.toNat_ofNat_of_lt' (by simpa using fits)]

/-- Every conversion is the truncated quotient. -/
theorem call_eq {conversion : TickConversion} {hz : UInt64} {arg : Nat}
    (fits : conversion.Fits hz arg) :
    conversion.call hz arg = arg * conversion.factor hz / conversion.divisor hz := by
  obtain ⟨inside, product, result⟩ := fits
  have small := Rounding.div_lt_of_fits result (Nat.two_pow_pos _)
  have wide : arg < 2 ^ 64 → (UInt64.ofNat arg).toNat = arg :=
    fun inside => UInt64.toNat_ofNat_of_lt' (by simpa using inside)
  cases conversion with
  | ticksToUsCeil32 | ticksToMsCeil32 =>
      exact toNat_narrow (toNat_product (toNat_widened inside) rfl product) rfl small
  | usToTicksCeil32 | msToTicksCeil32 =>
      exact toNat_narrow (toNat_product (toNat_widened inside) rfl product) rfl small
  | ticksToUsCeil64 | ticksToUsFloor64 | msToTicksCeil64 =>
      exact (UInt64.toNat_div _ _).trans
        (congrArg (· / _) (toNat_product (wide inside) rfl product))

/-- The conversions named `ceil` round up exactly on the arguments that leave no rest. -/
theorem asNamed_iff (conversion : TickConversion) (hz : UInt64) (arg : Nat)
    (running : 1 ≤ hz) (fits : conversion.Fits hz arg) :
    conversion.AsNamed hz arg ↔ conversion = ticksToUsFloor64 ∨
      conversion.divisor hz ∣ arg * conversion.factor hz := by
  have pos := divisor_pos running conversion
  have quotient := call_eq fits
  cases conversion with
  | ticksToUsFloor64 =>
      refine iff_of_true ⟨?_, nofun⟩ (.inl rfl)
      rw [quotient]
      exact Rounding.div_rounds_down _ pos
  | usToTicksCeil32 =>
      rw [AsNamed, quotient]
      refine ⟨fun named => .inr ((Rounding.div_rounds_up_iff _ pos).mp named.1), ?_⟩
      intro divides
      have divides := divides.resolve_left nofun
      exact ⟨(Rounding.div_rounds_up_iff _ pos).mpr divides,
        fun _ => (Rounding.le_div_mul_iff _ _).mpr divides⟩
  | ticksToUsCeil32 | ticksToMsCeil32 | msToTicksCeil32 | ticksToUsCeil64 | msToTicksCeil64 =>
      rw [AsNamed, quotient]
      refine ⟨fun named => .inr ((Rounding.div_rounds_up_iff _ pos).mp named.1), ?_⟩
      intro divides
      exact ⟨(Rounding.div_rounds_up_iff _ pos).mpr (divides.resolve_left nofun), nofun⟩

/-- One microsecond at 1000 ticks a second is no tick at all. -/
theorem not_asNamed : ¬ ∀ (conversion : TickConversion) (hz : UInt64) (arg : Nat),
    1 ≤ hz → conversion.Fits hz arg → conversion.AsNamed hz arg := by
  intro rounds
  have named := rounds usToTicksCeil32 1000 1 (by decide) ⟨by decide, by decide, by decide⟩
  exact absurd (named.2 rfl) (by decide)

/-- Two milliseconds at 1000 ticks a second are two ticks. -/
theorem asNamed_twoTicks : usToTicksCeil32.AsNamed 1000 2000 :=
  (asNamed_iff usToTicksCeil32 1000 2000 (by decide)
    ⟨by decide, by decide, by decide⟩).mpr (.inr (by decide))

end TickConversion
end Zperf
