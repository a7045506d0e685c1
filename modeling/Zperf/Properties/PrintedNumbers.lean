import Zperf.Core.Shell

/-!
What `print_number` shows of a quantity.

The fraction is multiplied by 100 in 32 bits before it is divided. Only the minutes of
`TIME_US` have remainders that are too large for that.
-/

namespace Zperf

/-- The tables that `print_number` is called with. -/
inductive PrintTable where
  | timeUs
  | kbps
  | k
  deriving DecidableEq, Repr

def PrintTable.units : PrintTable → List (UInt32 × CString)
  | .timeUs => timeUsUnits
  | .kbps => kbpsUnits
  | .k => kUnits

/-- The two-digit form of a number below 100. -/
def twoDigits (n : Nat) : CString := [Nat.digitChar (n / 10), Nat.digitChar (n % 10)]

/-- The form `r.xx unit`. -/
def quotientText (r xx : Nat) (unit : CString) : CString :=
  Nat.toDigits 10 r ++ ['.'] ++ twoDigits xx ++ [' '] ++ unit

/-- `value / divisor` truncated to two decimals, in the integers. -/
def exactText (value divisor : Nat) (unit : CString) : CString :=
  quotientText (value / divisor) (value % divisor * 100 / divisor) unit

/-- The text of the entry that the scan stops at: the quotient, or the value where there is no
divisor. -/
def PrintsTrue (value : UInt32) (units : List (UInt32 × CString)) (divisor : UInt32)
    (unit : CString) : Prop :=
  if divisor = 0 then printNumber value units = some (decimal value ++ [' '] ++ unit)
  else printNumber value units = some (exactText value.toNat divisor.toNat unit) ∧
    value.toNat % divisor.toNat * 100 / divisor.toNat < 100

/-- A remainder of the minutes that does not fit 32 bits when it is multiplied by 100. -/
def LongMinute (table : PrintTable) (value : UInt32) : Prop :=
  table = .timeUs ∧ 60000000 ≤ value.toNat ∧ 42949673 ≤ value.toNat % 60000000

/-- The digits `xx` are the two-digit form of the number printed there. -/
theorem padded_eq_twoDigits {dec : UInt32} (small : dec.toNat < 100) :
    (if dec < 10 then ['0'] else []) ++ decimal dec = twoDigits dec.toNat := by
  have bound : dec < 10 ↔ dec.toNat < 10 := UInt32.lt_iff_toNat_lt
  rw [decimal, twoDigits]
  by_cases digit : dec.toNat < 10
  · rw [if_pos (bound.mpr digit), Nat.toDigits_of_lt_base digit, Nat.div_eq_of_lt digit,
      Nat.mod_eq_of_lt digit]
    rfl
  · rw [if_neg (fun low => digit (bound.mp low)),
      Nat.toDigits_of_base_le (by decide) (by omega), Nat.toDigits_of_lt_base (by omega)]
    rfl

theorem digitChar_inj : ∀ m < 10, ∀ n < 10, Nat.digitChar m = Nat.digitChar n → m = n := by
  decide

theorem twoDigits_inj {m n : Nat} (hm : m < 100) (hn : n < 100)
    (same : twoDigits m = twoDigits n) : m = n := by
  obtain ⟨tens, units, -⟩ := by simpa only [twoDigits, List.cons.injEq] using same
  have tens := digitChar_inj _ (by omega) _ (by omega) tens
  have units := digitChar_inj _ (by omega) _ (by omega) units
  omega

theorem exact_dec_lt (value : Nat) {divisor : Nat} (pos : 0 < divisor) :
    value % divisor * 100 / divisor < 100 := by
  apply Nat.div_lt_of_lt_mul
  have rest := Nat.mod_lt value pos
  omega

/-- The fraction computed in 32 bits. -/
theorem toNat_dec (value divisor : UInt32) :
    (value % divisor * 100 / divisor).toNat =
      value.toNat % divisor.toNat * 100 % 2 ^ 32 / divisor.toNat := by
  rw [UInt32.toNat_div, UInt32.toNat_mul, UInt32.toNat_mod]
  rfl

theorem quotientText_inj {r m n : Nat} {unit : CString} (hm : m < 100) (hn : n < 100)
    (same : quotientText r m unit = quotientText r n unit) : m = n := by
  simp only [quotientText, List.append_cancel_right_eq, List.append_cancel_left_eq] at same
  exact twoDigits_inj hm hn same

/-- A quotient survives the wrap of its dividend only where there is none. -/
theorem mod_div_eq_div_iff {n d word : Nat} (pos : 0 < d) (narrow : d ≤ word) :
    n % word / d = n / d ↔ n < word := by
  refine ⟨?_, fun small => by rw [Nat.mod_eq_of_lt small]⟩
  intro same
  apply Nat.lt_of_not_le
  intro wide
  have wrapped : n % word ≤ n - d := by
    rw [Nat.mod_eq_sub_mod wide]
    exact Nat.le_trans (Nat.mod_le _ _) (Nat.sub_le_sub_left narrow n)
  have less : n / d = (n - d) / d + 1 := Nat.div_eq_sub_div pos (Nat.le_trans narrow wide)
  have below := @Nat.div_le_div_right _ _ d wrapped
  omega

/-- The scan stops in a table that has an entry 0. -/
theorem scanUnits_stops (value : UInt32) {units : List (UInt32 × CString)} {last : CString}
    (ends : (0, last) ∈ units) :
    ∃ divisor unit, scanUnits value units = some (divisor, unit) ∧
      (divisor, unit) ∈ units ∧ divisor ≤ value := by
  induction units with
  | nil => cases ends
  | cons entry units ih =>
      obtain ⟨divisor, unit⟩ := entry
      simp only [scanUnits]
      by_cases less : value < divisor
      · have later : (0, last) ∈ units := by
          cases ends with
          | head => exact absurd less (by simp)
          | tail _ later => exact later
        obtain ⟨d, u, found, inside, low⟩ := ih later
        exact ⟨d, u, by rw [if_pos less, found], List.mem_cons_of_mem _ inside, low⟩
      · exact ⟨divisor, unit, by rw [if_neg less], List.mem_cons_self, UInt32.not_lt.mp less⟩

theorem printNumber_of_scan {value divisor : UInt32} {units : List (UInt32 × CString)}
    {unit : CString} (found : scanUnits value units = some (divisor, unit))
    (nonzero : divisor ≠ 0) (small : (value % divisor * 100 / divisor).toNat < 100) :
    printNumber value units = some (quotientText (value.toNat / divisor.toNat)
      (value % divisor * 100 / divisor).toNat unit) := by
  have digits := padded_eq_twoDigits small
  have radix : decimal (value / divisor) = Nat.toDigits 10 (value.toNat / divisor.toNat) := by
    rw [decimal, UInt32.toNat_div]
  simp only [printNumber, found, Option.map_some, if_pos nonzero, quotientText, ← digits,
    ← radix, List.append_assoc]

theorem printsTrue_iff_of_scan {value divisor : UInt32} {units : List (UInt32 × CString)}
    {unit : CString} (found : scanUnits value units = some (divisor, unit)) :
    PrintsTrue value units divisor unit ↔
      divisor = 0 ∨ value.toNat % divisor.toNat * 100 < 2 ^ 32 := by
  by_cases zero : divisor = 0
  · refine iff_of_true ?_ (.inl zero)
    rw [PrintsTrue, if_pos zero, printNumber, found, Option.map_some]
    simp only [zero, ne_eq, not_true_eq_false, if_false]
  · have pos : 0 < divisor.toNat := Nat.pos_of_ne_zero fun none => zero (UInt32.toNat_inj.mp none)
    have ideal := exact_dec_lt value.toNat pos
    have computed := toNat_dec value divisor
    have cut := @Nat.div_le_div_right _ _ divisor.toNat
      (Nat.mod_le (value.toNat % divisor.toNat * 100) (2 ^ 32))
    have small : (value % divisor * 100 / divisor).toNat < 100 := by omega
    have narrow : divisor.toNat ≤ 2 ^ 32 := Nat.le_of_lt divisor.toNat_lt
    rw [PrintsTrue, if_neg zero, printNumber_of_scan found zero small, Option.some_inj,
      or_iff_right zero, ← mod_div_eq_div_iff pos narrow, ← computed]
    refine ⟨fun same => quotientText_inj small ideal same.1, fun same => ⟨?_, ideal⟩⟩
    rw [same, exactText]

/-- The remainders of a small divisor fit. -/
theorem remainder_fits (value : Nat) {divisor : Nat} (pos : 0 < divisor)
    (small : divisor ≤ 42949672) : value % divisor * 100 < 2 ^ 32 := by
  have rest := Nat.mod_lt value pos
  omega

theorem printsTrue_of_small {value : UInt32} {units : List (UInt32 × CString)} {last : CString}
    (ends : (0, last) ∈ units) (small : ∀ entry ∈ units, entry.1.toNat ≤ 42949672) :
    ∃ divisor unit, scanUnits value units = some (divisor, unit) ∧
      PrintsTrue value units divisor unit := by
  obtain ⟨divisor, unit, found, inside, -⟩ := scanUnits_stops value ends
  refine ⟨divisor, unit, found, (printsTrue_iff_of_scan found).mpr ?_⟩
  by_cases zero : divisor = 0
  · exact .inl zero
  · have pos : 0 < divisor.toNat := Nat.pos_of_ne_zero fun none => zero (UInt32.toNat_inj.mp none)
    exact .inr (remainder_fits value.toNat pos (small _ inside))

/-- Below a minute the scan is that of the rest of `TIME_US`. -/
theorem printsTrue_below_minute {value : UInt32} (below : value.toNat < 60000000) :
    ∃ divisor unit, scanUnits value timeUsUnits = some (divisor, unit) ∧
      PrintsTrue value timeUsUnits divisor unit := by
  have skip : scanUnits value timeUsUnits =
      scanUnits value [(1000 * 1000, ['s']), (1000, ['m', 's']), (0, ['u', 's'])] :=
    if_pos (UInt32.lt_iff_toNat_lt.mpr below)
  obtain ⟨divisor, unit, found, exact⟩ := @printsTrue_of_small value
    [(1000 * 1000, ['s']), (1000, ['m', 's']), (0, ['u', 's'])] ['u', 's']
    (by decide) (by decide)
  refine ⟨divisor, unit, skip.trans found, ?_⟩
  simpa only [PrintsTrue, printNumber, skip] using exact

/-- In every table the scan stops, and the text is right unless the value is a long minute. -/
theorem printsTrue_iff (table : PrintTable) (value : UInt32) :
    ∃ divisor unit, scanUnits value table.units = some (divisor, unit) ∧
      (PrintsTrue value table.units divisor unit ↔ ¬LongMinute table value) := by
  cases table with
  | kbps =>
      obtain ⟨divisor, unit, found, exact⟩ := @printsTrue_of_small value kbpsUnits _
        (List.mem_cons_of_mem _ List.mem_cons_self) (by decide)
      exact ⟨divisor, unit, found, iff_of_true exact fun long => nomatch long.1⟩
  | k =>
      obtain ⟨divisor, unit, found, exact⟩ := @printsTrue_of_small value kUnits []
        (by decide) (by decide)
      exact ⟨divisor, unit, found, iff_of_true exact fun long => nomatch long.1⟩
  | timeUs =>
      by_cases below : value.toNat < 60000000
      · obtain ⟨divisor, unit, found, exact⟩ := printsTrue_below_minute below
        refine ⟨divisor, unit, found, iff_of_true exact ?_⟩
        intro long
        exact Nat.not_le_of_lt below long.2.1
      · have found : scanUnits value timeUsUnits = some (60 * 1000 * 1000, ['m']) :=
          if_neg fun less => below (UInt32.lt_iff_toNat_lt.mp less)
        refine ⟨_, _, found, (printsTrue_iff_of_scan found).trans ?_⟩
        have minute : (60 * 1000 * 1000 : UInt32).toNat = 60000000 := rfl
        rw [or_iff_right (by decide), minute]
        simp only [LongMinute, true_and]
        omega

/-- One minute and 42.949673 seconds: shown as one minute. -/
theorem not_printsTrue : ¬ ∀ (table : PrintTable) (value : UInt32),
    ∃ divisor unit, scanUnits value table.units = some (divisor, unit) ∧
      PrintsTrue value table.units divisor unit := by
  intro prints
  obtain ⟨divisor, unit, found, exact⟩ := prints .timeUs 102949673
  have entry : scanUnits 102949673 PrintTable.timeUs.units = some (60000000, ['m']) := by decide
  obtain ⟨rfl, rfl⟩ := Prod.mk.inj (Option.some.inj (entry.symm.trans found))
  exact absurd exact.1 (by decide)

end Zperf
