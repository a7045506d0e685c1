import Zperf.Core.UdpUploader

/-!
The time stamps of the data datagrams and of the end datagram.

They are computed along different paths, through 64-bit microseconds and through
32-bit milli- and microseconds. Both are the whole seconds and the microseconds
of the tick count, and the receiver puts them together again.
-/

namespace Zperf

theorem toNat_usecPerSec : usecPerSec.toNat = 1000000 := rfl

theorem toUInt64_kUptimeTicks (tick : UInt32) :
    (kUptimeTicks tick).toUInt64 = tick.toUInt64 := rfl

theorem ticksArg_kUptimeTicks (tick : UInt32) : ticksArg (kUptimeTicks tick) = tick := by
  rw [ticksArg, toUInt64_kUptimeTicks, UInt32.toUInt32_toUInt64]

theorem ticks_mul_usec_lt (tick : UInt32) : tick.toNat * 1000000 < 2 ^ 64 := by
  have bound := tick.toNat_lt
  omega

theorem toNat_kTicksToUsFloor64 (hz : UInt64) (tick : UInt32) :
    (kTicksToUsFloor64 hz tick.toUInt64).toNat = tick.toNat * 1000000 / hz.toNat := by
  rw [kTicksToUsFloor64, kTicksToUsCeil64, UInt64.toNat_div, UInt64.toNat_mul,
    UInt32.toNat_toUInt64, UInt32.toNat_toUInt64, toNat_usecPerSec,
    Nat.mod_eq_of_lt (ticks_mul_usec_lt tick)]

theorem toNat_kTicksToUsCeil32 (hz : UInt64) (tick : UInt32) :
    (kTicksToUsCeil32 hz tick).toNat = tick.toNat * 1000000 / hz.toNat % 2 ^ 32 := by
  rw [kTicksToUsCeil32, UInt64.toNat_toUInt32, UInt64.toNat_div, UInt64.toNat_mul,
    UInt32.toNat_toUInt64, UInt32.toNat_toUInt64, toNat_usecPerSec,
    Nat.mod_eq_of_lt (ticks_mul_usec_lt tick)]

theorem toNat_kTicksToMsCeil32 (hz : UInt64) (tick : UInt32) (low : 1000 ≤ hz.toNat) :
    (kTicksToMsCeil32 hz tick).toNat = tick.toNat * 1000 / hz.toNat := by
  have bound := tick.toNat_lt
  have small : tick.toNat * 1000 / hz.toNat < 2 ^ 32 := by
    refine Nat.lt_of_le_of_lt ?_ bound
    exact Nat.div_le_of_le_mul (by rw [Nat.mul_comm]; exact Nat.mul_le_mul_right _ low)
  rw [kTicksToMsCeil32, UInt64.toNat_toUInt32, UInt64.toNat_div, UInt64.toNat_mul,
    UInt32.toNat_toUInt64, UInt32.toNat_toUInt64,
    show usecPerMsec.toNat = 1000 from rfl, Nat.mod_eq_of_lt (a := tick.toNat * 1000) (by omega),
    Nat.mod_eq_of_lt small]

theorem ticks_div_seconds (ticks hz unit : Nat) (h : 0 < unit) :
    ticks * unit / hz / unit = ticks / hz := by
  rw [Nat.div_div_eq_div_mul, Nat.mul_div_mul_right _ _ h]

/-- The microseconds since the start, and their split. -/
def usecsOf (hz : UInt64) (tick : UInt32) : Nat := tick.toNat * 1000000 / hz.toNat

theorem seconds_lt (hz : UInt64) (tick : UInt32) : usecsOf hz tick / 1000000 < 2 ^ 32 := by
  rw [usecsOf, ticks_div_seconds _ _ _ (by decide)]
  exact Nat.lt_of_le_of_lt (Nat.div_le_self _ _) tick.toNat_lt

theorem toNat_dataHdr (hz : UInt64) (n tick : UInt32) :
    (dataHdr hz n (kUptimeTicks tick)).tvSec.toNat = usecsOf hz tick / 1000000 ∧
      (dataHdr hz n (kUptimeTicks tick)).tvUsec.toNat = usecsOf hz tick % 1000000 := by
  have small := seconds_lt hz tick
  have seconds : (dataHdr hz n (kUptimeTicks tick)).tvSec.toNat =
      usecsOf hz tick / 1000000 := by
    simp only [dataHdr, toUInt64_kUptimeTicks, UInt64.toNat_toUInt32, UInt64.toNat_div,
      toNat_kTicksToUsFloor64, UInt32.toNat_toUInt64, toNat_usecPerSec]
    exact Nat.mod_eq_of_lt small
  refine ⟨seconds, ?_⟩
  have whole : usecsOf hz tick < 2 ^ 64 :=
    Nat.lt_of_le_of_lt (Nat.div_le_self _ _) (ticks_mul_usec_lt tick)
  have micro : (dataHdr hz n (kUptimeTicks tick)).tvUsec =
      (kTicksToUsFloor64 hz tick.toUInt64 -
        (dataHdr hz n (kUptimeTicks tick)).tvSec.toUInt64 * usecPerSec.toUInt64).toUInt32 := rfl
  rw [micro, UInt64.toNat_toUInt32, UInt64.toNat_sub, UInt64.toNat_mul, UInt32.toNat_toUInt64,
    UInt32.toNat_toUInt64, toNat_usecPerSec, seconds, toNat_kTicksToUsFloor64, ← usecsOf]
  omega

theorem toNat_finHdr (hz : UInt64) (n tick : UInt32) (low : 1000 ≤ hz.toNat) :
    (finHdr hz n (kUptimeTicks tick).toUInt64).tvSec.toNat = usecsOf hz tick / 1000000 ∧
      (finHdr hz n (kUptimeTicks tick).toUInt64).tvUsec.toNat = usecsOf hz tick % 1000000 := by
  have seconds : (finHdr hz n (kUptimeTicks tick).toUInt64).tvSec.toNat =
      usecsOf hz tick / 1000000 := by
    simp only [finHdr, toUInt64_kUptimeTicks, UInt32.toUInt32_toUInt64, UInt32.toNat_div,
      toNat_kTicksToMsCeil32 hz tick low, UInt32.reduceToNat, usecsOf]
    rw [ticks_div_seconds _ _ _ (by decide), ticks_div_seconds _ _ _ (by decide)]
  refine ⟨seconds, ?_⟩
  have micro : (finHdr hz n (kUptimeTicks tick).toUInt64).tvUsec =
      kTicksToUsCeil32 hz (kUptimeTicks tick).toUInt64.toUInt32 -
        (finHdr hz n (kUptimeTicks tick).toUInt64).tvSec * usecPerSec := rfl
  rw [micro, UInt32.toNat_sub, UInt32.toNat_mul, toNat_usecPerSec, seconds,
    toUInt64_kUptimeTicks, UInt32.toUInt32_toUInt64, toNat_kTicksToUsCeil32, ← usecsOf]
  omega

/-- Data header, end header and receiver agree on the time of a tick count. -/
theorem timestamps_agree (hz : UInt64) (t n m : UInt32) (low : 1000 ≤ hz.toNat) :
    (dataHdr hz n (kUptimeTicks t)).tvSec = (finHdr hz m (kUptimeTicks t).toUInt64).tvSec ∧
    (dataHdr hz n (kUptimeTicks t)).tvUsec = (finHdr hz m (kUptimeTicks t).toUInt64).tvUsec ∧
    (dataHdr hz n (kUptimeTicks t)).tvUsec.toNat < 1000000 ∧
    (dataHdr hz n (kUptimeTicks t)).tvSec.toNat * 1000000 +
      (dataHdr hz n (kUptimeTicks t)).tvUsec.toNat = t.toNat * 1000000 / hz.toNat ∧
    (dataHdr hz n (kUptimeTicks t)).tvSec * usecPerSec +
      (dataHdr hz n (kUptimeTicks t)).tvUsec =
        kTicksToUsCeil32 hz (ticksArg (kUptimeTicks t)) ∧
    (kTicksToUsFloor64 hz (kUptimeTicks t).toUInt64).toNat = t.toNat * 1000000 / hz.toNat ∧
    t.toNat * 1000000 < 2 ^ 64 := by
  obtain ⟨dataSec, dataUsec⟩ := toNat_dataHdr hz n t
  obtain ⟨finSec, finUsec⟩ := toNat_finHdr hz m t low
  refine ⟨UInt32.toNat_inj.mp (dataSec.trans finSec.symm),
    UInt32.toNat_inj.mp (dataUsec.trans finUsec.symm), ?_, ?_, ?_, ?_, ticks_mul_usec_lt t⟩
  · rw [dataUsec]
    exact Nat.mod_lt _ (by decide)
  · rw [dataSec, dataUsec, Nat.div_add_mod', usecsOf]
  · apply UInt32.toNat_inj.mp
    rw [UInt32.toNat_add, UInt32.toNat_mul, toNat_usecPerSec, dataSec, dataUsec,
      ticksArg_kUptimeTicks, toNat_kTicksToUsCeil32, ← usecsOf, Nat.mod_add_mod,
      Nat.div_add_mod']
  · rw [toUInt64_kUptimeTicks, toNat_kTicksToUsFloor64]

/-- At 1000 ticks a second, an hour and a half after the start. -/
theorem timestamps_agree_after_wrap :
    (dataHdr 1000 3 (kUptimeTicks 5400000)).tvSec * usecPerSec +
      (dataHdr 1000 3 (kUptimeTicks 5400000)).tvUsec =
        kTicksToUsCeil32 1000 (ticksArg (kUptimeTicks 5400000)) :=
  (timestamps_agree 1000 5400000 3 4 (by decide)).2.2.2.2.1

end Zperf
