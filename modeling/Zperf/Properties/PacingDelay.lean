import Zperf.Properties.PacedUpload

/-!
The size of the delay of `udp_upload`.

The sum of the old delay and the adjustment is formed out of a signed and an unsigned
number. It does not wrap around, because the sleep of the iteration before takes as long
as its delay: what the adjustment adds to a delay, the time slept takes off again.
-/

namespace Zperf

open Base

/-- The tick count read last before an iteration: in the iteration before it, or at the
start. -/
def readingBefore (start : UInt32) (past : List Turn) : UInt32 :=
  (past.getLast?.map Turn.tick).getD start

/-- The clock does not go back, and shows less than `2 ^ 31` ticks more. -/
def ClockSteady (start : UInt32) (past : List Turn) (_ : UploadLoop) (t : Turn) : Prop :=
  (readingBefore start past).toNat ≤ t.tick.toNat ∧
    t.tick.toNat < (readingBefore start past).toNat + 2 ^ 31

/-- The delay that an iteration sets, as the integers have it. -/
structure DelayExact (c : UploadConfig) (start : UInt32) (past : List Turn) (s : UploadLoop)
    (t : Turn) : Prop where
  moved : (readingBefore start past).toNat < t.tick.toNat →
    ((nextLoop c s t.tick).delay.toNat : Int) =
      max 0 ((s.delay.toNat : Int) + c.packetDuration.toNat -
        (t.tick.toNat - (readingBefore start past).toNat))
  stood : t.tick.toNat = (readingBefore start past).toNat →
    (nextLoop c s t.tick).delay = s.delay
  bounded : (nextLoop c s t.tick).delay.toNat ≤
    if past = [] then 2 * c.packetDuration.toNat else c.packetDuration.toNat

instance (start : UInt32) (past : List Turn) (s : UploadLoop) (t : Turn) :
    Decidable (ClockSteady start past s t) :=
  inferInstanceAs (Decidable (_ ∧ _))

theorem readingBefore_append (start : UInt32) (past : List Turn) (t : Turn) :
    readingBefore start (past ++ [t]) = t.tick := by
  simp [readingBefore]

/-- The comparison `-adjust < delay` and the sum are those of the integers. -/
theorem adjustDelay_exact {duration delay a b : UInt32} (short : duration.toNat < 2 ^ 30)
    (small : delay.toNat ≤ 2 * duration.toNat) (moves : a.toNat < b.toNat)
    (near : b.toNat < a.toNat + 2 ^ 31) :
    (adjustDelay delay (adjustment duration (kUptimeTicks a) (kUptimeTicks b))).toNat =
      delay.toNat + duration.toNat - (b.toNat - a.toNat) := by
  rw [toNat_adjustDelay moves rfl]
  split <;> omega

theorem adjustDelay_same (duration delay a : UInt32) :
    adjustDelay delay (adjustment duration (kUptimeTicks a) (kUptimeTicks a)) = delay := by
  have zero : Int32.toUInt32 0 = 0 := rfl
  rw [adjustment_eq, if_pos rfl]
  simp [adjustDelay, zero]

/-- What the loop variables say of the readings so far: twice the packet duration bounds
every delay, for the sleep leaves at most one on top of the new one. -/
structure DelayBounded (c : UploadConfig) (start : UInt32) (past : List Turn)
    (s : UploadLoop) : Prop where
  reading : s.lastLoopTime = kUptimeTicks (readingBefore start past)
  bounded : s.delay.toNat ≤ 2 * c.packetDuration.toNat
  fresh : past = [] → s.delay = c.packetDuration

theorem DelayBounded.exact {c : UploadConfig} {start : UInt32} {past : List Turn}
    {s : UploadLoop} {t : Turn} (h : DelayBounded c start past s)
    (short : c.packetDuration.toNat < 2 ^ 30) (steady : ClockSteady start past s t)
    (slept : Slept past s t) : DelayExact c start past s t := by
  have delay : (nextLoop c s t.tick).delay =
      adjustDelay s.delay (adjustment c.packetDuration
        (kUptimeTicks (readingBefore start past)) (kUptimeTicks t.tick)) := by
    rw [← h.reading]
    rfl
  have sum (moves : (readingBefore start past).toNat < t.tick.toNat) :
      (nextLoop c s t.tick).delay.toNat = s.delay.toNat + c.packetDuration.toNat -
        (t.tick.toNat - (readingBefore start past).toNat) := by
    rw [delay]
    exact adjustDelay_exact short h.bounded moves steady.2
  have same (stood : t.tick.toNat = (readingBefore start past).toNat) :
      (nextLoop c s t.tick).delay = s.delay := by
    rw [delay, UInt32.toNat_inj.mp stood, adjustDelay_same]
  refine ⟨?_, same, ?_⟩
  · intro moves
    rw [sum moves]
    omega
  · have back := steady.1
    by_cases first : past = []
    · rw [if_pos first]
      have fresh := congrArg UInt32.toNat (h.fresh first)
      by_cases moves : (readingBefore start past).toNat < t.tick.toNat
      · rw [sum moves]
        omega
      · rw [same (by omega)]
        omega
    · rw [if_neg first]
      have lasted : (readingBefore start past).toNat + s.delay.toNat ≤ t.tick.toNat := by
        cases past using List.reverseRecOn with
        | nil => exact absurd rfl first
        | append_singleton past last =>
            rw [readingBefore_append]
            exact slept last (by simp)
      by_cases moves : (readingBefore start past).toNat < t.tick.toNat
      · rw [sum moves]
        omega
      · rw [same (by omega)]
        omega

theorem DelayExact.next {c : UploadConfig} {start : UInt32} {past : List Turn}
    {s : UploadLoop} {t : Turn} (h : DelayExact c start past s t) :
    DelayBounded c start (past ++ [t]) (nextLoop c s t.tick) where
  reading := by
    rw [readingBefore_append]
    rfl
  bounded := by
    have bounded := h.bounded
    split at bounded <;> omega
  fresh := fun empty => absurd empty (by simp)

theorem startUpload_bounded {hz : UInt64}
    {port durationInMs packetSize rateInKbps start : UInt32} {c : UploadConfig}
    {s : UploadLoop}
    (started : startUpload hz port durationInMs packetSize rateInKbps start = some (c, s)) :
    DelayBounded c start [] s := by
  obtain ⟨-, -, rfl⟩ := startUpload_started started
  refine ⟨rfl, ?_, fun _ => rfl⟩
  dsimp only
  omega

/-- Every iteration sets the delay that the integers give, at most twice the packet
duration in the first and at most the packet duration in the later ones. -/
theorem delays_exact (hz : UInt64) (port durationInMs packetSize rateInKbps start : UInt32)
    (c : UploadConfig) (s : UploadLoop) (turns : List Turn)
    (started : startUpload hz port durationInMs packetSize rateInKbps start = some (c, s))
    (short : c.packetDuration.toNat < 2 ^ 30)
    (steady : (udpUploader hz c).Along (ClockSteady start) [] s turns)
    (slept : (udpUploader hz c).Along Slept [] s turns) :
    (udpUploader hz c).Along (DelayExact c start) [] s turns := by
  apply Machine.Along.of_invariant (DelayBounded c start) _ _ (startUpload_bounded started)
    (steady.and slept)
  · intro past s t out s' bounded ok step
    obtain rfl := udpUploader_next step
    exact (bounded.exact short ok.1 ok.2).next
  · intro past s t bounded ok
    exact bounded.exact short ok.1 ok.2

/-- A first reading that comes late, and a second that is not. -/
theorem delays_exact_two :
    ∃ c s, startUpload 1000 5001 1000 256 10 10 = some (c, s) ∧
      (udpUploader 1000 c).Along (DelayExact c 10) [] s [⟨20, true⟩, ⟨420, true⟩] :=
  ⟨_, _, rfl, delays_exact 1000 5001 1000 256 10 10 _ _ _ rfl (by decide +kernel)
    (by decide +kernel) (by decide +kernel)⟩

end Zperf
