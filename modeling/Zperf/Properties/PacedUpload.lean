import Zperf.Base.Wrap
import Zperf.Core.UdpUploader

/-!
The pace of `udp_upload`.

The delay is a feedback variable: each iteration adds what is left of the packet
duration, and sleeps for the sum. The reading of an iteration and its delay together
grow by the packet duration, as long as the clock moves in every iteration: one within
the same tick is taken for the first and adds nothing.
-/

namespace Zperf

open Base

theorem kUptimeTicks_inj {a b : UInt32} : kUptimeTicks a = kUptimeTicks b ↔ a = b := by
  refine ⟨fun h => ?_, congrArg kUptimeTicks⟩
  have words : a.toUInt64 = b.toUInt64 := congrArg Int64.toUInt64 h
  apply UInt32.toNat_inj.mp
  have numbers := congrArg UInt64.toNat words
  rwa [UInt32.toNat_toUInt64, UInt32.toNat_toUInt64] at numbers

theorem toInt32_elapsed (a b : UInt32) :
    (kUptimeTicks b - kUptimeTicks a).toInt32 = (b - a).toInt32 := by
  have word (x : UInt32) : (kUptimeTicks x).toInt32 = x.toInt32 := by
    apply Int32.toBitVec.inj
    have low : (kUptimeTicks x).toInt32.toBitVec =
      (x.toBitVec.setWidth 64).signExtend 32 := rfl
    rw [low, BitVec.signExtend_eq_setWidth_of_le _ (by decide),
      BitVec.setWidth_setWidth_of_le _ (by decide), BitVec.setWidth_eq]
    rfl
  rw [Int64.toInt32_sub, word, word, UInt32.toInt32_sub]

theorem adjustment_eq (duration a b : UInt32) :
    adjustment duration (kUptimeTicks a) (kUptimeTicks b) =
      if a = b then 0 else (duration - (b - a)).toInt32 := by
  unfold adjustment
  by_cases same : a = b
  · simp [same]
  · rw [if_pos (fun h => same (kUptimeTicks_inj.mp h)), if_neg same, toInt32_elapsed,
      UInt32.toInt32_sub duration]

theorem adjustDelay_eq (delay adjust : UInt32) :
    adjustDelay delay adjust.toInt32 =
      if adjust.toNat < 2 ^ 31 ∨ -adjust < delay then delay + adjust else 0 := by
  have word : (-adjust.toInt32).toUInt32 = -adjust := by
    rw [← UInt32.toInt32_neg, UInt32.toUInt32_toInt32]
  simp only [adjustDelay, word, ge_iff_le, toInt32_nonneg_iff, UInt32.toUInt32_toInt32]

/-- The delay after the clock has moved, in words of 32 bits. -/
theorem toNat_adjustDelay {duration delay a b : UInt32} (moves : a.toNat < b.toNat) {word : Nat}
    (adjust : (2 ^ 32 - (b.toNat - a.toNat) + duration.toNat) % 2 ^ 32 = word) :
    (adjustDelay delay (adjustment duration (kUptimeTicks a) (kUptimeTicks b))).toNat =
      if word < 2 ^ 31 ∨ (2 ^ 32 - word) % 2 ^ 32 < delay.toNat then (delay.toNat + word) % 2 ^ 32
      else 0 := by
  have ne : a ≠ b := fun h => by simp [h] at moves
  have elapsed : (b - a).toNat = b.toNat - a.toNat :=
    UInt32.toNat_sub_of_le _ _ (UInt32.le_iff_toNat_le.mpr moves.le)
  have value : (duration - (b - a)).toNat = word := by rw [UInt32.toNat_sub, elapsed, adjust]
  have negated : (-(duration - (b - a))).toNat = (2 ^ 32 - word) % 2 ^ 32 :=
    value ▸ UInt32.toNat_neg _
  rw [adjustment_eq, if_neg ne, adjustDelay_eq]
  simp only [UInt32.lt_iff_toNat_lt, negated, value]
  split
  · rw [UInt32.toNat_add, value]
  · rfl

theorem adjustDelay_ge {duration delay a b : UInt32} (moves : a.toNat < b.toNat)
    (slept : a.toNat + delay.toNat ≤ b.toNat)
    (near : duration.toNat < b.toNat - a.toNat + 2 ^ 31) :
    delay.toNat + duration.toNat ≤
      (adjustDelay delay (adjustment duration (kUptimeTicks a) (kUptimeTicks b))).toNat +
        (b.toNat - a.toNat) := by
  have bound := b.toNat_lt
  have durationBound := duration.toNat_lt
  rw [toNat_adjustDelay moves rfl]
  split <;> omega

/-- The sleep of the iteration before has lasted for its delay, and the clock has not
gone back. -/
def Slept (past : List Turn) (s : UploadLoop) (t : Turn) : Prop :=
  ∀ last ∈ past.getLast?, last.tick.toNat + s.delay.toNat ≤ t.tick.toNat

/-- The clock has moved since the iteration before, and not so little that the packet
duration exceeds the time by `2 ^ 31` ticks. -/
def ClockMoved (c : UploadConfig) (past : List Turn) (_ : UploadLoop) (t : Turn) : Prop :=
  ∀ last ∈ past.getLast?, last.tick.toNat < t.tick.toNat ∧
    c.packetDuration.toNat < t.tick.toNat - last.tick.toNat + 2 ^ 31

instance (past : List Turn) (s : UploadLoop) (t : Turn) : Decidable (Slept past s t) :=
  inferInstanceAs (Decidable (∀ _ ∈ _, _))

instance (c : UploadConfig) (past : List Turn) (s : UploadLoop) (t : Turn) :
    Decidable (ClockMoved c past s t) :=
  inferInstanceAs (Decidable (∀ _ ∈ _, _))

/-- What the loop variables say of the readings so far. -/
structure Paced (c : UploadConfig) (first last : Turn) (n : Nat) (s : UploadLoop) : Prop where
  reading : s.lastLoopTime = kUptimeTicks last.tick
  ahead : first.tick.toNat + n * c.packetDuration.toNat ≤ last.tick.toNat + s.delay.toNat
  behind : first.tick.toNat + (n - 1) * c.packetDuration.toNat ≤ last.tick.toNat

theorem Paced.start (c : UploadConfig) (s : UploadLoop) (t : Turn) :
    Paced c t t 0 (nextLoop c s t.tick) where
  reading := rfl
  ahead := by omega
  behind := by omega

theorem Paced.next {c : UploadConfig} {first last t : Turn} {n : Nat} {s : UploadLoop}
    (h : Paced c first last n s) (slept : last.tick.toNat + s.delay.toNat ≤ t.tick.toNat)
    (moves : last.tick.toNat < t.tick.toNat)
    (near : c.packetDuration.toNat < t.tick.toNat - last.tick.toNat + 2 ^ 31) :
    Paced c first t (n + 1) (nextLoop c s t.tick) := by
  have gain := adjustDelay_ge moves slept near
  have delay : (nextLoop c s t.tick).delay =
      adjustDelay s.delay (adjustment c.packetDuration (kUptimeTicks last.tick)
        (kUptimeTicks t.tick)) := by
    rw [← h.reading]
    rfl
  have ahead := h.ahead
  refine ⟨rfl, ?_, ?_⟩
  · rw [delay, Nat.add_mul, Nat.one_mul]
    omega
  · rw [Nat.add_sub_cancel]
    omega

def PacedRun (c : UploadConfig) (past : List Turn) (s : UploadLoop) : Prop :=
  ∀ first ∈ past.head?, ∃ last ∈ past.getLast?, Paced c first last (past.length - 1) s

theorem PacedRun.step {c : UploadConfig} {past : List Turn} {s : UploadLoop} {t : Turn}
    (h : PacedRun c past s) (slept : Slept past s t) (moved : ClockMoved c past s t) :
    PacedRun c (past ++ [t]) (nextLoop c s t.tick) := by
  intro first hfirst
  cases past using List.reverseRecOn with
  | nil =>
      obtain rfl : t = first := by simpa using hfirst
      exact ⟨t, by simp, Paced.start c s t⟩
  | append_singleton past last =>
      have before : first ∈ (past ++ [last]).head? := by
        cases past with
        | nil => simpa using hfirst
        | cons _ _ => simpa using hfirst
      obtain ⟨last', hlast, paced⟩ := h first before
      obtain rfl : last = last' := by simpa using hlast
      have moves := moved last (by simp)
      have next := paced.next (slept last (by simp)) moves.1 moves.2
      exact ⟨t, by simp, by simpa using next⟩

/-- The `n`-th reading of a run comes at least `n - 2` packet durations after the
first, if the clock moves from the second iteration on. -/
theorem upload_paced (hz : UInt64) (c : UploadConfig) (s s' : UploadLoop) (turns : List Turn)
    (out : List UploadEvent) (first last : Turn)
    (run : (udpUploader hz c).Reaches s turns out s')
    (slept : (udpUploader hz c).Along Slept [] s turns)
    (moved : (udpUploader hz c).Along (ClockMoved c) [] s turns)
    (head : turns.head? = some first) (final : turns.getLast? = some last) :
    first.tick.toNat + (turns.length - 2) * c.packetDuration.toNat ≤ last.tick.toNat := by
  have paced : PacedRun c turns s' := by
    apply Machine.Reaches.history_along (PacedRun c) _ _ (slept.and moved) run
    · intro past s t _ s' paced ok step
      obtain rfl := udpUploader_next step
      exact paced.step ok.1 ok.2
    · intro first hfirst
      simp at hfirst
  obtain ⟨last', hlast, paced⟩ := paced first (by simpa using head)
  obtain rfl : last = last' := by simpa [final] using hlast
  exact paced.behind

/-- Ten ticks for each packet. -/
def tenTicks : UploadConfig := ⟨5001, 12, 10, 10, 1000⟩

theorem upload_paced_three :
    ∃ out s', (udpUploader 1000 tenTicks).Reaches ⟨10, 0, 0, true⟩
      [⟨20, true⟩, ⟨25, true⟩, ⟨30, true⟩] out s' ∧
      (20 : UInt32).toNat + (3 - 2) * tenTicks.packetDuration.toNat ≤ (30 : UInt32).toNat := by
  have run := (udpUploader 1000 tenTicks).reaches_of_isSome ⟨10, 0, 0, true⟩
    [⟨20, true⟩, ⟨25, true⟩, ⟨30, true⟩] (by decide +kernel)
  exact ⟨_, _, run, upload_paced 1000 tenTicks _ _ _ _ ⟨20, true⟩ ⟨30, true⟩ run
    (by decide +kernel) (by decide +kernel) rfl rfl⟩

/-- After a late first iteration, two more within the same tick. -/
theorem same_tick_iterations_outrun_rate :
    ∃ out s', (udpUploader 1000 tenTicks).Reaches ⟨10, 0, 0, true⟩
      [⟨20, true⟩, ⟨20, true⟩, ⟨20, true⟩] out s' ∧
      (udpUploader 1000 tenTicks).Along Slept [] ⟨10, 0, 0, true⟩
        [⟨20, true⟩, ⟨20, true⟩, ⟨20, true⟩] ∧
      ¬ (20 : UInt32).toNat + (3 - 2) * tenTicks.packetDuration.toNat ≤ (20 : UInt32).toNat := by
  have run := (udpUploader 1000 tenTicks).reaches_of_isSome ⟨10, 0, 0, true⟩
    [⟨20, true⟩, ⟨20, true⟩, ⟨20, true⟩] (by decide +kernel)
  exact ⟨_, _, run, by decide +kernel, by decide⟩

end Zperf
