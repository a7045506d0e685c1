import Mathlib.Algebra.Order.Group.Nat
import Zperf.Base.Schedule
import Zperf.Properties.LosslessUpload
import Zperf.Properties.PacingDelay
import Zperf.Properties.UploadDuration

/-!
The schedule that the delay of `udp_upload` keeps.

A reading and the delay set after it are the time of the next iteration. These times are
a periodic schedule: one that is met to within a packet duration does not drift, so the
number of datagrams follows from the duration of the upload; lost time is not made up.
-/

namespace Zperf

open Base

/-- The readings that differ from the reading before, the first from `last`. -/
def newReadings : UInt32 → List Turn → List Nat
  | _, [] => []
  | last, t :: turns =>
      if t.tick = last then newReadings last turns
      else t.tick.toNat :: newReadings t.tick turns

/-- When the iteration after `past` is due. -/
def nextDue (start : UInt32) (past : List Turn) (s : UploadLoop) : Nat :=
  (readingBefore start past).toNat + s.delay.toNat

theorem readingBefore_cons (start : UInt32) (t : Turn) (past : List Turn) :
    readingBefore start (t :: past) = readingBefore t.tick past := by
  cases past using List.reverseRecOn with
  | nil => rfl
  | append_singleton past last =>
      rw [← List.cons_append, readingBefore_append, readingBefore_append]

theorem newReadings_append_singleton (start : UInt32) (past : List Turn) (t : Turn) :
    newReadings start (past ++ [t]) = newReadings start past ++
      if t.tick = readingBefore start past then [] else [t.tick.toNat] := by
  induction past generalizing start with
  | nil => rfl
  | cons u past ih =>
      rw [List.cons_append, newReadings, newReadings, ih, ih, readingBefore_cons]
      by_cases same : u.tick = start
      · rw [if_pos same, if_pos same, same]
      · rw [if_neg same, if_neg same, List.cons_append]

/-- An iteration moves the schedule by one packet duration, if the clock has moved. -/
theorem DelayExact.nextDue_eq {c : UploadConfig} {start : UInt32} {past : List Turn}
    {s : UploadLoop} {t : Turn} (h : DelayExact c start past s t)
    (steady : ClockSteady start past s t) :
    nextDue start (past ++ [t]) (nextLoop c s t.tick) =
      if t.tick = readingBefore start past then nextDue start past s
      else max (nextDue start past s + c.packetDuration.toNat) t.tick.toNat := by
  rw [nextDue, nextDue, readingBefore_append]
  by_cases same : t.tick = readingBefore start past
  · rw [if_pos same, h.stood (congrArg UInt32.toNat same), same]
  · have moves : (readingBefore start past).toNat < t.tick.toNat :=
      lt_of_le_of_ne steady.1 fun equal => same (UInt32.toNat_inj.mp equal.symm)
    have moved := h.moved moves
    rw [if_neg same]
    omega

/-- The loop variables carry the periodic schedule of the readings so far. -/
structure Scheduled (c : UploadConfig) (start : UInt32) (past : List Turn)
    (s : UploadLoop) : Prop where
  bounded : DelayBounded c start past s
  planned : nextDue start past s =
    dueAfter c.packetDuration.toNat (start.toNat + c.packetDuration.toNat) (newReadings start past)

theorem Scheduled.next {c : UploadConfig} {start : UInt32} {past : List Turn}
    {s : UploadLoop} {t : Turn} (h : Scheduled c start past s)
    (short : c.packetDuration.toNat < 2 ^ 30) (steady : ClockSteady start past s t)
    (slept : Slept past s t) : Scheduled c start (past ++ [t]) (nextLoop c s t.tick) := by
  have exact := h.bounded.exact short steady slept
  refine ⟨exact.next, ?_⟩
  rw [exact.nextDue_eq steady, newReadings_append_singleton, h.planned]
  by_cases same : t.tick = readingBefore start past
  · rw [if_pos same, if_pos same, List.append_nil]
  · rw [if_neg same, if_neg same, dueAfter_append_singleton]

theorem startUpload_scheduled {hz : UInt64}
    {port durationInMs packetSize rateInKbps start : UInt32} {c : UploadConfig}
    {s : UploadLoop}
    (started : startUpload hz port durationInMs packetSize rateInKbps start = some (c, s)) :
    Scheduled c start [] s := by
  refine ⟨startUpload_bounded started, ?_⟩
  obtain ⟨-, -, rfl⟩ := startUpload_started started
  rfl

/-- The iterations keep the periodic schedule of their readings. It is still the one
that the upload began with exactly if no reading came more than a packet duration late. -/
theorem upload_follows_schedule (hz : UInt64)
    (port durationInMs packetSize rateInKbps start : UInt32) (c : UploadConfig)
    (s s' : UploadLoop) (turns : List Turn) (out : List UploadEvent)
    (started : startUpload hz port durationInMs packetSize rateInKbps start = some (c, s))
    (short : c.packetDuration.toNat < 2 ^ 30)
    (steady : (udpUploader hz c).Along (ClockSteady start) [] s turns)
    (slept : (udpUploader hz c).Along Slept [] s turns)
    (run : (udpUploader hz c).Reaches s turns out s') :
    nextDue start turns s' = dueAfter c.packetDuration.toNat
        (start.toNat + c.packetDuration.toNat) (newReadings start turns) ∧
      (nextDue start turns s' =
          start.toNat + ((newReadings start turns).length + 1) * c.packetDuration.toNat ↔
        ∀ pre t post, newReadings start turns = pre ++ t :: post →
          t ≤ start.toNat + (pre.length + 2) * c.packetDuration.toNat) := by
  have scheduled : Scheduled c start turns s' := by
    apply Machine.Reaches.history_along (Scheduled c start) _ (startUpload_scheduled started)
      (steady.and slept) run
    intro past s t _ s' scheduled ok step
    obtain rfl := udpUploader_next step
    exact scheduled.next short ok.1 ok.2
  have grid (k : Nat) : start.toNat + c.packetDuration.toNat + k • c.packetDuration.toNat =
      start.toNat + (k + 1) * c.packetDuration.toNat := by
    rw [Nat.nsmul_eq_mul, Nat.add_mul, Nat.one_mul]
    omega
  have unmoved := dueAfter_eq_iff c.packetDuration.toNat (start.toNat + c.packetDuration.toNat)
    (newReadings start turns)
  simp only [grid] at unmoved
  exact ⟨scheduled.planned, scheduled.planned ▸ unmoved⟩

/-- The third reading comes three packet durations after the second; the schedule starts
anew with it. -/
theorem upload_follows_schedule_late : ∃ c s out s',
    startUpload 1000 5001 1000 256 10 10 = some (c, s) ∧
      (udpUploader 1000 c).Reaches s [⟨10, true⟩, ⟨210, true⟩, ⟨810, true⟩] out s' ∧
      nextDue 10 [⟨10, true⟩, ⟨210, true⟩, ⟨810, true⟩] s' = dueAfter 200 210 [210, 810] := by
  have started : startUpload 1000 5001 1000 256 10 10 =
      some (⟨5001, 256, 10, 200, 1010⟩, ⟨200, 0, 10, true⟩) := by decide +kernel
  have run := (udpUploader 1000 ⟨5001, 256, 10, 200, 1010⟩).reaches_of_isSome ⟨200, 0, 10, true⟩
    [⟨10, true⟩, ⟨210, true⟩, ⟨810, true⟩] (by decide +kernel)
  exact ⟨_, _, _, _, started, run, (upload_follows_schedule 1000 5001 1000 256 10 10 _ _ _ _ _
    started (by decide) (by decide +kernel) (by decide +kernel) run).1⟩

/-- The iteration starts less than a packet duration after it is due. -/
def OnTime (c : UploadConfig) (start : UInt32) (past : List Turn) (s : UploadLoop)
    (t : Turn) : Prop :=
  t.tick.toNat < nextDue start past s + c.packetDuration.toNat

instance (c : UploadConfig) (start : UInt32) (past : List Turn) (s : UploadLoop) (t : Turn) :
    Decidable (OnTime c start past s t) :=
  inferInstanceAs (Decidable (_ < _))

/-- Where the slots of an upload begin. The first iteration in the tick of the start has
no adjustment; a later one is delayed for a packet duration more. -/
def slotsBegin (c : UploadConfig) (start : UInt32) (first : Turn) : Nat :=
  if first.tick = start then start.toNat else start.toNat + c.packetDuration.toNat

/-- The slot of a packet duration that is kept for the iteration, from the second on. -/
def InSlot (c : UploadConfig) (start : UInt32) (past : List Turn) (_ : UploadLoop)
    (t : Turn) : Prop :=
  ∀ first ∈ past.head?,
    slotsBegin c start first + past.length * c.packetDuration.toNat ≤ t.tick.toNat ∧
      t.tick.toNat < slotsBegin c start first + (past.length + 1) * c.packetDuration.toNat

/-- What an upload that is on time has reached after `past`, its end in view. -/
structure InSlots (c : UploadConfig) (start : UInt32) (limit : Nat) (first : Turn)
    (past : List Turn) (s : UploadLoop) : Prop where
  planned : nextDue start past s =
    slotsBegin c start first + past.length * c.packetDuration.toNat
  waits : 0 < s.delay.toNat
  again : s.again = true ↔ (readingBefore start past).toNat < limit
  reached : 2 ≤ past.length →
    slotsBegin c start first + (past.length - 1) * c.packetDuration.toNat ≤
      (readingBefore start past).toNat
  began : 3 ≤ past.length →
    slotsBegin c start first + (past.length - 2) * c.packetDuration.toNat < limit

theorem Slept.nextDue_le {start : UInt32} {past : List Turn} {s : UploadLoop} {t : Turn}
    (slept : Slept past s t) (later : past ≠ []) : nextDue start past s ≤ t.tick.toNat := by
  cases past using List.reverseRecOn with
  | nil => exact absurd rfl later
  | append_singleton past last =>
      rw [nextDue, readingBefore_append]
      exact slept last (by simp)

theorem nextLoop_again {c : UploadConfig} {start : UInt32} {limit : Nat}
    (ends : ∀ tick, kUptimeTicks tick < c.endTime ↔ tick.toNat < limit) (past : List Turn)
    (s : UploadLoop) (t : Turn) : (nextLoop c s t.tick).again = true ↔
      (readingBefore start (past ++ [t])).toNat < limit := by
  rw [readingBefore_append, ← ends, nextLoop, decide_eq_true_iff]

theorem InSlots.start {c : UploadConfig} {start : UInt32} {limit : Nat} {s : UploadLoop}
    {t : Turn} (bounded : DelayBounded c start [] s) (short : c.packetDuration.toNat < 2 ^ 30)
    (ends : ∀ tick, kUptimeTicks tick < c.endTime ↔ tick.toNat < limit)
    (steady : ClockSteady start [] s t) (onTime : OnTime c start [] s t) :
    InSlots c start limit t [t] (nextLoop c s t.tick) := by
  have slept : Slept [] s t := fun last none => absurd none (by simp)
  have moved := (bounded.exact short steady slept).nextDue_eq steady
  have begun : nextDue start [] s = start.toNat + c.packetDuration.toNat := by
    rw [nextDue, bounded.fresh rfl]
    rfl
  have back : start.toNat ≤ t.tick.toNat := steady.1
  rw [OnTime, begun] at onTime
  have planned : nextDue start [t] (nextLoop c s t.tick) =
      slotsBegin c start t + c.packetDuration.toNat := by
    rw [List.nil_append, begun] at moved
    rw [moved, slotsBegin]
    by_cases same : t.tick = start
    · rw [if_pos same, if_pos (show t.tick = readingBefore start [] from same)]
    · rw [if_neg same, if_neg (show ¬ t.tick = readingBefore start [] from same)]
      omega
  have waits : t.tick.toNat < nextDue start [t] (nextLoop c s t.tick) := by
    rw [planned, slotsBegin]
    split
    case isTrue same =>
      rw [same] at onTime ⊢
      omega
    case isFalse => omega
  refine ⟨by simpa using planned, ?_, nextLoop_again ends [] s t, ?_, ?_⟩
  · rw [nextDue, show readingBefore start [t] = t.tick from rfl] at waits
    omega
  · intro two
    simp at two
  · intro three
    simp at three

theorem InSlots.next {c : UploadConfig} {start : UInt32} {limit : Nat} {first : Turn}
    {past : List Turn} {s : UploadLoop} {t : Turn} (h : InSlots c start limit first past s)
    (later : past ≠ []) (bounded : DelayBounded c start past s)
    (short : c.packetDuration.toNat < 2 ^ 30)
    (ends : ∀ tick, kUptimeTicks tick < c.endTime ↔ tick.toNat < limit)
    (again : s.again = true) (steady : ClockSteady start past s t) (slept : Slept past s t)
    (onTime : OnTime c start past s t) :
    InSlots c start limit first (past ++ [t]) (nextLoop c s t.tick) := by
  have awake : nextDue start past s ≤ t.tick.toNat := slept.nextDue_le later
  have waits := h.waits
  have moved := (bounded.exact short steady slept).nextDue_eq steady
  have clock : t.tick ≠ readingBefore start past := by
    intro same
    rw [nextDue, same] at awake
    omega
  rw [if_neg clock] at moved
  rw [OnTime] at onTime
  have planned : nextDue start (past ++ [t]) (nextLoop c s t.tick) =
      nextDue start past s + c.packetDuration.toNat := by omega
  refine ⟨?planned, ?waits, nextLoop_again ends past s t, ?reached, ?began⟩
  case planned =>
    rw [planned, h.planned, List.length_append, List.length_singleton, Nat.add_mul, Nat.one_mul,
      Nat.add_assoc]
  case waits =>
    rw [nextDue, readingBefore_append] at planned
    omega
  case reached =>
    intro _
    rw [List.length_append, List.length_singleton, Nat.add_sub_cancel, readingBefore_append,
      ← h.planned]
    exact awake
  case began =>
    rw [List.length_append, List.length_singleton]
    intro three
    have reached := h.reached (by omega)
    have early := h.again.mp again
    rw [show past.length + 1 - 2 = past.length - 1 by omega]
    omega

theorem slotsBegin_between (c : UploadConfig) (start : UInt32) (first : Turn) :
    start.toNat ≤ slotsBegin c start first ∧
      slotsBegin c start first ≤ start.toNat + c.packetDuration.toNat := by
  unfold slotsBegin
  split <;> omega

theorem InSlots.inSlot {c : UploadConfig} {start : UInt32} {limit : Nat} {first : Turn}
    {past : List Turn} {s : UploadLoop} {t : Turn} (h : InSlots c start limit first past s)
    (later : past ≠ []) (slept : Slept past s t) (onTime : OnTime c start past s t) :
    slotsBegin c start first + past.length * c.packetDuration.toNat ≤ t.tick.toNat ∧
      t.tick.toNat <
        slotsBegin c start first + (past.length + 1) * c.packetDuration.toNat := by
  have awake : nextDue start past s ≤ t.tick.toNat := slept.nextDue_le later
  rw [h.planned] at awake
  rw [OnTime, h.planned, Nat.add_assoc] at onTime
  exact ⟨awake, by rwa [Nat.add_mul, Nat.one_mul]⟩

/-- The invariant of an upload on time, its beginning included. -/
structure OnSchedule (c : UploadConfig) (start : UInt32) (limit : Nat) (past : List Turn)
    (s : UploadLoop) : Prop where
  bounded : DelayBounded c start past s
  slots : ∀ first ∈ past.head?, InSlots c start limit first past s
  enters : past = [] → s.again = true

theorem udpUploader_enters {hz : UInt64} {c : UploadConfig} {s s' : UploadLoop} {t : Turn}
    {out : List UploadEvent} (h : (udpUploader hz c).step s t = (out, some s')) :
    s.again = true := by
  simp only [udpUploader] at h
  cases again : s.again with
  | true => rfl
  | false => simp [again] at h

theorem OnSchedule.next {hz : UInt64} {c : UploadConfig} {start : UInt32} {limit : Nat}
    {past : List Turn} {s s' : UploadLoop} {t : Turn} {out : List UploadEvent}
    (h : OnSchedule c start limit past s) (short : c.packetDuration.toNat < 2 ^ 30)
    (ends : ∀ tick, kUptimeTicks tick < c.endTime ↔ tick.toNat < limit)
    (steady : ClockSteady start past s t) (slept : Slept past s t)
    (onTime : OnTime c start past s t) (step : (udpUploader hz c).step s t = (out, some s')) :
    OnSchedule c start limit (past ++ [t]) s' := by
  have again := udpUploader_enters step
  obtain rfl := udpUploader_next step
  refine ⟨(h.bounded.exact short steady slept).next, ?_, fun empty => absurd empty (by simp)⟩
  intro first head
  cases past with
  | nil =>
      obtain rfl : t = first := by simpa using head
      exact InSlots.start h.bounded short ends steady onTime
  | cons u past =>
      have slots := h.slots first (by simpa using head)
      exact slots.next (by simp) h.bounded short ends again steady slept onTime

/-- Every iteration sends one datagram. -/
theorem length_sentPackets {hz : UInt64} {c : UploadConfig} {s s' : UploadLoop}
    {turns : List Turn} {out : List UploadEvent}
    (run : (udpUploader hz c).Reaches s turns out s') :
    (sentPackets out).length = turns.length := by
  apply @Machine.Reaches.invariant _ _ _ (udpUploader hz c)
    (fun past emitted _ => (sentPackets emitted).length = past.length) _ s s' [] turns [] out
    rfl run
  intro past emitted s t out s' same step
  have one := (udpUploader_step step).1
  rw [sentPackets] at one same ⊢
  rw [List.filterMap_append, List.length_append, same, one, List.length_append]
  rfl

/-- The whole loop of an upload that is on time. -/
theorem onSchedule_reached {hz : UInt64}
    {port durationInMs packetSize rateInKbps start : UInt32} {c : UploadConfig}
    {s s' : UploadLoop} {turns : List Turn} {out : List UploadEvent} {limit : Nat}
    (started : startUpload hz port durationInMs packetSize rateInKbps start = some (c, s))
    (short : c.packetDuration.toNat < 2 ^ 30)
    (ends : ∀ tick, kUptimeTicks tick < c.endTime ↔ tick.toNat < limit)
    (steady : (udpUploader hz c).Along (ClockSteady start) [] s turns)
    (slept : (udpUploader hz c).Along Slept [] s turns)
    (onTime : (udpUploader hz c).Along (OnTime c start) [] s turns)
    (run : (udpUploader hz c).Reaches s turns out s') :
    OnSchedule c start limit turns s' ∧
      (udpUploader hz c).Along (InSlot c start) [] s turns := by
  have begun : OnSchedule c start limit [] s := by
    refine ⟨startUpload_bounded started, fun _ none => absurd none (by simp), fun _ => ?_⟩
    obtain ⟨-, -, rfl⟩ := startUpload_started started
    rfl
  have clock := (steady.and slept).and onTime
  constructor
  · apply Machine.Reaches.history_along (OnSchedule c start limit) _ begun clock run
    intro past s t out s' h ok step
    exact h.next short ends ok.1.1 ok.1.2 ok.2 step
  · apply Machine.Along.of_invariant (OnSchedule c start limit) _ _ begun clock
    · intro past s t out s' h ok step
      exact h.next short ends ok.1.1 ok.1.2 ok.2 step
    · intro past s t h ok first head
      have later : past ≠ [] := fun empty => by simp [empty] at head
      exact (h.slots first head).inSlot later ok.1.2 ok.2

/-- An upload that is never late by a packet duration sends its datagrams one in each
slot. The number of them follows from the duration, to within two at most. -/
theorem upload_rate_kept (hz : UInt64)
    (port durationInMs packetSize rateInKbps start d : UInt32) (c : UploadConfig)
    (s s' : UploadLoop) (turns : List Turn) (out : List UploadEvent)
    (started : startUpload hz port durationInMs packetSize rateInKbps start = some (c, s))
    (short : c.packetDuration.toNat < 2 ^ 30)
    (ticks : kMsToTicksCeil64 hz durationInMs.toUInt64 = d.toUInt64)
    (steady : (udpUploader hz c).Along (ClockSteady start) [] s turns)
    (slept : (udpUploader hz c).Along Slept [] s turns)
    (onTime : (udpUploader hz c).Along (OnTime c start) [] s turns)
    (run : (udpUploader hz c).Reaches s turns out s') (left : s'.again = false) :
    (udpUploader hz c).Along (InSlot c start) [] s turns ∧
      d.toNat < ((sentPackets out).length + 1) * c.packetDuration.toNat ∧
      (3 ≤ (sentPackets out).length →
        ((sentPackets out).length - 2) * c.packetDuration.toNat < d.toNat) := by
  obtain ⟨final, slots⟩ := onSchedule_reached started short
    (fun tick => (endTime_startUpload started ticks tick).1) steady slept onTime run
  refine ⟨slots, ?_⟩
  rw [length_sentPackets run]
  cases turns with
  | nil => simp [final.enters rfl] at left
  | cons first turns =>
      have last := final.slots first rfl
      have between := slotsBegin_between c start first
      have ended : ¬ (readingBefore start (first :: turns)).toNat < start.toNat + d.toNat := by
        rw [← last.again, left]
        simp
      have planned := last.planned
      have waits := last.waits
      refine ⟨?_, fun three => ?_⟩
      · rw [nextDue] at planned
        rw [Nat.add_mul _ 1, Nat.one_mul]
        omega
      · have began := last.began three
        omega

/-- Twenty ticks for each of six datagrams, the second of them nineteen ticks late. -/
theorem upload_rate_kept_late : ∃ c s out s',
    startUpload 1000 5001 100 256 100 10 = some (c, s) ∧
      (udpUploader 1000 c).Reaches s [⟨10, true⟩, ⟨49, true⟩, ⟨50, true⟩, ⟨72, true⟩,
        ⟨90, true⟩, ⟨110, true⟩] out s' ∧
      (100 : UInt32).toNat < ((sentPackets out).length + 1) * c.packetDuration.toNat := by
  have started : startUpload 1000 5001 100 256 100 10 =
      some (⟨5001, 256, 100, 20, 110⟩, ⟨20, 0, 10, true⟩) := by decide +kernel
  have run := (udpUploader 1000 ⟨5001, 256, 100, 20, 110⟩).reaches_of_isSome ⟨20, 0, 10, true⟩
    [⟨10, true⟩, ⟨49, true⟩, ⟨50, true⟩, ⟨72, true⟩, ⟨90, true⟩, ⟨110, true⟩]
    (by decide +kernel)
  exact ⟨_, _, _, _, started, run, (upload_rate_kept 1000 5001 100 256 100 10 100 _ _ _ _ _
    started (by decide) (by decide +kernel) (by decide +kernel) (by decide +kernel)
    (by decide +kernel) run (by decide +kernel)).2.1⟩

end Zperf
