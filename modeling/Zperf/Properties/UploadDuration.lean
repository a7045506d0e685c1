import Zperf.Base.Deadline
import Zperf.Base.Wrap
import Zperf.Core.TcpUploader

/-!
How long the loops of the two uploaders run.

Both compare a 32-bit tick count, widened, with a sum that is not taken modulo
`2 ^ 32`. They never leave early; they leave in the first iteration that is due exactly
if the counter shows the end time in it, which it cannot once it has started again from
zero.
-/

namespace Zperf

open Base

/-- The tick count `elapsed` ticks after `start`. -/
def tickAt (start : UInt32) (elapsed : Nat) : UInt32 := start + UInt32.ofNat elapsed

theorem toNat_tickAt (start : UInt32) (elapsed : Nat) :
    (tickAt start elapsed).toNat = (start.toNat + elapsed) % 2 ^ 32 := by
  rw [tickAt, UInt32.toNat_add, UInt32.toNat_ofNat', Nat.add_mod_mod]

/-- An iteration of `udp_upload` whose datagram is sent. -/
def udpTurnAt (start : UInt32) (elapsed : Nat) : Turn := ⟨tickAt start elapsed, true⟩

/-- An iteration of `tcp_upload` whose packet is sent. -/
structure TcpPass (packetSize : UInt32) where
  elapsed : Nat
  sends : List Int
  errno : Int
  whole : ∃ sent, sendall (tcpSamplePacket packetSize) sends = some (0, sent)

def TcpPass.turn {packetSize : UInt32} (start : UInt32) (p : TcpPass packetSize) : TcpTurn :=
  ⟨p.sends, p.errno, tickAt start p.elapsed⟩

/-- The end time as a number: start and duration do not overflow an `int64_t`. -/
theorem endTime_startUpload {hz : UInt64} {port ms size rate start d : UInt32}
    {c : UploadConfig} {loop : UploadLoop}
    (started : startUpload hz port ms size rate start = some (c, loop))
    (ticks : kMsToTicksCeil64 hz ms.toUInt64 = d.toUInt64) (tick : UInt32) :
    (kUptimeTicks tick < c.endTime ↔ tick.toNat < start.toNat + d.toNat) ∧
      loop.again = true := by
  obtain ⟨-, endTime, rfl⟩ := startUpload_started started
  refine ⟨?_, rfl⟩
  have bound := start.toNat_lt
  have bound' := d.toNat_lt
  have sum : (kUptimeTicks start + d.toUInt64.toInt64).toInt = start.toNat + d.toNat := by
    rw [Int64.toInt_add, kUptimeTicks, toInt_widened, toInt_widened]
    exact Int.bmod_eq_of_le (by omega) (by omega)
  rw [endTime, ticks, Int64.lt_iff_toInt_lt, sum, kUptimeTicks, toInt_widened]
  omega

theorem udpUploader_testsClock {hz : UInt64} {c : UploadConfig} {start : UInt32} {limit : Nat}
    (ends : ∀ tick, kUptimeTicks tick < c.endTime ↔ tick.toNat < limit) :
    ((udpUploader hz c).comap (udpTurnAt start)).TestsClock UploadLoop.again
      (fun e => (tickAt start e).toNat) limit where
  enters s e again := by
    simp [Machine.comap, udpUploader, again, udpTurnAt]
  leaves s e again := by
    simp [Machine.comap, udpUploader, again]
  tests s e out t step := by
    simp only [Machine.comap, udpUploader, udpTurnAt] at step
    split at step
    · simp at step
    · obtain ⟨-, rfl⟩ := goesOn_inj step
      simp only [nextLoop, decide_eq_false_iff_not, ends, Nat.not_lt]

theorem tcpUploader_testsClock (packetSize start d : UInt32) :
    ((tcpUploader packetSize (sysTimepointCalc start d)).comap
      (TcpPass.turn start : TcpPass packetSize → TcpTurn)).TestsClock TcpUploadLoop.again
      (fun p : TcpPass packetSize => (tickAt start p.elapsed).toNat)
      (start.toNat + d.toNat) where
  enters s p again := by
    obtain ⟨sent, whole⟩ := p.whole
    simp [Machine.comap, tcpUploader, again, TcpPass.turn, whole]
  leaves s p again := by
    simp [Machine.comap, tcpUploader, again]
  tests s p out t step := by
    obtain ⟨sent, whole⟩ := p.whole
    have next : (tcpUploader packetSize (sysTimepointCalc start d)).step s (p.turn start) =
        (out, some t) := step
    simp only [tcpUploader, TcpPass.turn, whole] at next
    split at next
    · simp at next
    · obtain ⟨-, rfl⟩ := goesOn_inj next
      have timepoint : (sysTimepointCalc start d).toNat = start.toNat + d.toNat := by
        have bound := start.toNat_lt
        have bound' := d.toNat_lt
        rw [sysTimepointCalc, UInt64.toNat_add, UInt32.toNat_toUInt64, UInt32.toNat_toUInt64]
        exact Nat.mod_eq_of_lt (by omega)
      simp [nextTcpLoop, sysTimepointExpired, UInt64.le_iff_toNat_le, timepoint]

/-- A reading that shows the end time is due: the loops never leave early. -/
theorem tickAt_notEarly {start d : UInt32} {elapsed : Nat}
    (shows' : start.toNat + d.toNat ≤ (tickAt start elapsed).toNat) : d.toNat ≤ elapsed := by
  rw [toNat_tickAt] at shows'
  have le := Nat.mod_le (start.toNat + elapsed) (2 ^ 32)
  omega

/-- Both loops run for the requested duration exactly if the tick counter shows the end
time in the first iteration that is due. -/
theorem uploads_leave_on_time_iff (hz : UInt64)
    (port durationInMs packetSize rateInKbps start d tcpPacketSize : UInt32)
    (c : UploadConfig) (loop : UploadLoop) (es : List Nat)
    (passes : List (TcpPass tcpPacketSize))
    (started : startUpload hz port durationInMs packetSize rateInKbps start = some (c, loop))
    (ticks : kMsToTicksCeil64 hz durationInMs.toUInt64 = d.toUInt64) :
    (((udpUploader hz c).comap (udpTurnAt start)).LeavesOnTime UploadLoop.again loop id
        d.toNat es ↔
      Machine.FirstDueShows (fun e => (tickAt start e).toNat) id (start.toNat + d.toNat)
        d.toNat es) ∧
    (((tcpUploader tcpPacketSize (sysTimepointCalc start d)).comap
        (TcpPass.turn start)).LeavesOnTime TcpUploadLoop.again TcpUploadLoop.start TcpPass.elapsed
        d.toNat passes ↔
      Machine.FirstDueShows (fun p : TcpPass tcpPacketSize => (tickAt start p.elapsed).toNat)
        TcpPass.elapsed (start.toNat + d.toNat) d.toNat passes) := by
  have ends := endTime_startUpload started ticks
  constructor
  · exact (udpUploader_testsClock fun tick => (ends tick).1).leavesOnTime_iff (ends 0).2
      fun e _ => tickAt_notEarly
  · exact (tcpUploader_testsClock tcpPacketSize start d).leavesOnTime_iff rfl
      fun p _ => tickAt_notEarly

theorem uploads_leave_on_time_from_zero :
    ∃ c loop, startUpload 1000 5001 10 12 10 0 = some (c, loop) ∧
      (((udpUploader 1000 c).comap (udpTurnAt 0)).LeavesOnTime UploadLoop.again loop id 10
          [4, 10] ↔
        Machine.FirstDueShows (fun e => (tickAt 0 e).toNat) id (0 + 10) 10 [4, 10]) := by
  have started : ∃ x, startUpload 1000 5001 10 12 10 0 = some x :=
    Option.isSome_iff_exists.mp (by decide +kernel)
  obtain ⟨⟨c, loop⟩, started⟩ := started
  have both := uploads_leave_on_time_iff 1000 5001 10 12 10 0 10 1024 c loop [4, 10] [] started
    (by decide +kernel)
  exact ⟨c, loop, started, both.1⟩

/-- An upload of ten ticks started in the last tick before the counter starts again:
ten ticks later the counter shows nine, and the loop goes on. -/
theorem upload_across_zero_goes_on :
    ∃ c loop, startUpload 1000 5001 10 12 10 0xFFFFFFFF = some (c, loop) ∧
      ¬ ((udpUploader 1000 c).comap (udpTurnAt 0xFFFFFFFF)).LeavesOnTime UploadLoop.again loop
        id 10 [10] := by
  let c := ((startUpload 1000 5001 10 12 10 0xFFFFFFFF).get (by decide +kernel)).1
  let loop := ((startUpload 1000 5001 10 12 10 0xFFFFFFFF).get (by decide +kernel)).2
  refine ⟨c, loop, by decide +kernel, fun onTime => ?_⟩
  have run := ((udpUploader 1000 c).comap (udpTurnAt 0xFFFFFFFF)).reaches_of_isSome loop [10]
    (by decide +kernel)
  have left := (onTime [] 10 [] _ _ rfl run).mpr (Nat.le_refl 10)
  exact absurd left (by decide +kernel)

end Zperf
