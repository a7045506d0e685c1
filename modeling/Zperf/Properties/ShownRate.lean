import Zperf.Base.Rounding
import Zperf.Core.ShellReport
import Zperf.Properties.PacketInterval
import Zperf.Properties.TcpDuration
import Zperf.Properties.UploadSchedule
import Zperf.Properties.UploadSockets

/-!
The baud rate that an upload command shows for its own datagrams.

It is computed from what the loop has counted and from two readings of the clock. For an
upload that is on time it is the rate of one datagram in each packet duration, but for two
packet durations of all that have passed.
-/

namespace Zperf

open Base

/-- A run of the loop to its end, as `udp_upload` makes it. -/
theorem uploadLoop_of_reaches {hz : UInt64} {c : UploadConfig} {s s' : UploadLoop}
    {turns : List Turn} {out : List UploadEvent}
    (run : (udpUploader hz c).Reaches s turns out s') (left : s'.again = false)
    (made : turns ≠ []) : uploadLoop c s turns = some (true, s') := by
  induction turns generalizing s out with
  | nil => exact absurd rfl made
  | cons t turns ih =>
      obtain ⟨first, mid, rest, step, later, -⟩ := (Machine.reaches_cons _ _ _ _ _ _).mp run
      have sent : ¬ t.sent = false := by
        intro failed
        simp [udpUploader, failed] at step
      obtain rfl := udpUploader_next step
      rw [uploadLoop, if_neg sent]
      cases turns with
      | nil =>
          obtain ⟨-, rfl⟩ := (Machine.reaches_nil _ _ _ _).mp later
          simp [left]
      | cons u turns =>
          obtain ⟨_, _, _, next, -, -⟩ := (Machine.reaches_cons _ _ _ _ _ _).mp later
          simp only [udpUploader_enters next, if_true]
          exact ih later (by simp)

theorem toNat_clientRateInKbps {results : Results} {n bits us : Nat}
    (sent : results.nbPacketsSent.toNat = n)
    (packet : results.packetSize.toNat * 8 * 1000000 = bits)
    (time : results.clientTimeInUs.toNat = us) (some : 0 < us) (product : n * bits < 2 ^ 64)
    (fits : n * bits / (us * 1024) < 2 ^ 32) :
    (clientRateInKbps results).toNat = n * bits / (us * 1024) := by
  have nonzero : results.clientTimeInUs ≠ 0 := by
    intro zero
    simp only [zero, UInt32.toNat_zero] at time
    omega
  have grouped : n * results.packetSize.toNat * 8 * 1000000 = n * bits := by
    rw [← packet, Nat.mul_assoc, Nat.mul_assoc, Nat.mul_assoc]
  have narrow := results.clientTimeInUs.toNat_lt
  have words : n * results.packetSize.toNat < 2 ^ 64 ∧
      n * results.packetSize.toNat * 8 < 2 ^ 64 := by omega
  rw [clientRateInKbps, if_pos nonzero, UInt64.toNat_toUInt32, UInt64.toNat_div,
    UInt64.toNat_mul, UInt64.toNat_mul, UInt64.toNat_mul, UInt64.toNat_mul]
  simp only [UInt32.toNat_toUInt64, sent, time, toNat_usecPerSec,
    show (8 : UInt64).toNat = 8 from rfl, show (1024 : UInt64).toNat = 1024 from rfl]
  rw [Nat.mod_eq_of_lt words.1, Nat.mod_eq_of_lt words.2, grouped, Nat.mod_eq_of_lt product,
    Nat.mod_eq_of_lt (show us * 1024 < 2 ^ 64 by omega), Nat.mod_eq_of_lt fits]

/-- The rate of `n` datagrams in a time between `n` and `n + 2` packet durations. -/
theorem clientRate_between {results : Results} {n duration tickUs ticks : Nat}
    (sent : results.nbPacketsSent.toNat = n) (packet : results.packetSize.toNat ≤ 1024)
    (time : results.clientTimeInUs.toNat = ticks * tickUs) (count : 0 < n) (few : n < 2 ^ 31)
    (period : 0 < duration) (tick : 0 < tickUs) (after : n * duration ≤ ticks)
    (before : ticks ≤ (n + 2) * duration) :
    (clientRateInKbps results).toNat * (duration * tickUs * 1024) ≤
        results.packetSize.toNat * 8 * 1000000 ∧
      n * (results.packetSize.toNat * 8 * 1000000) <
        ((clientRateInKbps results).toNat + 1) * ((n + 2) * (duration * tickUs * 1024)) := by
  have largest : results.packetSize.toNat * 8 * 1000000 ≤ 8192000000 := by omega
  obtain ⟨bits, packet⟩ : ∃ bits, results.packetSize.toNat * 8 * 1000000 = bits := ⟨_, rfl⟩
  rw [packet] at largest ⊢
  have unit : 1024 ≤ duration * tickUs * 1024 :=
    Nat.le_mul_of_pos_left _ (Nat.mul_pos period tick)
  have low : n * (duration * tickUs * 1024) ≤ ticks * tickUs * 1024 := by
    rw [← Nat.mul_assoc, ← Nat.mul_assoc]
    exact Nat.mul_le_mul_right _ (Nat.mul_le_mul_right _ after)
  have high : ticks * tickUs * 1024 ≤ (n + 2) * (duration * tickUs * 1024) := by
    rw [← Nat.mul_assoc, ← Nat.mul_assoc]
    exact Nat.mul_le_mul_right _ (Nat.mul_le_mul_right _ before)
  have passed : 0 < ticks * tickUs * 1024 :=
    Nat.lt_of_lt_of_le (Nat.mul_pos count (by omega)) low
  have measured := @Rounding.measured_between n (n + 2) bits _ _ count low high passed
  have product : n * bits < 2 ^ 64 := by
    have most := Nat.mul_le_mul few.le largest
    omega
  have fits : n * bits / (ticks * tickUs * 1024) < 2 ^ 32 := by
    have floor := @Nat.mul_le_mul_left _ _ (n * bits / (ticks * tickUs * 1024)) unit
    have most := measured.1
    omega
  rw [toNat_clientRateInKbps sent packet time (by omega) product fits]
  exact measured

/-- What the end of a command prints of an upload that succeeded. -/
theorem finishedUpload_zero {name : String} {printStats : Results → Option CString}
    {ret : Int} {results : Results} {sockets : List SocketEvent} {log : List ShellEvent}
    (finished : finishedUpload name printStats (ret, results, sockets) = some (0, log)) :
    0 ≤ ret ∧ ∃ stats, printStats results = some stats ∧ .print stats ∈ log := by
  simp only [finishedUpload] at finished
  split at finished
  case isTrue failed =>
    obtain ⟨_, -, same⟩ := Option.map_eq_some_iff.mp finished
    have zero : ret = 0 := (Prod.mk.inj same).1
    omega
  case isFalse passed =>
    obtain ⟨stats, shown, same⟩ := Option.map_eq_some_iff.mp finished
    obtain ⟨-, rfl⟩ := Prod.mk.inj same
    exact ⟨by omega, stats, shown, by simp⟩

theorem zperfUdpUpload_nonneg {hz : UInt64} {param : UploadParams} {calls : UploadCalls}
    {before results : Results} {ret : Int} {sockets : List SocketEvent} {peer : Peer}
    (peerAddr : param.peerAddr = some peer) (nonneg : 0 ≤ ret)
    (returned : zperfUdpUpload hz param calls before = some (ret, results, sockets)) :
    udpUpload hz peer.portNumber.toUInt32 param.durationMs param.packetSize.toUInt32
      param.rateKbps calls.udp before = some (ret, results) := by
  simp only [zperfUdpUpload, peerAddr] at returned
  split at returned
  case isTrue failed =>
    obtain ⟨rfl, -⟩ := Prod.mk.inj (Option.some.inj returned)
    omega
  case isFalse =>
    obtain ⟨upload, uploaded, same⟩ := Option.map_eq_some_iff.mp returned
    obtain ⟨rfl, rest⟩ := Prod.mk.inj same
    obtain ⟨rfl, -⟩ := Prod.mk.inj rest
    exact uploaded

/-- A synchronous UDP upload that succeeds is shown with its results. -/
theorem executeUpload_shows {hz : UInt64} {pdMsToTicks : UInt32 → UInt32}
    {param : UploadParams} {calls : UploadCalls} {asyncRet : Int} {log : List ShellEvent}
    {peer : Peer} (peerAddr : param.peerAddr = some peer)
    (executed : executeUpload hz pdMsToTicks param true false calls asyncRet = some (0, log)) :
    ∃ ret results stats, 0 ≤ ret ∧ udpUpload hz peer.portNumber.toUInt32 param.durationMs
        param.packetSize.toUInt32 param.rateKbps calls.udp .zero = some (ret, results) ∧
      shellUdpUploadPrintStats results = some stats ∧ .print stats ∈ log := by
  simp only [executeUpload, if_true, Bool.false_eq_true, if_false, Option.bind_eq_bind,
    Option.bind_eq_some_iff] at executed
  obtain ⟨header, -, interval, -, udpHeader, -, ⟨status, inner⟩, ⟨⟨ret, results, sockets⟩,
    returned, finished⟩, same⟩ := executed
  obtain ⟨rfl, rfl⟩ := Prod.mk.inj (Option.some.inj same)
  obtain ⟨nonneg, stats, shown, inside⟩ := finishedUpload_zero finished
  refine ⟨ret, results, stats, nonneg, zperfUdpUpload_nonneg peerAddr nonneg returned, shown, ?_⟩
  exact List.mem_cons_of_mem _ (List.mem_cons_of_mem _ inside)

theorem nbPackets_reached {hz : UInt64} {c : UploadConfig} {s s' : UploadLoop}
    {turns : List Turn} {out : List UploadEvent} (none : s.nbPackets = 0)
    (run : (udpUploader hz c).Reaches s turns out s') :
    s'.nbPackets = UInt32.ofNat turns.length := by
  apply @Machine.Reaches.invariant _ _ _ (udpUploader hz c)
    (fun past _ s => s.nbPackets = UInt32.ofNat past.length) _ s s' [] turns [] out none run
  intro past _ s t _ s' count step
  obtain rfl := udpUploader_next step
  have next : (nextLoop c s t.tick).nbPackets = s.nbPackets + 1 := rfl
  rw [next, count, List.length_append, List.length_singleton, UInt32.ofNat_add]
  rfl

/-- What `udp_upload` adds to the results. -/
theorem udpUpload_counts {hz : UInt64} {port durationInMs packetSize rateInKbps : UInt32}
    {calls : UdpTransfer} {before results : Results} {ret : Int} {c : UploadConfig}
    {s s' : UploadLoop}
    (started : startUpload hz port durationInMs packetSize rateInKbps calls.startTick =
      some (c, s)) (looped : uploadLoop c s calls.turns = some (true, s')) (nonneg : 0 ≤ ret)
    (returned : udpUpload hz port durationInMs packetSize rateInKbps calls before =
      some (ret, results)) :
    results.nbPacketsSent = s'.nbPackets ∧ results.packetSize = c.packetSize ∧
      results.clientTimeInUs =
        kTicksToUsCeil32 hz (ticksArg (kUptimeTicks calls.endTick -
          kUptimeTicks calls.startTick)) := by
  simp only [udpUpload, started, looped] at returned
  split at returned
  case h_1 => cases returned
  case h_2 fin _ _ =>
    split at returned
    case isTrue failed =>
      obtain ⟨rfl, -⟩ := Prod.mk.inj (Option.some.inj returned)
      omega
    case isFalse =>
      obtain ⟨-, rfl⟩ := Prod.mk.inj (Option.some.inj returned)
      exact ⟨rfl, rfl, rfl⟩

/-- The sleeps of an upload last as long as they are asked to and less than a packet
duration longer, the last one included. -/
structure WakesOnTime (hz : UInt64) (c : UploadConfig) (s s' : UploadLoop)
    (calls : UdpTransfer) : Prop where
  steady : (udpUploader hz c).Along (ClockSteady calls.startTick) [] s calls.turns
  slept : (udpUploader hz c).Along Slept [] s calls.turns
  onTime : (udpUploader hz c).Along (OnTime c calls.startTick) [] s calls.turns
  ended : nextDue calls.startTick calls.turns s' ≤ calls.endTick.toNat ∧
    calls.endTick.toNat < nextDue calls.startTick calls.turns s' + c.packetDuration.toNat

theorem endTime_limit (endTime : Int64) :
    ∃ limit : Nat, ∀ tick, kUptimeTicks tick < endTime ↔ tick.toNat < limit := by
  refine ⟨endTime.toInt.toNat, fun tick => ?_⟩
  rw [Int64.lt_iff_toInt_lt, kUptimeTicks, toInt_widened]
  omega

/-- The time of an upload on time, in packet durations. -/
theorem WakesOnTime.elapsed {hz : UInt64} {port durationInMs packetSize rateInKbps : UInt32}
    {c : UploadConfig} {s s' : UploadLoop} {calls : UdpTransfer} {out : List UploadEvent}
    (wakes : WakesOnTime hz c s s' calls)
    (started : startUpload hz port durationInMs packetSize rateInKbps calls.startTick =
      some (c, s)) (short : c.packetDuration.toNat < 2 ^ 30)
    (run : (udpUploader hz c).Reaches s calls.turns out s') (made : calls.turns ≠ []) :
    calls.startTick.toNat + calls.turns.length * c.packetDuration.toNat ≤
        calls.endTick.toNat ∧
      calls.endTick.toNat <
        calls.startTick.toNat + (calls.turns.length + 2) * c.packetDuration.toNat := by
  obtain ⟨limit, ends⟩ := endTime_limit c.endTime
  have final := (onSchedule_reached started short ends wakes.steady wakes.slept wakes.onTime
    run).1
  obtain ⟨first, rest, turns⟩ := List.exists_cons_of_ne_nil made
  have planned := (final.slots first (by rw [turns]; rfl)).planned
  have between := slotsBegin_between c calls.startTick first
  have ended := wakes.ended
  have two : (calls.turns.length + 2) * c.packetDuration.toNat =
      calls.turns.length * c.packetDuration.toNat + 2 * c.packetDuration.toNat :=
    Nat.add_mul _ _ _
  omega

/-- The time that the results give, where a tick is a whole number of microseconds. -/
theorem toNat_clientTime {hz : UInt64} {tickUs : Nat} {first last : UInt32}
    (micros : hz.toNat * tickUs = 1000000) (forward : first.toNat ≤ last.toNat)
    (brief : (last.toNat - first.toNat) * tickUs < 2 ^ 32) :
    (kTicksToUsCeil32 hz (ticksArg (kUptimeTicks last - kUptimeTicks first))).toNat =
      (last.toNat - first.toNat) * tickUs := by
  have running : 0 < hz.toNat := by
    apply Nat.pos_of_ne_zero
    intro stopped
    rw [stopped, Nat.zero_mul] at micros
    omega
  rw [ticksArg_elapsed, toNat_kTicksToUsCeil32,
    UInt32.toNat_sub_of_le _ _ (UInt32.le_iff_toNat_le.mpr forward), ← micros,
    Nat.mul_left_comm, Nat.mul_div_cancel_left _ running, Nat.mod_eq_of_lt brief]

/-- The rate that the command shows for the datagrams it has sent is at most that of one
datagram in each packet duration, and less than that only by two packet durations. -/
theorem shown_rate_accurate (hz : UInt64) (tickUs : Nat) (pdMsToTicks : UInt32 → UInt32)
    (param : UploadParams) (peer : Peer) (calls : UploadCalls) (asyncRet : Int)
    (log : List ShellEvent) (c : UploadConfig) (s s' : UploadLoop) (out : List UploadEvent)
    (peerAddr : param.peerAddr = some peer)
    (started : startUpload hz peer.portNumber.toUInt32 param.durationMs
      param.packetSize.toUInt32 param.rateKbps calls.udp.startTick = some (c, s))
    (short : c.packetDuration.toNat < 2 ^ 30)
    (run : (udpUploader hz c).Reaches s calls.udp.turns out s') (left : s'.again = false)
    (wakes : WakesOnTime hz c s s' calls.udp) (micros : hz.toNat * tickUs = 1000000)
    (few : calls.udp.turns.length < 2 ^ 31)
    (brief : (calls.udp.endTick.toNat - calls.udp.startTick.toNat) * tickUs < 2 ^ 32)
    (executed : executeUpload hz pdMsToTicks param true false calls asyncRet = some (0, log)) :
    ∃ results stats, shellUdpUploadPrintStats results = some stats ∧ .print stats ∈ log ∧
      results.nbPacketsSent.toNat = calls.udp.turns.length ∧
      (clientRateInKbps results).toNat * (c.packetDuration.toNat * tickUs * 1024) ≤
        results.packetSize.toNat * 8 * 1000000 ∧
      calls.udp.turns.length * (results.packetSize.toNat * 8 * 1000000) <
        ((clientRateInKbps results).toNat + 1) *
          ((calls.udp.turns.length + 2) * (c.packetDuration.toNat * tickUs * 1024)) := by
  obtain ⟨sizes, -, loop⟩ := startUpload_started started
  have made : calls.udp.turns ≠ [] := by
    intro empty
    rw [empty] at run
    obtain ⟨-, rfl⟩ := (Machine.reaches_nil _ _ _ _).mp run
    simp [loop] at left
  obtain ⟨ret, results, stats, nonneg, returned, shown, inside⟩ :=
    executeUpload_shows peerAddr executed
  obtain ⟨sent, size, time⟩ :=
    udpUpload_counts started (uploadLoop_of_reaches run left made) nonneg returned
  have after := wakes.elapsed started short run made
  have ended := wakes.ended
  have packets : results.nbPacketsSent.toNat = calls.udp.turns.length := by
    rw [sent, nbPackets_reached (by rw [loop]) run, UInt32.toNat_ofNat_of_lt']
    exact Nat.lt_trans few (by decide)
  have bounds := clampPacketSize_bounds param.packetSize.toUInt32
  rw [← sizes, ← size] at bounds
  refine ⟨results, stats, shown, inside, packets, ?_⟩
  have count : 0 < calls.udp.turns.length := List.length_pos_of_ne_nil made
  have period : 0 < c.packetDuration.toNat := by omega
  have tick : 0 < tickUs := by
    apply Nat.pos_of_ne_zero
    intro none
    rw [none, Nat.mul_zero] at micros
    omega
  have forward : calls.udp.startTick.toNat ≤ calls.udp.endTick.toNat :=
    Nat.le_trans (Nat.le_add_right _ _) after.1
  have micro := toNat_clientTime micros forward brief
  rw [← time] at micro
  exact clientRate_between packets bounds.2 micro count few period tick (by omega) (by omega)

/-- Six datagrams of 256 bytes, and the reply to them. -/
def sixDatagrams : UploadCalls :=
  { exampleCalls 0 with
    udp := {
      (exampleCalls 0).udp with
      startTick := 10
      turns := [⟨10, true⟩, ⟨30, true⟩, ⟨50, true⟩, ⟨70, true⟩, ⟨90, true⟩, ⟨110, true⟩]
      endTick := 130 } }

theorem shown_rate_accurate_six : ∃ results stats,
    shellUdpUploadPrintStats results = some stats ∧ results.nbPacketsSent.toNat = 6 ∧
      (clientRateInKbps results).toNat * (20 * 1000 * 1024) ≤
        results.packetSize.toNat * 8 * 1000000 := by
  let param : UploadParams := ⟨examplePeer, 100, 100, 256, 0, 0, -1⟩
  let c : UploadConfig := ⟨5001, 256, 100, 20, 110⟩
  have started : startUpload 1000 5001 100 256 100 10 = some (c, ⟨20, 0, 10, true⟩) := by
    decide +kernel
  have final : ((udpUploader 1000 c).run ⟨20, 0, 10, true⟩ sixDatagrams.udp.turns).2 =
      some ⟨20, 6, 110, false⟩ := by decide +kernel
  have run := (udpUploader 1000 c).reaches_of_final final
  have wakes : WakesOnTime 1000 c ⟨20, 0, 10, true⟩ ⟨20, 6, 110, false⟩ sixDatagrams.udp :=
    ⟨by decide +kernel, by decide +kernel, by decide +kernel, by decide +kernel⟩
  have status : (executeUpload 1000 id param true false sixDatagrams 0).map Prod.fst = some 0 := by
    decide +kernel
  obtain ⟨⟨_, log⟩, executed, rfl⟩ := Option.map_eq_some_iff.mp status
  obtain ⟨results, stats, shown, -, sent, rate, -⟩ := shown_rate_accurate 1000 1000 id param
    (.inet 5001 0xC0000201) sixDatagrams 0 log c _ _ _ rfl started (by decide)
    run rfl wakes (by decide) (by decide) (by decide) executed
  exact ⟨results, stats, shown, sent, rate⟩

end Zperf
