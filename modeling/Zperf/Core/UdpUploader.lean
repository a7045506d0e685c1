import Zperf.Core.UdpReceiver

/-!
The UDP uploader: the paced loop of data datagrams and the end of an upload.

What comes from outside is an input: the tick counts read, the results of the
socket calls and the bytes received. The wait at the end of an iteration is
`k_sleep(K_TICKS(delay))`, and the event carries the delay; the tests for the log are
left out. Signed arithmetic wraps around.
-/

namespace Zperf

open Base

/-- `PACKET_SIZE_MAX`, that is `CONFIG_NET_ZPERF_MAX_PACKET_SIZE`. -/
def packetSizeMax : UInt32 := 1024

/-- `zperf_packet_duration`; `none` is the trap of its division. -/
def zperfPacketDuration (packetSize rateInKbps : UInt32) : Option UInt32 :=
  if rateInKbps * 1024 = 0 then none
  else some (packetSize.toUInt64 * 8 * usecPerSec.toUInt64 /
    (rateInKbps * 1024).toUInt64).toUInt32

/-- The clamp of the packet size in `udp_upload`. -/
def clampPacketSize (packetSize : UInt32) : UInt32 :=
  if packetSize > packetSizeMax then packetSizeMax
  else if packetSize.toNat < sizeofUdpDatagram then UInt32.ofNat sizeofUdpDatagram
  else packetSize

/-- A word in the byte order of the host, little-endian. -/
def hostWord (w : UInt32) : List UInt8 := (putWord w).reverse

/-- `struct zperf_client_hdr_v1` as the uploader fills it in. -/
def clientHdr (port rateInKbps packetSize : UInt32) : List UInt8 :=
  putWord 0 ++ (putWord 1 ++ (putWord port ++ (hostWord packetSizeMax ++
    (putWord rateInKbps ++ putWord packetSize))))

/-- The first `packetSize` bytes of `sample_packet`: the two headers, then `'z'`. -/
def samplePacket (hdr : UdpDatagram) (port rateInKbps packetSize : UInt32) : List UInt8 :=
  (hdr.bytes ++ (clientHdr port rateInKbps packetSize ++
    List.replicate packetSizeMax.toNat (0x7A : UInt8))).take packetSize.toNat

/-- The arguments of `udp_upload` that its loop uses, the size clamped. -/
structure UploadConfig where
  port : UInt32
  packetSize : UInt32
  rateInKbps : UInt32
  packetDuration : UInt32
  endTime : Int64
  deriving DecidableEq, Repr

/-- The variables of the loop; `again` is the value of its condition. -/
structure UploadLoop where
  delay : UInt32
  nbPackets : UInt32
  lastLoopTime : Int64
  again : Bool
  deriving DecidableEq, Repr

/-- One iteration as the outside answers it: the tick count read and whether the
datagram could be sent. -/
structure Turn where
  tick : UInt32
  sent : Bool
  deriving DecidableEq, Repr

inductive UploadEvent where
  | send (packet : List UInt8)
  | sleep (ticks : UInt32)
  deriving DecidableEq, Repr

/-- The change of the delay that keeps the baud rate. -/
def adjustment (packetDuration : UInt32) (lastLoopTime loopTime : Int64) : Int32 :=
  if lastLoopTime ≠ loopTime then
    packetDuration.toInt32 - (loopTime - lastLoopTime).toInt32
  else 0

/-- `-adjust < delay` compares unsigned numbers. -/
def adjustDelay (delay : UInt32) (adjust : Int32) : UInt32 :=
  if adjust ≥ 0 ∨ (-adjust).toUInt32 < delay then delay + adjust.toUInt32 else 0

/-- The header of the data datagram with number `nbPackets`. -/
def dataHdr (hz : UInt64) (nbPackets : UInt32) (loopTime : Int64) : UdpDatagram :=
  let usecs64 := kTicksToUsFloor64 hz loopTime.toUInt64
  let secs := (usecs64 / usecPerSec.toUInt64).toUInt32
  { id := nbPackets.toInt32
    tvSec := secs
    tvUsec := (usecs64 - secs.toUInt64 * usecPerSec.toUInt64).toUInt32 }

/-- The loop variables after an iteration that read `tick`. -/
def nextLoop (c : UploadConfig) (s : UploadLoop) (tick : UInt32) : UploadLoop :=
  let loopTime := kUptimeTicks tick
  { delay := adjustDelay s.delay (adjustment c.packetDuration s.lastLoopTime loopTime)
    nbPackets := s.nbPackets + 1
    lastLoopTime := loopTime
    again := loopTime < c.endTime }

/-- The datagram of an iteration. -/
def turnPacket (hz : UInt64) (c : UploadConfig) (s : UploadLoop) (tick : UInt32) :
    List UInt8 :=
  samplePacket (dataHdr hz s.nbPackets (kUptimeTicks tick)) c.port c.rateInKbps c.packetSize

/-- The loop of `udp_upload`, iteration after iteration. It stops for good when it
is over and when a datagram cannot be sent. -/
def udpUploader (hz : UInt64) (c : UploadConfig) : Machine UploadLoop Turn UploadEvent where
  step s t :=
    if s.again = false then ([], none)
    else if t.sent = false then ([], none)
    else
      let s' := nextLoop c s t.tick
      (.send (turnPacket hz c s t.tick) :: (if s'.delay ≠ 0 then [.sleep s'.delay] else []),
        some s')

/-- `udp_upload` up to its loop: the tick count `start` is read and the variables
are set; `none` is the trap of `zperf_packet_duration`. -/
def startUpload (hz : UInt64) (port durationInMs packetSize rateInKbps start : UInt32) :
    Option (UploadConfig × UploadLoop) :=
  match zperfPacketDuration packetSize rateInKbps with
  | none => none
  | some packetDurationUs =>
      let packetDuration := kUsToTicksCeil32 hz packetDurationUs
      let startTime := kUptimeTicks start
      some
        ({ port := port
           packetSize := clampPacketSize packetSize
           rateInKbps := rateInKbps
           packetDuration := packetDuration
           endTime := startTime + (kMsToTicksCeil64 hz durationInMs.toUInt64).toInt64 },
          { delay := packetDuration
            nbPackets := 0
            lastLoopTime := startTime
            again := true })

/-- `zperf_upload_decode_stat` on the 52 bytes of the reply buffer. -/
def zperfUploadDecodeStat (data : List UInt8) (results : Results) : Results :=
  let stat := data.drop sizeofUdpDatagram
  { results with
    nbPacketsRcvd := word (stat.drop 28)
    nbPacketsLost := word (stat.drop 20)
    nbPacketsOutorder := word (stat.drop 24)
    totalLen := word (stat.drop 8)
    timeInUs := word (stat.drop 16) + word (stat.drop 12) * usecPerSec
    jitterInUs := word (stat.drop 36) + word (stat.drop 32) * usecPerSec }

/-- The header of the end datagram, from the `uint64_t` end time. -/
def finHdr (hz : UInt64) (nbPackets : UInt32) (endTime : UInt64) : UdpDatagram :=
  let secs := kTicksToMsCeil32 hz endTime.toUInt32 / 1000
  { id := (-nbPackets).toInt32
    tvSec := secs
    tvUsec := kTicksToUsCeil32 hz endTime.toUInt32 - secs * usecPerSec }

/-- The end datagram of `zperf_upload_fin`; its client header names no port. -/
def finPacket (hz : UInt64) (nbPackets : UInt32) (endTime : UInt64) (packetSize : UInt32) :
    List UInt8 :=
  samplePacket (finHdr hz nbPackets endTime) 0 0 packetSize

/-- A negative result of a socket call. -/
abbrev SockError := { ret : Int // ret < 0 }

/-- `sizeof(stats)` in `zperf_upload_fin`. -/
def sizeofStats : Nat := sizeofUdpDatagram + sizeofServerHdr

/-- What the calls of one attempt to fetch the statistics return. -/
structure FinTurn where
  send : Int
  setsockopt : Int
  recv : Except SockError (List UInt8)

/-- The variable `ret` and the reply buffer of `zperf_upload_fin`. -/
structure FinLoop where
  ret : Int
  stats : List UInt8
  deriving DecidableEq, Repr

def FinLoop.start : FinLoop := ⟨0, List.replicate sizeofStats 0⟩

/-- One attempt: it sends the end datagram and waits for the reply, whose bytes that do
not fit the buffer are lost. -/
def finAttempt (s : FinLoop) (t : FinTurn) : FinLoop :=
  if t.send < 0 then { s with ret := t.send }
  else if t.setsockopt < 0 then { s with ret := t.setsockopt }
  else match t.recv with
    | .error ret => { s with ret := ret }
    | .ok data =>
        let got := data.take sizeofStats
        { ret := got.length, stats := got ++ s.stats.drop got.length }

/-- `while (ret <= 0 && loop-- > 0)`; `none` when there are too few outcomes. -/
def finLoop : Nat → FinLoop → List FinTurn → Option FinLoop
  | 0, s, _ => some s
  | loop + 1, s, turns =>
      if s.ret ≤ 0 then
        match turns with
        | [] => none
        | t :: turns => finLoop loop (finAttempt s t) turns
      else some s

/-- The loop that drains the socket ends with the first failing `zsock_recv`. -/
def drains (spurious : List (Except SockError (List UInt8))) : Bool :=
  spurious.any fun
    | .error _ => true
    | .ok _ => false

/-- `zperf_upload_fin`: its value and the results after it; `none` when it does not return. -/
def zperfUploadFin (turns : List FinTurn) (spurious : List (Except SockError (List UInt8)))
    (results : Results) : Option (Int × Results) :=
  match finLoop 2 .start turns with
  | none => none
  | some s =>
      if s.ret > 0 then
        if drains spurious then some (0, zperfUploadDecodeStat s.stats results) else none
      else some (s.ret, results)

/-- A failing call's `errno`. -/
abbrev Errno := { errno : Int // 0 < errno }

/-- What the calls of `udp_upload` return. -/
structure UdpTransfer where
  startTick : UInt32
  turns : List Turn
  errno : Errno
  endTick : UInt32
  fin : List FinTurn
  spurious : List (Except SockError (List UInt8))

/-- The whole loop, to its end (`true`) or to a datagram that cannot be sent (`false`);
`none` when there are too few outcomes. -/
def uploadLoop (c : UploadConfig) : UploadLoop → List Turn → Option (Bool × UploadLoop)
  | _, [] => none
  | s, t :: turns =>
      if t.sent = false then some (false, s)
      else
        let s' := nextLoop c s t.tick
        if s'.again then uploadLoop c s' turns else some (true, s')

/-- `udp_upload`: its value and the results after it; `none` when it does not return. -/
def udpUpload (hz : UInt64) (port durationInMs packetSize rateInKbps : UInt32)
    (calls : UdpTransfer) (results : Results) : Option (Int × Results) :=
  match startUpload hz port durationInMs packetSize rateInKbps calls.startTick with
  | none => none
  | some (c, s) =>
      match uploadLoop c s calls.turns with
      | none => none
      | some (false, _) => some (-calls.errno, results)
      | some (true, s) =>
          match zperfUploadFin calls.fin calls.spurious results with
          | none => none
          | some (ret, results) =>
              if ret < 0 then some (ret, results)
              else some (0, { results with
                nbPacketsSent := s.nbPackets
                clientTimeInUs := kTicksToUsCeil32 hz
                  (ticksArg (kUptimeTicks calls.endTick - kUptimeTicks calls.startTick))
                packetSize := c.packetSize })

theorem UdpDatagram.length_bytes (hdr : UdpDatagram) : hdr.bytes.length = sizeofUdpDatagram := rfl

theorem length_clientHdr (port rate size : UInt32) : (clientHdr port rate size).length = 24 := rfl

theorem length_samplePacket (hdr : UdpDatagram) (port rate : UInt32) {size : UInt32}
    (h : size.toNat ≤ 1024) : (samplePacket hdr port rate size).length = size.toNat := by
  have filler : packetSizeMax.toNat = 1024 := rfl
  rw [samplePacket, List.length_take, List.length_append, List.length_append,
    List.length_replicate, hdr.length_bytes, length_clientHdr, filler, sizeofUdpDatagram]
  omega

theorem clampPacketSize_bounds (size : UInt32) :
    12 ≤ (clampPacketSize size).toNat ∧ (clampPacketSize size).toNat ≤ 1024 := by
  have max : packetSizeMax.toNat = 1024 := rfl
  have header : (UInt32.ofNat sizeofUdpDatagram).toNat = 12 := rfl
  unfold clampPacketSize
  split
  · omega
  · rename_i notMore
    have le := UInt32.le_iff_toNat_le.mp (UInt32.not_lt.mp notMore)
    split
    · omega
    · rename_i notLess
      simp only [sizeofUdpDatagram] at notLess
      omega

/-- What the loop of `udp_upload` starts with. -/
theorem startUpload_started {hz : UInt64} {port durationInMs packetSize rateInKbps start : UInt32}
    {c : UploadConfig} {s : UploadLoop}
    (started : startUpload hz port durationInMs packetSize rateInKbps start = some (c, s)) :
    c.packetSize = clampPacketSize packetSize ∧
      c.endTime = kUptimeTicks start + (kMsToTicksCeil64 hz durationInMs.toUInt64).toInt64 ∧
      s = ⟨c.packetDuration, 0, kUptimeTicks start, true⟩ := by
  rw [startUpload] at started
  split at started
  · contradiction
  · obtain ⟨rfl, rfl⟩ := Prod.mk.inj (Option.some.inj started)
    exact ⟨rfl, rfl, rfl⟩

theorem udpUploader_next {hz : UInt64} {c : UploadConfig} {s s' : UploadLoop} {t : Turn}
    {out : List UploadEvent} (h : (udpUploader hz c).step s t = (out, some s')) :
    s' = nextLoop c s t.tick := by
  simp only [udpUploader] at h
  split at h
  · simp at h
  · split at h
    · simp at h
    · exact (Option.some.inj (Prod.mk.inj h).2).symm

/-- The whole loop is a run of the loop's iterations. -/
theorem uploadLoop_reaches {hz : UInt64} {c : UploadConfig} {s s' : UploadLoop}
    {turns : List Turn} (started : s.again = true)
    (h : uploadLoop c s turns = some (true, s')) :
    ∃ made rest out, turns = made ++ rest ∧ (udpUploader hz c).Reaches s made out s' ∧
      s'.again = false := by
  induction turns generalizing s with
  | nil => simp [uploadLoop] at h
  | cons t turns ih =>
      unfold uploadLoop at h
      split at h
      · simp at h
      · rename_i sent
        obtain ⟨first, step⟩ : ∃ first,
            (udpUploader hz c).step s t = (first, some (nextLoop c s t.tick)) := by
          simp only [udpUploader, if_neg sent, started, Bool.true_eq_false, if_false]
          exact ⟨_, rfl⟩
        dsimp only at h
        split at h
        · rename_i goesOn
          obtain ⟨made, rest, out, split, run, ends⟩ := ih goesOn h
          refine ⟨t :: made, rest, _, ?_, (Machine.Reaches.single step).append run, ends⟩
          rw [split, List.cons_append]
        · rename_i ends
          obtain rfl := (Prod.mk.inj (Option.some.inj h)).2
          exact ⟨[t], turns, _, rfl, Machine.Reaches.single step, by simpa using ends⟩

end Zperf
