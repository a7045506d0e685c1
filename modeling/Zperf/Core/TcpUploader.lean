import Zperf.Core.UdpUploader

/-!
The TCP uploader: the loop of `tcp_upload` over `sendall`.

The results of `zsock_send`, `errno` after them and the tick counts read are inputs.
What a call of `zsock_send` accepts is an output.
-/

namespace Zperf

open Base

/-- `ENOMEM`, a positive number in the `errno.h` that is selected. -/
def enomem : Int := 12

/-- `sendall`: its value and what the socket accepted, for the results of the calls of
`zsock_send`; `none` when there are too few of them. -/
def sendall : List UInt8 → List Int → Option (Int × List (List UInt8))
  | [], _ => some (0, [])
  | _ :: _, [] => none
  | b :: buf, out :: outs =>
      if out < 0 then some (out, [])
      else (sendall ((b :: buf).drop out.toNat) outs).map fun (ret, sent) =>
        (ret, (b :: buf).take out.toNat :: sent)

/-- `sample_packet` of the TCP uploader: the flags word, then `'z'`. -/
def tcpSamplePacket (packetSize : UInt32) : List UInt8 :=
  (List.replicate 4 (0 : UInt8) ++ List.replicate (packetSizeMax.toNat - 4) (0x7A : UInt8)).take
    packetSize.toNat

/-- The clamp of the packet size in `tcp_upload`, which has no lower bound. -/
def clampTcpPacketSize (packetSize : UInt32) : UInt32 :=
  if packetSize > packetSizeMax then packetSizeMax else packetSize

/-- The variables of the loop; `again` is false once it is left. -/
structure TcpUploadLoop where
  nbPackets : UInt32
  nbErrors : UInt32
  allocErrors : UInt32
  ret : Int
  again : Bool
  deriving DecidableEq, Repr

def TcpUploadLoop.start : TcpUploadLoop := ⟨0, 0, 0, 0, true⟩

/-- One iteration as the outside answers it. -/
structure TcpTurn where
  sends : List Int
  errno : Int
  tick : UInt32
  deriving DecidableEq, Repr

/-- The loop variables after an iteration in which `sendall` returned `ret`. -/
def nextTcpLoop (timepoint : UInt64) (s : TcpUploadLoop) (t : TcpTurn) (ret : Int) :
    TcpUploadLoop :=
  let again := !sysTimepointExpired timepoint t.tick
  if ret < 0 then
    if t.errno = -enomem then
      { s with
        nbErrors := s.nbErrors + 1
        allocErrors := s.allocErrors + 1
        ret := ret
        again := again }
    else { s with nbErrors := s.nbErrors + 1, ret := -t.errno, again := false }
  else { s with nbPackets := s.nbPackets + 1, ret := ret, again := again }

/-- The loop of `tcp_upload`, iteration after iteration, with the size clamped. -/
def tcpUploader (packetSize : UInt32) (timepoint : UInt64) :
    Machine TcpUploadLoop TcpTurn (List UInt8) where
  step s t :=
    if s.again = false then ([], none)
    else match sendall (tcpSamplePacket packetSize) t.sends with
      | none => ([], none)
      | some (ret, sent) => (sent, some (nextTcpLoop timepoint s t ret))

/-- The value of `tcp_upload` after its loop. -/
def TcpUploadLoop.value (s : TcpUploadLoop) : Int := if s.ret < 0 then s.ret else 0

/-- What the calls of `tcp_upload` return; the first tick count is the one that
`sys_timepoint_calc` reads. -/
structure TcpTransfer where
  pointTick : UInt32
  startTick : UInt32
  turns : List TcpTurn
  endTick : UInt32

/-- The whole loop; `none` when there are too few outcomes. -/
def tcpUploadLoop (packetSize : UInt32) (timepoint : UInt64) :
    TcpUploadLoop → List TcpTurn → Option TcpUploadLoop
  | _, [] => none
  | s, t :: turns =>
      match sendall (tcpSamplePacket packetSize) t.sends with
      | none => none
      | some (ret, _) =>
          let s' := nextTcpLoop timepoint s t ret
          if s'.again then tcpUploadLoop packetSize timepoint s' turns else some s'

/-- `tcp_upload`: its value and the results after it; `none` when it does not return.
FreeRTOS has `pdMS_TO_TICKS`. -/
def tcpUpload (hz : UInt64) (pdMsToTicks : UInt32 → UInt32) (durationInMs packetSize : UInt32)
    (calls : TcpTransfer) (results : Results) : Option (Int × Results) :=
  let timepoint := sysTimepointCalc calls.pointTick (pdMsToTicks durationInMs)
  let packetSize := clampTcpPacketSize packetSize
  match tcpUploadLoop packetSize timepoint .start calls.turns with
  | none => none
  | some s => some (s.value, { results with
      nbPacketsSent := s.nbPackets
      clientTimeInUs := kTicksToUsCeil32 hz
        (ticksArg (kUptimeTicks calls.endTick - kUptimeTicks calls.startTick))
      packetSize := packetSize
      nbPacketsErrors := s.nbErrors })

theorem tcpUploader_step {packetSize : UInt32} {timepoint : UInt64} {s s' : TcpUploadLoop}
    {t : TcpTurn} {out : List (List UInt8)}
    (h : (tcpUploader packetSize timepoint).step s t = (out, some s')) :
    s.again = true ∧ ∃ ret, sendall (tcpSamplePacket packetSize) t.sends = some (ret, out) ∧
      s' = nextTcpLoop timepoint s t ret := by
  simp only [tcpUploader] at h
  split at h
  · simp at h
  · rename_i again
    refine ⟨by simpa using again, ?_⟩
    split at h
    · simp at h
    · rename_i ret sent answer
      obtain ⟨rfl, rfl⟩ := goesOn_inj h
      exact ⟨ret, answer, rfl⟩

/-- The whole loop is a run of the loop's iterations. -/
theorem tcpUploadLoop_reaches {packetSize : UInt32} {timepoint : UInt64} {s s' : TcpUploadLoop}
    {turns : List TcpTurn} (started : s.again = true)
    (h : tcpUploadLoop packetSize timepoint s turns = some s') :
    ∃ made rest out, turns = made ++ rest ∧
      (tcpUploader packetSize timepoint).Reaches s made out s' ∧ s'.again = false := by
  induction turns generalizing s with
  | nil => simp [tcpUploadLoop] at h
  | cons t turns ih =>
      unfold tcpUploadLoop at h
      split at h
      · simp at h
      · rename_i ret sent answer
        have step : (tcpUploader packetSize timepoint).step s t =
            (sent, some (nextTcpLoop timepoint s t ret)) := by
          simp only [tcpUploader, answer, started, Bool.true_eq_false, if_false]
        dsimp only at h
        split at h
        · rename_i goesOn
          obtain ⟨made, rest, out, split, run, ends⟩ := ih goesOn h
          refine ⟨t :: made, rest, _, ?_, (Machine.Reaches.single step).append run, ends⟩
          rw [split, List.cons_append]
        · rename_i ends
          obtain rfl := Option.some.inj h
          exact ⟨[t], turns, _, rfl, Machine.Reaches.single step, by simpa using ends⟩

theorem length_tcpSamplePacket {packetSize : UInt32} (h : packetSize.toNat ≤ 1024) :
    (tcpSamplePacket packetSize).length = packetSize.toNat := by
  have whole : packetSizeMax.toNat = 1024 := rfl
  rw [tcpSamplePacket, List.length_take, List.length_append, List.length_replicate,
    List.length_replicate, whole]
  omega

theorem clampTcpPacketSize_le (packetSize : UInt32) :
    (clampTcpPacketSize packetSize).toNat ≤ 1024 := by
  have whole : packetSizeMax.toNat = 1024 := rfl
  unfold clampTcpPacketSize
  split
  · omega
  · rename_i notMore
    have le := UInt32.le_iff_toNat_le.mp (UInt32.not_lt.mp notMore)
    omega

end Zperf
