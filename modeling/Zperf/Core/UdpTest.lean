import Zperf.Base.Exchange
import Zperf.Core.UdpUploader

/-!
A whole UDP test: one upload, the network, and the server's receiver.

`udp_upload` and `zperf_upload_fin` are cut at their calls of the system, so that the
network and the server go on in between. The server also hears other peers. A trap stops
the server and not the uploader.
-/

namespace Zperf

open Base

/-- Where `udp_upload` is, with the variables that are live there: in its loop, past it,
before a call of `zsock_send` in `zperf_upload_fin`, in `zsock_recv` after it, in the loop
that drains the socket, or returned. `left` is `loop` of `zperf_upload_fin`. -/
inductive UploadPc where
  | sending (s : UploadLoop)
  | sent (nbPackets : UInt32)
  | asking (nbPackets endTick : UInt32) (left : Nat) (s : FinLoop)
  | receiving (nbPackets endTick : UInt32) (left : Nat) (s : FinLoop)
  | draining (nbPackets endTick : UInt32) (results : Results)
  | returned (ret : Int) (results : Results)
  deriving DecidableEq, Repr

/-- What the calls of one stretch of `udp_upload` return, but for received datagrams. -/
inductive UploadCall where
  | turn (t : Turn) (errno : Errno)
  | clock (tick : UInt32)
  | ask (send setsockopt : Int)
  | recvFails (ret : SockError)

/-- The arguments of `udp_upload`, its first tick count, and the results it is given. -/
structure UploadArgs where
  hz : UInt64
  config : UploadConfig
  startTick : UInt32
  before : Results
  deriving DecidableEq, Repr

namespace UploadArgs

variable (u : UploadArgs)

/-- The results with what the client adds to them. -/
def finalResults (nbPackets endTick : UInt32) (results : Results) : Results :=
  { results with
    nbPacketsSent := nbPackets
    clientTimeInUs := kTicksToUsCeil32 u.hz
      (ticksArg (kUptimeTicks endTick - kUptimeTicks u.startTick))
    packetSize := u.config.packetSize }

/-- `udp_upload` behind `zperf_upload_fin`. -/
def finish (nbPackets endTick : UInt32) (ret : Int) (results : Results) : UploadPc :=
  if ret < 0 then .returned ret results
  else .returned 0 (u.finalResults nbPackets endTick results)

/-- The condition of the loop of `zperf_upload_fin`, and what follows the loop. -/
def askAgain (nbPackets endTick : UInt32) (left : Nat) (s : FinLoop) : UploadPc :=
  if s.ret ≤ 0 then
    match left with
    | 0 => u.finish nbPackets endTick s.ret u.before
    | left + 1 => .asking nbPackets endTick left s
  else .draining nbPackets endTick (zperfUploadDecodeStat s.stats u.before)

/-- The end of an attempt, in which `zsock_recv` gave `answer`. -/
def answered (nbPackets endTick : UInt32) (left : Nat) (s : FinLoop)
    (answer : Except SockError (List UInt8)) : UploadPc :=
  u.askAgain nbPackets endTick left (finAttempt s ⟨0, 0, answer⟩)

/-- The end datagram of this upload. -/
def endPacket (nbPackets endTick : UInt32) : List UInt8 :=
  finPacket u.hz nbPackets (kUptimeTicks endTick).toUInt64 u.config.packetSize

/-- The next stretch of the uploader: the datagrams it hands to the network, and where it
is then. A call that is not the next one changes nothing. -/
def step (pc : UploadPc) (call : UploadCall ⊕ List UInt8) : List (List UInt8) × UploadPc :=
  match pc, call with
  | .sending s, .inl (.turn t errno) =>
      if t.sent = false then ([], .returned (-errno) u.before)
      else
        let s' := nextLoop u.config s t.tick
        ([turnPacket u.hz u.config s t.tick],
          if s'.again then .sending s' else .sent s'.nbPackets)
  | .sent nbPackets, .inl (.clock tick) => ([], .asking nbPackets tick 1 .start)
  | .asking nbPackets endTick left s, .inl (.ask send setsockopt) =>
      if send < 0 then ([], u.askAgain nbPackets endTick left { s with ret := send })
      else if setsockopt < 0 then
        ([u.endPacket nbPackets endTick],
          u.askAgain nbPackets endTick left { s with ret := setsockopt })
      else ([u.endPacket nbPackets endTick], .receiving nbPackets endTick left s)
  | .receiving nbPackets endTick left s, .inl (.recvFails ret) =>
      ([], u.answered nbPackets endTick left s (.error ret))
  | .receiving nbPackets endTick left s, .inr data =>
      ([], u.answered nbPackets endTick left s (.ok data))
  | .draining nbPackets endTick results, .inl (.recvFails _) =>
      ([], .returned 0 (u.finalResults nbPackets endTick results))
  | pc, _ => ([], pc)

end UploadArgs

/-- The receiver of the server, for a datagram of the uploader, whose address is `client`,
or of another peer. -/
def serverStep (hz : UInt64) (cb : Bool) (client : Peer) (server : Option Row)
    (x : Arrival ⊕ List UInt8 × UInt32) : List Event × Option Row :=
  match server, x with
  | none, _ => ([], none)
  | some row, .inl d => if d.addr = client then ([], some row) else udpReceived hz cb row d
  | some row, .inr (data, tick) => udpReceived hz cb row ⟨client, data, tick⟩

/-- The reply to the uploader that an event is, if it is one. -/
def replyTo (client : Peer) : Event → Option (List UInt8)
  | .sendto addr reply => if addr = client then some reply else none
  | .sessionCb _ => none

/-- The two parties of a test; they have clocks of their own. -/
def udpTest (u : UploadArgs) (hz : UInt64) (cb : Bool) (client : Peer) :
    Parties UploadPc (Option Row) UploadCall Arrival UInt32 (List UInt8) (List UInt8) Event where
  left := u.step
  right := serverStep hz cb client
  message := replyTo client

/-- The start of a test: the uploader is about to send, and nothing is on its way. -/
def startTest (s : UploadLoop) (row : Row) :
    Exchange UploadPc (Option Row) (List UInt8) (List UInt8) :=
  ⟨.sending s, some row, [], []⟩

end Zperf
