import Zperf.Base.Machine
import Zperf.Base.Wire
import Zperf.Core.Kernel
import Zperf.Core.Session

/-!
The UDP receiver: one datagram against the session table.

A call gives what it hands out, in order, and the row after it. There is no row
after the call when it divides by a zero counter: the processor traps there, and
what was sent before stays sent. Signed arithmetic wraps around.
-/

namespace Zperf

open Base

/-- `struct zperf_udp_datagram`, after `ntohl`. -/
structure UdpDatagram where
  id : Int32
  tvSec : UInt32
  tvUsec : UInt32
  deriving DecidableEq, Repr

/-- `sizeof(struct zperf_udp_datagram)`. -/
def sizeofUdpDatagram : Nat := 12

/-- `sizeof(struct zperf_server_hdr)`. -/
def sizeofServerHdr : Nat := 40

def UdpDatagram.read (data : List UInt8) : UdpDatagram :=
  ⟨(word data).toInt32, word (data.drop 4), word (data.drop 8)⟩

def UdpDatagram.bytes (hdr : UdpDatagram) : List UInt8 :=
  putWord hdr.id.toUInt32 ++ (putWord hdr.tvSec ++ putWord hdr.tvUsec)

/-- The ten fields of the statistics block in network order. -/
def ServerHdr.bytes (stat : ServerHdr) : List UInt8 :=
  putWord stat.flags.toUInt32 ++ (putWord stat.totalLen1.toUInt32 ++
    (putWord stat.totalLen2.toUInt32 ++ (putWord stat.stopSec.toUInt32 ++
    (putWord stat.stopUsec.toUInt32 ++ (putWord stat.errorCnt.toUInt32 ++
    (putWord stat.outorderCnt.toUInt32 ++ (putWord stat.datagrams.toUInt32 ++
    (putWord stat.jitter1.toUInt32 ++ putWord stat.jitter2.toUInt32))))))))

/-- `struct zperf_results`. -/
structure Results where
  nbPacketsSent : UInt32
  nbPacketsRcvd : UInt32
  nbPacketsLost : UInt32
  nbPacketsOutorder : UInt32
  totalLen : UInt32
  timeInUs : UInt32
  jitterInUs : UInt32
  clientTimeInUs : UInt32
  packetSize : UInt32
  nbPacketsErrors : UInt32
  deriving DecidableEq, Repr

def Results.zero : Results := ⟨0, 0, 0, 0, 0, 0, 0, 0, 0, 0⟩

/-- `enum zperf_status`, with the result passed along with it. -/
inductive Status where
  | started
  | finished (results : Results)
  | error
  deriving DecidableEq, Repr

/-- What a receiver hands out: a datagram, or a call of the session callback. -/
inductive Event where
  | sendto (addr : Peer) (reply : List UInt8)
  | sessionCb (status : Status)
  deriving DecidableEq, Repr

/-- `memcpy` of the header as received, then the block. -/
def buildReply (hdr : List UInt8) (stat : ServerHdr) : List UInt8 :=
  hdr ++ stat.bytes

/-- `zperf_receiver_send_stat`; a failed send is only logged by the callers. -/
def zperfReceiverSendStat (addr : Peer) (hdr : List UInt8) (stat : ServerHdr) : Event :=
  .sendto addr (buildReply hdr stat)

/-- `if (udp_session_cb != NULL) udp_session_cb(...)`. -/
def callSessionCb (cb : Bool) (status : Status) : List Event :=
  if cb then [.sessionCb status] else []

/-- `ULONG_MAX` of the 32-bit build. -/
def ulongMax : UInt32 := 0xFFFFFFFF

def timeDelta (ts t : UInt32) : UInt32 :=
  if t ≥ ts then t - ts else ulongMax - ts + t

/-- A call of `udp_received`: the address that `recvfrom` filled in, always IPv4 or
IPv6, the bytes received and the tick count read at the start. -/
structure Arrival where
  addr : Peer
  data : List UInt8
  tick : UInt32
  deriving DecidableEq, Repr

def Arrival.hdr (d : Arrival) : UdpDatagram := .read d.data

/-- `datalen < sizeof(struct zperf_udp_datagram)`. -/
def Arrival.short (d : Arrival) : Bool := d.data.length < sizeofUdpDatagram

/-- The end of a session is asked for by a negative id. -/
def Arrival.isEnd (d : Arrival) : Bool := d.hdr.id < 0

/-- The first data of a session: statistics reset, none counted. -/
def startSession (s : Session) (d : Arrival) : Session :=
  { zperfResetSessionStats s with
    state := .ongoing
    startTime := kUptimeTicks d.tick }

/-- The jitter after one more transit time. -/
def updateJitter (s : Session) (transitTime : Int32) : Int32 :=
  if s.lastTransitTime ≠ 0 then
    let deltaTransit := transitTime - s.lastTransitTime
    let deltaTransit := if deltaTransit < 0 then -deltaTransit else deltaTransit
    s.jitter + (deltaTransit - s.jitter) / 16
  else s.jitter

/-- The check of the header id against the next one expected. -/
def checkId (s : Session) (id : Int32) : Session :=
  if id.toUInt32 ≠ s.nextId then
    if id.toUInt32 < s.nextId then { s with outorder := s.outorder + 1 }
    else
      { s with
        error := s.error + (id.toUInt32 - s.nextId)
        nextId := (id + 1).toUInt32 }
  else { s with nextId := s.nextId + 1 }

def updateCounter (s : Session) (datalen : Nat) : Session :=
  { s with
    counter := s.counter + 1
    length := s.length + UInt64.ofNat datalen }

/-- The transit time of a datagram: its arrival against the client's time stamp. -/
def transitTime (hz : UInt64) (d : Arrival) : Int32 :=
  (timeDelta (kTicksToUsCeil32 hz (ticksArg (kUptimeTicks d.tick)))
    (d.hdr.tvSec * usecPerSec + d.hdr.tvUsec)).toInt32

def recordTransit (s : Session) (transitTime : Int32) : Session :=
  { s with
    jitter := updateJitter s transitTime
    lastTransitTime := transitTime }

/-- Data of a session that is under way. -/
def countData (hz : UInt64) (s : Session) (d : Arrival) : Session :=
  checkId (recordTransit (updateCounter s d.data.length) (transitTime hz d)) d.hdr.id

def sessionDuration (hz : UInt64) (s : Session) (tick : UInt32) : UInt32 :=
  kTicksToUsCeil32 hz (ticksArg (kUptimeTicks tick - s.startTime))

/-- The statistics block filled in at the end of a session. -/
def fillStat (s : Session) (duration : UInt32) : ServerHdr where
  flags := (0x80000000 : UInt32).toInt32
  totalLen1 := (s.length >>> 32).toUInt32.toInt32
  totalLen2 := (s.length % 0xFFFFFFFF).toUInt32.toInt32
  stopSec := (duration / usecPerSec).toInt32
  stopUsec := (duration % usecPerSec).toInt32
  errorCnt := s.error.toInt32
  outorderCnt := s.outorder.toInt32
  datagrams := s.counter.toInt32
  jitter1 := 0
  jitter2 := s.jitter

/-- The results given to the session callback; `none` is the trap of
`session->length / session->counter`. -/
def finishResults (s : Session) (duration : UInt32) : Option Results :=
  if s.counter = 0 then none
  else some { Results.zero with
    nbPacketsRcvd := s.counter
    nbPacketsLost := s.error
    nbPacketsOutorder := s.outorder
    totalLen := s.length.toUInt32
    timeInUs := duration
    jitterInUs := s.jitter.toUInt32
    packetSize := (s.length / s.counter.toUInt64).toUInt32 }

/-- The slot of a session that is over, with its statistics block. -/
def completeSession (s : Session) (stat : ServerHdr) : Session :=
  { s with
    state := .completed
    stat := stat }

/-- The end datagram of a session that is under way. -/
def finishSession (hz : UInt64) (cb : Bool) (s : Session) (d : Arrival) :
    List Event × Option Session :=
  let duration := sessionDuration hz s d.tick
  let stat := fillStat s duration
  let reply := zperfReceiverSendStat d.addr (d.data.take sizeofUdpDatagram) stat
  match finishResults s duration with
  | none => ([reply], none)
  | some results =>
      (reply :: callSessionCb cb (.finished results),
        some (completeSession s stat))

/-- The `switch` of `udp_received` on the slot that was found. -/
def sessionReceived (hz : UInt64) (cb : Bool) (s : Session) (d : Arrival) :
    List Event × Option Session :=
  match s.state with
  | .completed | .null =>
      if d.isEnd then
        ([zperfReceiverSendStat d.addr (d.data.take sizeofUdpDatagram) s.stat], some s)
      else (callSessionCb cb .started, some (startSession s d))
  | .ongoing =>
      if d.isEnd then finishSession hz cb s d else ([], some (countData hz s d))
  | .lastPacketReceived => ([], some s)

def udpReceived (hz : UInt64) (cb : Bool) (row : Row) (d : Arrival) :
    List Event × Option Row :=
  if d.short then ([], some row)
  else match getSession row (some d.addr) with
    | (none, row) => ([], some row)
    | (some i, row) =>
        ((sessionReceived hz cb (row i) d).1,
          (sessionReceived hz cb (row i) d).2.map (Function.update row i))

/-- Calls of `udp_received` one after the other, until one traps. -/
def udpReceiver (hz : UInt64) (cb : Bool) : Machine Row Arrival Event where
  step := udpReceived hz cb

end Zperf
