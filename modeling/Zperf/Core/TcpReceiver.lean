import Zperf.Core.UdpReceiver

/-!
The TCP receiver: the bytes of one receive call against the session table.

The tick count is read twice in a call, so it is given twice.
-/

namespace Zperf

open Base

/-- A call of `tcp_received`: the address kept for the connection, the number of bytes
and the two tick counts read. -/
structure TcpArrival where
  addr : SockAddr
  datalen : UInt32
  tick : UInt32
  startTick : UInt32
  deriving DecidableEq, Repr

/-- The results given to the session callback at the end of file. -/
def tcpResults (hz : UInt64) (s : Session) (tick : UInt32) : Results :=
  { Results.zero with
    totalLen := s.length.toUInt32
    timeInUs := sessionDuration hz s tick }

def startTcpSession (s : Session) (d : TcpArrival) : Session :=
  { zperfResetSessionStats s with
    startTime := kUptimeTicks d.startTick
    state := .ongoing }

/-- `STATE_ONGOING`: the bytes are counted, and no bytes end the session. -/
def tcpOngoing (hz : UInt64) (cb : Bool) (s : Session) (d : TcpArrival) :
    List Event × Session :=
  let s := updateCounter s d.datalen.toNat
  if d.datalen = 0 then
    (callSessionCb cb (.finished (tcpResults hz s d.tick)), { s with state := .completed })
  else ([], s)

/-- The `switch` of `tcp_received`; a slot that is over falls through. -/
def tcpSessionReceived (hz : UInt64) (cb : Bool) (s : Session) (d : TcpArrival) :
    List Event × Session :=
  match s.state with
  | .completed | .null =>
      (callSessionCb cb .started ++ (tcpOngoing hz cb (startTcpSession s d) d).1,
        (tcpOngoing hz cb (startTcpSession s d) d).2)
  | .ongoing => tcpOngoing hz cb s d
  | .lastPacketReceived => ([], s)

def tcpReceived (hz : UInt64) (cb : Bool) (row : Row) (d : TcpArrival) : List Event × Row :=
  match getSession row d.addr with
  | (none, row) => ([], row)
  | (some i, row) =>
      ((tcpSessionReceived hz cb (row i) d).1,
        Function.update row i (tcpSessionReceived hz cb (row i) d).2)

/-- Calls of `tcp_received` one after the other. -/
def tcpReceiver (hz : UInt64) (cb : Bool) : Machine Row TcpArrival Event where
  step row d := ((tcpReceived hz cb row d).1, some (tcpReceived hz cb row d).2)

end Zperf
