import Zperf.Core.ServerSession

/-!
`udp_server_session`: two bound sockets, polled until a stop or an error.

The addresses that the sockets are bound to and the log texts are left out.
-/

namespace Zperf

/-- `SOCK_ID_MAX` of the UDP receiver. -/
def udpSockIdMax : Nat := 2

instance : NeZero udpSockIdMax := ⟨by decide⟩

/-- The call of the system that is next, or the entry of the scan after a poll. -/
inductive UdpPc where
  | socket (i : Fin udpSockIdMax)
  | bind (i : Fin udpSockIdMax)
  | poll
  | entry (i : Fin udpSockIdMax)
  | returned
  deriving DecidableEq, Repr

/-- `fds[i].fd` and `fds[i].revents`, and the row the session works on. -/
structure UdpServer where
  fd : Fin udpSockIdMax → Int32
  revents : Fin udpSockIdMax → Revents
  row : Row
  pc : UdpPc

/-- The result of the call that a step makes: its return value, what `zsock_poll` and
`zsock_recvfrom` fill in, and the tick count. `data` are the bytes that `ret` counts. -/
structure UdpOutcome where
  ret : Int32
  revents : Fin udpSockIdMax → Revents
  addr : Peer
  data : List UInt8
  tick : UInt32

namespace UdpServer

/-- Before the first run. -/
def boot : UdpServer := ⟨fun _ => -1, fun _ => .zero, bootRow, .returned⟩

def enter (s : UdpServer) : UdpServer :=
  { s with fd := fun _ => -1, revents := fun _ => .zero, pc := .socket 0 }

def cleanup (s : UdpServer) : List (ServerEvent Arrival) × Option UdpServer :=
  (closeAll s.fd, some { s with pc := .returned })

def error (cb : Bool) (s : UdpServer) : List (ServerEvent Arrival) × Option UdpServer :=
  (sessionErrorReport cb ++ s.cleanup.1, s.cleanup.2)

/-- `i++` of the scan. -/
def nextEntry (i : Fin udpSockIdMax) : UdpPc :=
  if h : i.val + 1 < udpSockIdMax then .entry ⟨i.val + 1, h⟩ else .poll

/-- `recvfrom` on entry `i` and `udp_received`. -/
def recvfrom (hz : UInt64) (cb : Bool) (s : UdpServer) (i : Fin udpSockIdMax)
    (r : UdpOutcome) : List (ServerEvent Arrival) × Option UdpServer :=
  if r.ret < 0 then s.error cb
  else
    let d : Arrival := ⟨r.addr, r.data, r.tick⟩
    (.received d :: (udpReceived hz cb s.row d).1.map .out,
      (udpReceived hz cb s.row d).2.map fun row => { s with row := row, pc := nextEntry i })

end UdpServer

/-- The next step of `udp_server_session`. -/
def udpServerSession (hz : UInt64) (stop cb : Bool) (s : UdpServer) (r : UdpOutcome) :
    List (ServerEvent Arrival) × Option UdpServer :=
  match s.pc with
  | .socket i =>
      let s := { s with fd := Function.update s.fd i r.ret }
      if r.ret < 0 then s.error cb else ([.socket r.ret], some { s with pc := .bind i })
  | .bind i =>
      if r.ret < 0 then s.error cb
      else ([], some { s with pc := if i = 0 then .socket 1 else .poll })
  | .poll =>
      if r.ret < 0 then s.error cb
      else if stop then s.cleanup
      else if r.ret = 0 then ([], some s)
      else ([], some { s with revents := r.revents, pc := .entry 0 })
  | .entry i =>
      if (s.revents i).pollerr ∨ (s.revents i).pollnval then s.error cb
      else if ¬ (s.revents i).pollin then
        ([], some { s with pc := UdpServer.nextEntry i })
      else s.recvfrom hz cb i r
  | .returned => ([], some s)

def udpServer (hz : UInt64) : ServerSession UdpServer UdpOutcome Arrival where
  enter := UdpServer.enter
  step := udpServerSession hz
  returned s := s.pc = .returned

end Zperf
