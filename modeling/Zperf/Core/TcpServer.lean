import Zperf.Core.ServerSession
import Zperf.Core.TcpReceiver

/-!
`tcp_server_session`: two listeners and the connections they accept, polled until a stop
or an error.

The addresses that the listeners are bound to are left out, here and in `sock_addr`:
there they only name a family in log texts.
-/

namespace Zperf

/-- `SOCK_ID_MAX` of the TCP receiver. -/
def tcpSockIdMax : Nat := sessionMax + 2

instance : NeZero tcpSockIdMax := ⟨by decide⟩

/-- The call of the system that is next, or the entry of the scan after a poll. -/
inductive TcpPc where
  | socket (i : Fin 2)
  | bind (i : Fin 2)
  | listen (i : Fin 2)
  | poll
  | entry (i : Fin tcpSockIdMax)
  | returned
  deriving DecidableEq, Repr

/-- `fds[i].fd` and `fds[i].revents`, `sock_addr`, and the row the session works on. -/
structure TcpServer where
  fd : Fin tcpSockIdMax → Int32
  revents : Fin tcpSockIdMax → Revents
  sockAddr : Fin tcpSockIdMax → SockAddr
  row : Row
  pc : TcpPc

/-- The result of the call that a step makes: its return value, what `zsock_poll` and
`zsock_accept` fill in, and the two tick counts that `tcp_received` reads. -/
structure TcpOutcome where
  ret : Int32
  revents : Fin tcpSockIdMax → Revents
  addr : Peer
  tick : UInt32
  startTick : UInt32

namespace TcpServer

/-- Before the first run. -/
def boot : TcpServer := ⟨fun _ => -1, fun _ => .zero, fun _ => none, bootRow, .returned⟩

def enter (s : TcpServer) : TcpServer := { s with fd := fun _ => -1, pc := .socket 0 }

/-- `SOCK_ID_IPV4_LISTEN` and `SOCK_ID_IPV6_LISTEN`. -/
def listener (i : Fin 2) : Fin tcpSockIdMax := i.castLE (by decide)

def isListener (i : Fin tcpSockIdMax) : Bool := i.val < 2

def cleanup (s : TcpServer) : List (ServerEvent TcpArrival) × TcpServer :=
  (closeAll s.fd, { s with
    sockAddr := fun i => if 0 ≤ s.fd i then none else s.sockAddr i
    pc := .returned })

def error (cb : Bool) (s : TcpServer) : List (ServerEvent TcpArrival) × TcpServer :=
  (sessionErrorReport cb ++ s.cleanup.1, s.cleanup.2)

/-- `i++` of the scan. -/
def nextEntry (i : Fin tcpSockIdMax) : TcpPc :=
  if h : i.val + 1 < tcpSockIdMax then .entry ⟨i.val + 1, h⟩ else .poll

/-- The first entry for a connection that holds no socket. -/
def freeEntry (s : TcpServer) : Option (Fin tcpSockIdMax) :=
  (List.finRange tcpSockIdMax).find? fun j => ¬ isListener j ∧ s.fd j < 0

/-- `zsock_accept` on listener `i`; a connection too many is closed at once. -/
def accept (cb : Bool) (s : TcpServer) (i : Fin tcpSockIdMax) (r : TcpOutcome) :
    List (ServerEvent TcpArrival) × TcpServer :=
  if r.ret < 0 then s.error cb
  else match s.freeEntry with
    | none => ([.accept r.ret, .close r.ret], { s with pc := nextEntry i })
    | some j =>
        ([.accept r.ret], { s with
          fd := Function.update s.fd j r.ret
          sockAddr := Function.update s.sockAddr j (some r.addr)
          pc := nextEntry i })

/-- `ret` after `zsock_recv`: an error is taken for the end of file. -/
def recvLen (r : TcpOutcome) : Int32 := if r.ret < 0 then 0 else r.ret

def recvReport (cb : Bool) (r : TcpOutcome) : List (ServerEvent TcpArrival) :=
  if r.ret < 0 then sessionErrorReport cb else []

/-- The call of `tcp_received` for entry `i`. -/
def arrival (s : TcpServer) (i : Fin tcpSockIdMax) (r : TcpOutcome) : TcpArrival :=
  ⟨s.sockAddr i, (recvLen r).toUInt32, r.tick, r.startTick⟩

def deliver (hz : UInt64) (cb : Bool) (s : TcpServer) (d : TcpArrival) :
    List (ServerEvent TcpArrival) × TcpServer :=
  (.received d :: (tcpReceived hz cb s.row d).1.map .out,
    { s with row := (tcpReceived hz cb s.row d).2 })

/-- `zsock_close` of entry `i`, which is free then. -/
def closeEntry (s : TcpServer) (i : Fin tcpSockIdMax) :
    List (ServerEvent TcpArrival) × TcpServer :=
  ([.close (s.fd i)], { s with
    fd := Function.update s.fd i (-1)
    sockAddr := Function.update s.sockAddr i none })

/-- `zsock_recv` on entry `i` and `tcp_received`. -/
def recv (hz : UInt64) (cb : Bool) (s : TcpServer) (i : Fin tcpSockIdMax) (r : TcpOutcome) :
    List (ServerEvent TcpArrival) × TcpServer :=
  let events := recvReport cb r ++ (s.deliver hz cb (s.arrival i r)).1
  let s := { (s.deliver hz cb (s.arrival i r)).2 with pc := nextEntry i }
  if recvLen r = 0 then (events ++ (s.closeEntry i).1, (s.closeEntry i).2) else (events, s)

end TcpServer

/-- The next step of `tcp_server_session`. -/
def tcpServerSession (hz : UInt64) (stop cb : Bool) (s : TcpServer) (r : TcpOutcome) :
    List (ServerEvent TcpArrival) × TcpServer :=
  match s.pc with
  | .socket i =>
      let s := { s with fd := Function.update s.fd (TcpServer.listener i) r.ret }
      if r.ret < 0 then s.error cb else ([.socket r.ret], { s with pc := .bind i })
  | .bind i => if r.ret < 0 then s.error cb else ([], { s with pc := .listen i })
  | .listen i =>
      if r.ret < 0 then s.error cb
      else ([], { s with pc := if i = 0 then .socket 1 else .poll })
  | .poll =>
      if r.ret < 0 then s.error cb
      else if stop then s.cleanup
      else if r.ret = 0 then ([], s)
      else ([], { s with revents := r.revents, pc := .entry 0 })
  | .entry i =>
      if (s.revents i).pollerr ∨ (s.revents i).pollnval then s.error cb
      else if ¬ (s.revents i).pollin then ([], { s with pc := TcpServer.nextEntry i })
      else if TcpServer.isListener i then s.accept cb i r
      else s.recv hz cb i r
  | .returned => ([], s)

def tcpServer (hz : UInt64) : ServerSession TcpServer TcpOutcome TcpArrival where
  enter := TcpServer.enter
  step stop cb s r :=
    ((tcpServerSession hz stop cb s r).1, some (tcpServerSession hz stop cb s r).2)
  returned s := s.pc = .returned

end Zperf
