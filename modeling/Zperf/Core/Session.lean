import Mathlib.Logic.Function.Basic
import Mathlib.Data.List.FinRange

/-!
The session table of zperf: the slots of one protocol, their search and reset.

A row stands for `sessions[proto]`; no function of the program touches the rows
of both protocols except `zperf_session_init`, which treats them alike. Fields
that no function reads are left out.
-/

namespace Zperf

/-- `SESSION_MAX`, that is `CONFIG_NET_ZPERF_MAX_SESSIONS`. -/
def sessionMax : Nat := 4

/-- An IP address with its port: the two layouts a `struct sockaddr` is cast to. -/
inductive Peer where
  | inet (port : UInt16) (addr : BitVec 32)
  | inet6 (port : UInt16) (addr : BitVec 128)
  deriving DecidableEq, Repr

/-- A socket address; `none` is any other family, such as that of a zeroed one. -/
abbrev SockAddr := Option Peer

inductive SaFamily where
  | unspec
  | inet
  | inet6
  deriving DecidableEq, Repr

/-- `struct net_addr`: one family tag over a union of the two address types. -/
structure NetAddr where
  family : SaFamily
  union : BitVec 128
  deriving DecidableEq, Repr

/-- The union read as `in_addr`, its first four bytes. -/
def NetAddr.inAddr (a : NetAddr) : BitVec 32 :=
  a.union.setWidth 32

/-- `net_ipaddr_copy` into the union: the other twelve bytes stay. -/
def NetAddr.copyInAddr (a : NetAddr) (addr : BitVec 32) : NetAddr :=
  { a with union := a.union.extractLsb' 32 96 ++ addr }

/-- `net_ipaddr6_copy` into the union. -/
def NetAddr.copyIn6Addr (a : NetAddr) (addr : BitVec 128) : NetAddr :=
  { a with union := addr }

/-- `enum state`. -/
inductive SessionState where
  | null
  | ongoing
  | lastPacketReceived
  | completed
  deriving DecidableEq, Repr

/-- `struct zperf_server_hdr`, in host order. -/
structure ServerHdr where
  flags : Int32
  totalLen1 : Int32
  totalLen2 : Int32
  stopSec : Int32
  stopUsec : Int32
  errorCnt : Int32
  outorderCnt : Int32
  datagrams : Int32
  jitter1 : Int32
  jitter2 : Int32
  deriving DecidableEq, Repr

def ServerHdr.zero : ServerHdr := ⟨0, 0, 0, 0, 0, 0, 0, 0, 0, 0⟩

structure Session where
  port : UInt16
  ip : NetAddr
  state : SessionState
  counter : UInt32
  nextId : UInt32
  outorder : UInt32
  error : UInt32
  length : UInt64
  startTime : Int64
  jitter : Int32
  lastTransitTime : Int32
  stat : ServerHdr
  deriving DecidableEq, Repr

/-- A slot of the static array before anything is written to it. -/
def Session.zero : Session :=
  ⟨0, ⟨.unspec, 0⟩, .null, 0, 0, 0, 0, 0, 0, 0, 0, .zero⟩

/-- `sessions[proto]`. -/
abbrev Row := Fin sessionMax → Session

def zperfResetSessionStats (s : Session) : Session :=
  { s with
    counter := 0
    startTime := 0
    nextId := 1
    length := 0
    outorder := 0
    error := 0
    jitter := 0
    lastTransitTime := 0 }

def zperfSessionInit (row : Row) : Row :=
  fun j => zperfResetSessionStats { row j with state := .null }

/-- The row that `zperf_session_init` leaves at start-up. -/
def bootRow : Row := zperfSessionInit fun _ => .zero

/-- The IPv4 comparison of the slot search. -/
def Session.matchesInet (s : Session) : SockAddr → Bool
  | some (.inet port addr) => s.ip.family = .inet ∧ s.port = port ∧ s.ip.inAddr = addr
  | _ => false

/-- The IPv6 comparison of the slot search. -/
def Session.matchesInet6 (s : Session) : SockAddr → Bool
  | some (.inet6 port addr) => s.ip.family = .inet6 ∧ s.port = port ∧ s.ip.union = addr
  | _ => false

def Session.isFree (s : Session) : Bool :=
  s.state = .null ∨ s.state = .completed

/-- The search loop over the slots that are left, with the free slot seen so
far: the slot of the peer, and the first free one before it. -/
def searchSlots (row : Row) (addr : SockAddr) :
    List (Fin sessionMax) → Option (Fin sessionMax) →
      Option (Fin sessionMax) × Option (Fin sessionMax)
  | [], free => (none, free)
  | i :: is, free =>
      if (row i).matchesInet addr then (some i, free)
      else if (row i).matchesInet6 addr then (some i, free)
      else searchSlots row addr is
        (if free = none ∧ (row i).isFree then some i else free)

/-- The key of a slot that is taken over; its state and statistics stay. -/
def Session.assign (s : Session) : SockAddr → Session
  | some (.inet port addr) =>
      { s with port := port, ip := { s.ip with family := .inet }.copyInAddr addr }
  | some (.inet6 port addr) =>
      { s with port := port, ip := { s.ip with family := .inet6 }.copyIn6Addr addr }
  | none => s

/-- `get_session`: the slot chosen, if any, and the row after the call. -/
def getSession (row : Row) (addr : SockAddr) : Option (Fin sessionMax) × Row :=
  match searchSlots row addr (List.finRange sessionMax) none with
  | (some active, _) => (some active, row)
  | (none, some free) => (some free, Function.update row free ((row free).assign addr))
  | (none, none) => (none, row)

end Zperf
