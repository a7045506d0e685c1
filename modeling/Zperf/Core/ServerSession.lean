import Mathlib.Algebra.GroupWithZero.Nat
import Mathlib.Data.List.FinRange
import Zperf.Core.UdpReceiver

/-!
What the two server sessions have in common.

A session is a loop around calls of the system: each step makes one, and the result of
the call is the input of the step. `stop` and `cb` are what the step finds in the stop
flag and in the callback pointer, which another task writes.
-/

namespace Zperf

/-- The bits of `revents` that are looked at. -/
structure Revents where
  pollerr : Bool
  pollnval : Bool
  pollin : Bool
  deriving DecidableEq, Repr

def Revents.zero : Revents := ⟨false, false, false⟩

/-- What a server session does: the sockets it obtains and closes, its calls of
`udp_received` or `tcp_received`, and what comes out of them. -/
inductive ServerEvent (δ : Type) where
  | socket (fd : Int32)
  | accept (fd : Int32)
  | close (fd : Int32)
  | received (d : δ)
  | out (e : Event)
  deriving DecidableEq, Repr

def ServerEvent.call {δ : Type} : ServerEvent δ → Option δ
  | .received d => some d
  | .socket _ | .accept _ | .close _ | .out _ => none

/-- The calls of `udp_received` or `tcp_received` among the events. -/
def calls {δ : Type} (events : List (ServerEvent δ)) : List δ :=
  events.filterMap ServerEvent.call

/-- `udp_server_session` or `tcp_server_session`: how a run begins, its steps, and
whether it has returned. The step has no next state when the processor traps in it. -/
structure ServerSession (σ α δ : Type) where
  enter : σ → σ
  step (stop cb : Bool) : σ → α → List (ServerEvent δ) × Option σ
  returned : σ → Bool

/-- One step of a session: what it finds in the flag and the pointer, and the result of
its call of the system. -/
structure ServerTurn (α : Type) where
  stop : Bool
  cb : Bool
  outcome : α

def ServerSession.machine {σ α δ : Type} (S : ServerSession σ α δ) :
    Base.Machine σ (ServerTurn α) (ServerEvent δ) where
  step s a := S.step a.stop a.cb s a.outcome

variable {δ : Type} {n : Nat}

/-- `tcp_session_error_report`, and the same lines of the UDP receiver. -/
def sessionErrorReport (cb : Bool) : List (ServerEvent δ) :=
  (callSessionCb cb .error).map .out

/-- The loop under `cleanup`. -/
def closeAll (fd : Fin n → Int32) : List (ServerEvent δ) :=
  ((List.finRange n).filter fun i => 0 ≤ fd i).map fun i => .close (fd i)

end Zperf
