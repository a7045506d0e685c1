import Zperf.Base.Machine
import Zperf.Core.ServerSession

/-!
Start and stop of a server: one controller and the receiver thread.

The flags and the parameters of the server are written without a lock, one at a time, so
each write is a step of its own. The thread has run `k_sem_init`, with no run allowed at
first and at most one waiting.
-/

namespace Zperf

open Base

/-- `struct zperf_download_params` with the callback and its argument; pointers are
numbers, and the address is given by its bytes. -/
structure DownloadArgs where
  callback : UInt32
  userData : UInt32
  port : UInt16
  addr : List UInt8
  deriving DecidableEq, Repr

/-- Where the controller is in `zperf_udp_download` or `zperf_tcp_download`, named by the
write that is next, or in the function that stops the server. -/
inductive ControllerPc where
  | idle
  | setCallback (args : DownloadArgs)
  | setUserData (args : DownloadArgs)
  | setPort (args : DownloadArgs)
  | setRunning (args : DownloadArgs)
  | clearStop (args : DownloadArgs)
  | setAddr (args : DownloadArgs)
  | give
  | setStop
  | clearCallback
  deriving DecidableEq, Repr

/-- The static variables of a receiver, the semaphore's count, and where the two tasks
are; `serving` is the thread between `k_sem_take` and the reset of the running flag. -/
structure ServerControl (σ : Type) where
  sessionCb : UInt32
  userData : UInt32
  serverRunning : Bool
  serverStop : Bool
  serverPort : UInt16
  serverAddr : List UInt8
  serverRun : Nat
  controller : ControllerPc
  serving : Bool
  session : σ

/-- `sizeof(struct sockaddr)`. -/
def sizeofSockaddr : Nat := 16

/-- `sizeof(struct sockaddr_storage)`. -/
def sizeofSockaddrStorage : Nat := 28

/-- The semaphore's maximal count. -/
def serverRunMax : Nat := 1

inductive ControlEvent (δ : Type) where
  | accepted (args : DownloadArgs)
  | given
  | refused
  | stopped
  | begun
  | session (e : ServerEvent δ)
  | cleared
  deriving DecidableEq, Repr

/-- A call that the controller begins. -/
inductive ControlCall where
  | download (args : DownloadArgs)
  | stop
  deriving DecidableEq, Repr

/-- Whose step is next: the controller begins a call or goes on with it, or the thread
takes a step, with the result of its call of the system. -/
inductive ControlStep (α : Type) where
  | call (c : ControlCall)
  | controller
  | thread (outcome : α)
  deriving DecidableEq, Repr

section Steps

variable {σ α δ : Type}

def ServerControl.init (session : σ) : ServerControl σ :=
  ⟨0, 0, false, false, 0, List.replicate sizeofSockaddrStorage 0, 0, .idle, false, session⟩

/-- The check at the beginning of a call: `-EINVAL` without a callback, `-EALREADY` by
the running flag. -/
def beginCall (s : ServerControl σ) (c : ControlCall) :
    List (ControlEvent δ) × ServerControl σ :=
  match s.controller, c with
  | .idle, .download args =>
      if args.callback = 0 ∨ s.serverRunning then ([.refused], s)
      else ([.accepted args], { s with controller := .setCallback args })
  | .idle, .stop =>
      if s.serverRunning then ([], { s with controller := .setStop }) else ([.refused], s)
  | _, _ => ([], s)

/-- The next write of the controller. -/
def controllerStep (s : ServerControl σ) : List (ControlEvent δ) × ServerControl σ :=
  match s.controller with
  | .idle => ([], s)
  | .setCallback args =>
      ([], { s with sessionCb := args.callback, controller := .setUserData args })
  | .setUserData args =>
      ([], { s with userData := args.userData, controller := .setPort args })
  | .setPort args => ([], { s with serverPort := args.port, controller := .setRunning args })
  | .setRunning args => ([], { s with serverRunning := true, controller := .clearStop args })
  | .clearStop args => ([], { s with serverStop := false, controller := .setAddr args })
  | .setAddr args =>
      ([], { s with
        serverAddr := args.addr.take sizeofSockaddr ++ s.serverAddr.drop sizeofSockaddr
        controller := .give })
  | .give =>
      ([.given], { s with
        serverRun := if s.serverRun < serverRunMax then s.serverRun + 1 else s.serverRun
        controller := .idle })
  | .setStop => ([], { s with serverStop := true, controller := .clearCallback })
  | .clearCallback => ([.stopped], { s with sessionCb := 0, controller := .idle })

/-- The next step of `udp_receiver_thread` or `tcp_receiver_thread`; `k_sem_take` blocks
while the count is 0. -/
def receiverThread (S : ServerSession σ α δ) (s : ServerControl σ) (outcome : α) :
    List (ControlEvent δ) × Option (ServerControl σ) :=
  if ¬ s.serving then
    if s.serverRun = 0 then ([], some s)
    else ([.begun], some { s with
      serverRun := s.serverRun - 1
      serving := true
      session := S.enter s.session })
  else if S.returned s.session then
    ([.cleared], some { s with serverRunning := false, serving := false })
  else
    let next := S.step s.serverStop (s.sessionCb ≠ 0) s.session outcome
    (next.1.map .session, next.2.map fun session => { s with session := session })

/-- Any interleaving of the controller and the thread. -/
def serverControl (S : ServerSession σ α δ) :
    Machine (ServerControl σ) (ControlStep α) (ControlEvent δ) where
  step s a :=
    match a with
    | .call c => ((beginCall s c).1, some (beginCall (δ := δ) s c).2)
    | .controller => ((controllerStep s).1, some (controllerStep (δ := δ) s).2)
    | .thread outcome => receiverThread S s outcome

end Steps

end Zperf
