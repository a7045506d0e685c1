import Zperf.Core.TcpServer
import Zperf.Core.TcpUploader

/-!
A whole TCP test: one upload, its connection, and the server with all its connections.

`tcp_upload` is cut at its calls of `zsock_send`, and `zperf_tcp_upload` closes the socket
behind it. What the socket has accepted is on its way until the server receives it.
-/

namespace Zperf

open Base

/-- Where `zperf_tcp_upload` is: in `sendall` with what is left of the packet, behind the
loop, or behind `zsock_close`. -/
inductive TcpUploadPc where
  | sending (s : TcpUploadLoop) (buf : List UInt8)
  | leaving (s : TcpUploadLoop)
  | closed (s : TcpUploadLoop)
  deriving DecidableEq, Repr

/-- The result of a call of `zsock_send`, and `errno` and the tick count after it. -/
structure TcpUploadAnswer where
  out : Int
  errno : Int
  tick : UInt32
  deriving DecidableEq, Repr

/-- The packet size that `tcp_upload` is called with, and the end of its loop. -/
structure TcpUploadArgs where
  packetSize : UInt32
  timepoint : UInt64
  deriving DecidableEq, Repr

namespace TcpUploadArgs

variable (u : TcpUploadArgs)

/-- The size after the clamp. -/
def size : UInt32 := clampTcpPacketSize u.packetSize

def packet : List UInt8 := tcpSamplePacket u.size

/-- The end of an iteration in which `sendall` returned `ret`. -/
def endIteration (s : TcpUploadLoop) (r : TcpUploadAnswer) (ret : Int) : TcpUploadPc :=
  let s' := nextTcpLoop u.timepoint s ⟨[], r.errno, r.tick⟩ ret
  if s'.again then .sending s' u.packet else .leaving s'

/-- The next call of the uploader: what its socket accepts, and where it is then. -/
def step (pc : TcpUploadPc) (r : TcpUploadAnswer) : List UInt8 × TcpUploadPc :=
  match pc with
  | .sending s [] => ([], u.endIteration s r 0)
  | .sending s (b :: buf) =>
      if r.out < 0 then ([], u.endIteration s r r.out)
      else ((b :: buf).take r.out.toNat, .sending s ((b :: buf).drop r.out.toNat))
  | .leaving s => ([], .closed s)
  | .closed s => ([], .closed s)

end TcpUploadArgs

/-- The uploader, the bytes on their way to the server, whether the server has accepted the
connection, and the server. -/
structure TcpTest where
  client : TcpUploadPc
  flight : List UInt8
  met : Bool
  server : TcpServer

/-- The bytes that a call of `tcp_received` takes from the connection of `client`. -/
def TcpArrival.taken (client : Peer) (d : TcpArrival) : Nat :=
  if d.addr = some client then d.datalen.toNat else 0

def takeBytes (client : Peer) (flight : List UInt8) (ds : List TcpArrival) : List UInt8 :=
  ds.foldl (fun flight d => flight.drop (d.taken client)) flight

/-- The step accepts a connection from `client`. -/
def meets (client : Peer) (r : TcpOutcome) (events : List (ServerEvent TcpArrival)) : Bool :=
  .accept r.ret ∈ events ∧ r.addr = client

/-- The uploader and the server take turns in any order. -/
def tcpTest (u : TcpUploadArgs) (hz : UInt64) (client : Peer) :
    Machine TcpTest (TcpUploadAnswer ⊕ ServerTurn TcpOutcome) (ServerEvent TcpArrival) where
  step s a :=
    match a with
    | .inl r => ([], some { s with
        client := (u.step s.client r).2
        flight := s.flight ++ (u.step s.client r).1 })
    | .inr turn =>
        let next := tcpServerSession hz turn.stop turn.cb s.server turn.outcome
        (next.1, some { s with
          flight := takeBytes client s.flight (calls next.1)
          met := s.met || meets client turn.outcome next.1
          server := next.2 })

/-- The uploader is about to send, and a run of the server begins. -/
def TcpUploadArgs.start (u : TcpUploadArgs) (server : TcpServer) : TcpTest :=
  ⟨.sending .start u.packet, [], false, server.enter⟩

end Zperf
