import Zperf.Base.Lease
import Zperf.Core.AsyncUpload
import Zperf.Core.TcpUploader

/-!
`zperf_udp_upload` and `zperf_tcp_upload`: the socket of an upload, from
`zperf_prepare_upload_sock` on.

`CONFIG_NET_CONTEXT_PRIORITY` is not defined, so the priority of the socket is never set.
The two null pointer checks are left out.
-/

namespace Zperf

open Base

/-- `EINVAL`. -/
def einval : Int := 22

/-- `struct zperf_upload_params`. -/
structure UploadParams where
  peerAddr : SockAddr
  durationMs : UInt32
  rateKbps : UInt32
  packetSize : UInt16
  tos : UInt8
  tcpNodelay : Int32
  priority : Int32
  deriving DecidableEq, Repr

def Peer.portNumber : Peer → UInt16
  | .inet port _ | .inet6 port _ => port

/-- What a socket is asked for; the values set stand with the options. -/
inductive SocketEvent where
  | socket (fd : Int) (proto : SessionProto)
  | setTos (fd : Int) (tos : UInt8)
  | setNodelay (fd : Int) (nodelay : Int32)
  | connect (fd : Int) (peer : Peer)
  | close (fd : Int)
  deriving DecidableEq, Repr

/-- A descriptor that `zsock_socket` returns. -/
abbrev Fd := { fd : Int // 0 ≤ fd }

/-- What the calls of an upload return. -/
structure UploadCalls where
  socket : Except Errno Fd
  connect : Except Errno Unit
  nodelay : Int
  udp : UdpTransfer
  tcp : TcpTransfer

/-- The option `IP_TOS`, on IPv4 sockets; whether it could be set is only logged. -/
def tosEvents (peer : Peer) (tos : UInt8) (fd : Int) : List SocketEvent :=
  match peer with
  | .inet _ _ => if tos > 0 then [.setTos fd tos] else []
  | .inet6 _ _ => []

/-- `zperf_prepare_upload_sock`: its value, a descriptor or a negative error number. -/
def zperfPrepareUploadSock (peerAddr : SockAddr) (tos : UInt8) (proto : SessionProto)
    (calls : UploadCalls) : Int × List SocketEvent :=
  match peerAddr with
  | none => (-einval, [])
  | some peer =>
      match calls.socket with
      | .error errno => (-errno, [])
      | .ok fd =>
          let opened := .socket fd proto :: (tosEvents peer tos fd ++ [.connect fd peer])
          match calls.connect with
          | .error errno => (-errno, opened ++ [.close fd])
          | .ok () => (fd, opened)

/-- `zperf_udp_upload`: its value, the results after it and what it did with sockets;
`none` when it does not return. -/
def zperfUdpUpload (hz : UInt64) (param : UploadParams) (calls : UploadCalls)
    (results : Results) : Option (Int × Results × List SocketEvent) :=
  match param.peerAddr with
  | none => some (-einval, results, [])
  | some peer =>
      let (sock, log) := zperfPrepareUploadSock param.peerAddr param.tos .udp calls
      if sock < 0 then some (sock, results, log)
      else (udpUpload hz peer.portNumber.toUInt32 param.durationMs param.packetSize.toUInt32
          param.rateKbps calls.udp results).map fun (ret, results) =>
        (ret, results, log ++ [.close sock])

/-- `zperf_tcp_upload`, in the same way. -/
def zperfTcpUpload (hz : UInt64) (pdMsToTicks : UInt32 → UInt32) (param : UploadParams)
    (calls : UploadCalls) (results : Results) : Option (Int × Results × List SocketEvent) :=
  let (sock, log) := zperfPrepareUploadSock param.peerAddr param.tos .tcp calls
  if sock < 0 then some (sock, results, log)
  else if param.tcpNodelay ≠ 0 ∧ calls.nodelay ≠ 0 then
    some (-einval, results, log ++ [.setNodelay sock param.tcpNodelay])
  else
    let log := if param.tcpNodelay ≠ 0 then log ++ [.setNodelay sock param.tcpNodelay] else log
    (tcpUpload hz pdMsToTicks param.durationMs param.packetSize.toUInt32 calls.tcp results).map
      fun (ret, results) => (ret, results, log ++ [.close sock])

end Zperf
