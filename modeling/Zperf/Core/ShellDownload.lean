import Zperf.Core.NetIp
import Zperf.Core.ServerControl

/-!
`cmd_udp_download` and `cmd_tcp_download`: the commands that start a server.

The calls that start a server are written here as one step; `reaches_zperfDownload` connects
them with the writes of the controller. What is printed and `k_yield` are left out.
-/

namespace Zperf

open Base

/-- `EALREADY`. -/
def ealready : Int := 114

/-- `DEF_PORT`. -/
def defPort : UInt16 := 5001

/-- The address of a function, which is not null. -/
abbrev FunctionAddr := { address : UInt32 // address ≠ 0 }

/-- Stores into an object; a fault where one is outside. -/
def storeAll (object : List UInt8) (stores : List Store) : Except Fault (List UInt8) :=
  if ∀ store ∈ stores, store.Inside object.length then .ok (Store.applyAll object stores)
  else .error (.write object.length)

/-- `zperf_bind_host`: its status, and the port and the bytes of the address in `param`. -/
def zperfBindHost (pton : InetPton) (argv : List CString) :
    Except Fault (ShellStatus × UInt16 × List UInt8) := do
  let paramAddr := List.replicate sizeofSockaddrStorage (0 : UInt8)
  let port := match argv[1]? with
    | some text => (strtoul 10 text).1.toUInt16
    | none => defPort
  match argv[2]? with
  | none => return (kStatusShellSuccess, port, paramAddr)
  | some addrStr =>
      let (parsed, stores) ← netIpaddrParse pton (terminated addrStr) addrStr.length
      let addr ← storeAll (List.replicate sizeofSockaddr 0) stores
      -- a `bool` kept in an `int`
      let ret : Int32 := if parsed then 1 else 0
      if ret < 0 then return (ret.toUInt32, port, paramAddr)
      else return (kStatusShellSuccess, port, addr ++ paramAddr.drop sizeofSockaddr)

section Commands

variable {σ : Type}

/-- `zperf_udp_download` and `zperf_tcp_download`. -/
def zperfDownload (param : DownloadArgs) (s : ServerControl σ) : Int × ServerControl σ :=
  if param.callback = 0 then (-einval, s)
  else if s.serverRunning then (-ealready, s)
  else (0, { s with
    sessionCb := param.callback
    userData := param.userData
    serverPort := param.port
    serverRunning := true
    serverStop := false
    serverAddr := param.addr.take sizeofSockaddr ++ s.serverAddr.drop sizeofSockaddr
    serverRun := if s.serverRun < serverRunMax then s.serverRun + 1 else s.serverRun })

/-- What the two commands share: the status, and the state of the server. -/
def cmdDownload (pton : InetPton) (sessionCb : FunctionAddr) (sh : UInt32)
    (argv : List CString) (s : ServerControl σ) :
    Except Fault (ShellStatus × ServerControl σ) := do
  let (status, port, addr) ← zperfBindHost pton argv
  if status.toInt32 < 0 then return (-kStatusShellError, s)
  else
    let (ret, s) := zperfDownload ⟨sessionCb, sh, port, addr⟩ s
    if ret = -ealready then return (-kStatusShellError, s)
    else if ret < 0 then return (-kStatusShellError, s)
    else return (kStatusShellSuccess, s)

/-- `cmd_udp_download`, with the address of `udp_session_cb`. -/
def cmdUdpDownload (pton : InetPton) (udpSessionCb : FunctionAddr) (sh : UInt32)
    (argv : List CString) (udp : ServerControl σ) : Except Fault (ShellStatus × ServerControl σ) :=
  cmdDownload pton udpSessionCb sh argv udp

/-- `cmd_tcp_download`, with the address of `tcp_session_cb`. -/
def cmdTcpDownload (pton : InetPton) (tcpSessionCb : FunctionAddr) (sh : UInt32)
    (argv : List CString) (tcp : ServerControl σ) : Except Fault (ShellStatus × ServerControl σ) :=
  cmdDownload pton tcpSessionCb sh argv tcp

end Commands

end Zperf
