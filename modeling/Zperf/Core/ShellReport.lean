import Zperf.Core.Shell

/-!
What the shell prints of a test: the callbacks of the sessions and of the uploads, and
`execute_upload`.

`CONFIG_NET_UDP`, `CONFIG_NET_TCP` and `CONFIG_NET_IPV6` are enabled; the ping before an
upload over IPv6 is a comment in the source. The log texts are left out.
-/

namespace Zperf

open Base

/-- Consecutive calls of `printf` and `print_number`. -/
def printed (parts : List (Option CString)) : Option CString :=
  (parts.mapM id).map List.flatten

/-- A text without conversions. -/
def text (s : String) : Option CString := some s.toList

/-- The conversion `%u` of a `printf`. -/
def unsigned (value : UInt32) : Option CString := some (decimal value)

/-- The baud rate that a receiver has counted. -/
def rateInKbps (results : Results) : UInt32 :=
  if results.timeInUs ≠ 0 then
    (results.totalLen.toUInt64 * 8 * usecPerSec.toUInt64 /
      (results.timeInUs.toUInt64 * 1024)).toUInt32
  else 0

/-- The baud rate that an uploader has counted. -/
def clientRateInKbps (results : Results) : UInt32 :=
  if results.clientTimeInUs ≠ 0 then
    (results.nbPacketsSent.toUInt64 * results.packetSize.toUInt64 * 8 * usecPerSec.toUInt64 /
      (results.clientTimeInUs.toUInt64 * 1024)).toUInt32
  else 0

/-- `udp_session_cb`. -/
def udpSessionCb : Status → Option CString
  | .started => text "New session started.\n"
  | .finished results =>
      printed [
        text "End of session!\n",
        text " duration:\t\t", printNumber results.timeInUs timeUsUnits, text "\n",
        text " received packets:\t", unsigned results.nbPacketsRcvd, text "\n",
        text " nb packets lost:\t", unsigned results.nbPacketsLost, text "\n",
        text " nb packets outorder:\t", unsigned results.nbPacketsOutorder, text "\n",
        text " jitter:\t\t\t", printNumber results.jitterInUs timeUsUnits, text "\n",
        text " rate:\t\t\t", printNumber (rateInKbps results) kbpsUnits, text "\n"]
  | .error => text "UDP session error.\n"

/-- `tcp_session_cb`. -/
def tcpSessionCb : Status → Option CString
  | .started => text "New TCP session started.\n"
  | .finished results =>
      printed [
        text "TCP session ended\n",
        text " Duration:\t\t", printNumber results.timeInUs timeUsUnits, text "\n",
        text " rate:\t\t\t", printNumber (rateInKbps results) kbpsUnits, text "\n"]
  | .error => text "TCP session error.\n"

def shellUdpUploadPrintStats (results : Results) : Option CString :=
  printed [
    text "-\nUpload completed!\n",
    text (if rateInKbps results = 0 then "LAST PACKET NOT RECEIVED!!!\n" else ""),
    text "Statistics:\t\tserver\t(client)\n",
    text "Duration:\t\t", printNumber results.timeInUs timeUsUnits,
    text "\t(", printNumber results.clientTimeInUs timeUsUnits, text ")\n",
    text "Num packets:\t\t", unsigned results.nbPacketsRcvd,
    text "\t(", unsigned results.nbPacketsSent, text ")\n",
    text "Num packets out order:\t", unsigned results.nbPacketsOutorder, text "\n",
    text "Num packets lost:\t", unsigned results.nbPacketsLost, text "\n",
    text "Jitter:\t\t\t", printNumber results.jitterInUs timeUsUnits, text "\n",
    text "Rate:\t\t\t", printNumber (rateInKbps results) kbpsUnits,
    text "\t(", printNumber (clientRateInKbps results) kbpsUnits, text ")\n"]

def shellTcpUploadPrintStats (results : Results) : Option CString :=
  printed [
    text "-\nUpload completed!\n",
    text "Duration:\t", printNumber results.clientTimeInUs timeUsUnits, text "\n",
    text "Num packets:\t", unsigned results.nbPacketsSent, text "\n",
    text "Num errors:\t", unsigned results.nbPacketsErrors, text " (retry or fail)\n",
    text "Rate:\t\t", printNumber (clientRateInKbps results) kbpsUnits, text "\n"]

/-- `udp_upload_cb`, which is given the results of an asynchronous upload. -/
def udpUploadCb : Status → Option CString
  | .started => text ""
  | .finished results => shellUdpUploadPrintStats results
  | .error => text "UDP upload failed\n"

/-- `tcp_upload_cb`. -/
def tcpUploadCb : Status → Option CString
  | .started => text ""
  | .finished results => shellTcpUploadPrintStats results
  | .error => text "TCP upload failed\n"

/-- The conversion `%d`. -/
def signed (value : Int) : CString :=
  if value < 0 then '-' :: Nat.toDigits 10 value.natAbs else Nat.toDigits 10 value.natAbs

/-- What an upload command does: it prints, it has a socket, or it hands the upload to the
work queue. -/
inductive ShellEvent where
  | print (text : CString)
  | socket (event : SocketEvent)
  | uploadAsync (proto : SessionProto) (param : UploadParams)
  deriving DecidableEq, Repr

/-- What `execute_upload` prints of the parameters. -/
def uploadHeader (param : UploadParams) : Option CString :=
  printed [
    text "Duration:\t", printNumber (param.durationMs * usecPerMsec) timeUsUnits, text "\n",
    text "Packet size:\t", unsigned param.packetSize.toUInt32, text " bytes\n",
    text "Rate:\t\t", unsigned param.rateKbps, text " kbps\n",
    text "Starting...\n"]

/-- What it prints for UDP on top of that, with the interval of `zperf_packet_duration`. -/
def udpUploadHeader (param : UploadParams) (packetDuration : UInt32) : Option CString :=
  printed [
    text "Rate:\t\t", printNumber param.rateKbps kbpsUnits, text "\n",
    text "Packet duration ",
    unsigned (if packetDuration > 1000 then packetDuration / 1000 else packetDuration),
    text (if packetDuration > 1000 then " ms\n" else " us\n")]

/-- The end of `execute_upload` after the call that starts the upload and returns `ret`. -/
def startedAsync (name : String) (proto : SessionProto) (param : UploadParams) (ret : Int) :
    Option (Int × List ShellEvent) :=
  if ret < 0 then
    (printed [text "Failed to start ", text name, text " async upload (", some (signed ret),
      text ")\n"]).map fun failed => (ret, [.print failed])
  else some (0, [.uploadAsync proto param])

/-- The end of `execute_upload` after an upload that returned. -/
def finishedUpload (name : String) (printStats : Results → Option CString)
    (upload : Int × Results × List SocketEvent) : Option (Int × List ShellEvent) :=
  let (ret, results, log) := upload
  if ret < 0 then
    (printed [text name, text " upload failed (", some (signed ret), text ")\n"]).map
      fun failed => (ret, log.map .socket ++ [.print failed])
  else (printStats results).map fun stats =>
    (0, log.map .socket ++ [.print stats])

/-- `execute_upload`: its value before the conversion to `shell_status_t`; `none` when it does
not return, or traps. `asyncRet` is the value of the call that starts an upload of the work
queue. -/
def executeUpload (hz : UInt64) (pdMsToTicks : UInt32 → UInt32) (param : UploadParams)
    (isUdp async : Bool) (calls : UploadCalls) (asyncRet : Int) :
    Option (Int × List ShellEvent) := do
  let header ← uploadHeader param
  if isUdp then
    let packetDuration ← zperfPacketDuration param.packetSize.toUInt32 param.rateKbps
    let udpHeader ← udpUploadHeader param packetDuration
    let upload := (zperfUdpUpload hz param calls .zero).bind
      (finishedUpload "UDP" shellUdpUploadPrintStats)
    let (status, log) ← (if async then startedAsync "UDP" .udp param asyncRet else upload)
    return (status, .print header :: .print udpHeader :: log)
  else
    let upload := (zperfTcpUpload hz pdMsToTicks param calls .zero).bind
      (finishedUpload "TCP" shellTcpUploadPrintStats)
    let (status, log) ← (if async then startedAsync "TCP" .tcp param asyncRet else upload)
    return (status, .print header :: log)

end Zperf
