import Zperf.Base.NumberText
import Zperf.Core.UploadSocket

/-!
`shell_cmd_upload`: the commands `udp_upload` and `tcp_upload`, up to the call of
`execute_upload`.

IPv4 and IPv6 are enabled and `CONFIG_NET_CONTEXT_PRIORITY` is not defined. Of what is printed
only `print_number` is kept.
-/

namespace Zperf

open Base

/-- The characters of an argument before its NUL. -/
abbrev CString := List Char

/-- `shell_status_t`, which has no negative enumerators. -/
abbrev ShellStatus := UInt32

def kStatusShellSuccess : ShellStatus := 0
def kStatusShellError : ShellStatus := 1

/-- The address texts that `inet_pton` accepts, and what it stores for them. -/
structure InetPton where
  inet : CString → Option (BitVec 32)
  inet6 : CString → Option (BitVec 128)

/-- The tables `TIME_US` and `TIME_US_UNIT`. -/
def timeUsUnits : List (UInt32 × CString) :=
  [(60 * 1000 * 1000, ['m']), (1000 * 1000, ['s']), (1000, ['m', 's']), (0, ['u', 's'])]

/-- The tables `KBPS` and `KBPS_UNIT`. -/
def kbpsUnits : List (UInt32 × CString) :=
  [(1024, ['M', 'b', 'p', 's']), (0, ['K', 'b', 'p', 's'])]

/-- The tables `K` and `K_UNIT`. -/
def kUnits : List (UInt32 × CString) := [(1024 * 1024, ['M']), (1024, ['K']), (0, [])]

/-- `printf` with `%u`. -/
def decimal (value : UInt32) : CString := Nat.toDigits 10 value.toNat

/-- The loop of `print_number`; `none` when it leaves the table. -/
def scanUnits (value : UInt32) : List (UInt32 × CString) → Option (UInt32 × CString)
  | [] => none
  | (divisor, unit) :: units =>
      if value < divisor then scanUnits value units else some (divisor, unit)

def printNumber (value : UInt32) (units : List (UInt32 × CString)) : Option CString :=
  (scanUnits value units).map fun (divisor, unit) =>
    if divisor ≠ 0 then
      let radix := value / divisor
      let dec := value % divisor * 100 / divisor
      decimal radix ++ ['.'] ++ (if dec < 10 then ['0'] else []) ++ decimal dec ++ [' '] ++ unit
    else decimal value ++ [' '] ++ unit

/-- The loop of `parse_number`: `strncasecmp` compares one character, which is the NUL of an
empty text. -/
def unitDivisor (suffix : CString) : List (UInt32 × CString) → UInt32
  | [] => 0
  | (divisor, unit) :: units =>
      if divisor = 0 then 0
      else if suffix.head?.map Char.toLower = unit.head?.map Char.toLower then divisor
      else unitDivisor suffix units

def parseNumber (string : CString) (units : List (UInt32 × CString)) : Int32 :=
  let (dec, suffix) := strtoul 10 string
  let divisor := unitDivisor suffix units
  if divisor = 0 then dec.toInt32 else (dec * divisor).toInt32

/-- `parse_ipv6_addr`: its status and what it leaves in `addr`. -/
def parseIpv6Addr (pton : InetPton) (host port : CString) : ShellStatus × Peer :=
  match pton.inet6 host with
  | none => (-kStatusShellError, .inet6 0 0)
  | some addr =>
      let sinPort := (strtoul 10 port).1.toUInt16
      (if sinPort = 0 then -kStatusShellError else kStatusShellSuccess, .inet6 sinPort addr)

/-- `parse_ipv4_addr`, in the same way. -/
def parseIpv4Addr (pton : InetPton) (host port : CString) : ShellStatus × Peer :=
  match pton.inet host with
  | none => (-kStatusShellError, .inet 0 0)
  | some addr =>
      let sinPort := (strtoul 10 port).1.toUInt16
      (if sinPort = 0 then -kStatusShellError else kStatusShellSuccess, .inet sinPort addr)

/-- `parse_arg`, once it has found the text of the value. -/
def parseArg (str : CString) : ShellStatus :=
  let (res, endptr, errno) := strtol (if str.take 2 = ['0', 'x'] then 16 else 10) str
  if errno ≠ 0 ∨ endptr = str then -kStatusShellError else res.toUInt32

/-- What the loop over the options keeps. -/
structure UploadOptions where
  tos : UInt8
  tcpNodelay : Int32
  async : Bool
  optCnt : UInt32
  deriving DecidableEq, Repr

def UploadOptions.initial : UploadOptions := ⟨0, 0, false, 0⟩

/-- An element with a dash in front, by the letter that follows. -/
inductive OptionArg where
  | tos (value : CString)
  | async
  | nodelay
  | unrecognized
  deriving DecidableEq, Repr

/-- The two characters that the loop looks at; `none` ends it. -/
def optionArg : CString → Option OptionArg
  | '-' :: 'S' :: value => some (.tos value)
  | '-' :: 'a' :: _ => some .async
  | '-' :: 'n' :: _ => some .nodelay
  | '-' :: _ => some .unrecognized
  | _ => none

/-- The case `-S`, on the value of `parse_arg`. -/
def UploadOptions.setTos (opts : UploadOptions) (res : ShellStatus) : Option UploadOptions :=
  let tos := res.toInt32
  if tos < 0 ∨ 255 < tos then none
  else some { opts with tos := res.toUInt8, optCnt := opts.optCnt + 2 }

/-- The loop over the options, with the elements that it has not reached; `none` when an
option is refused. The value of a bare `-S` is the next element, on which `parse_arg` moves
the loop. -/
def scanOptions (isUdp : Bool) (opts : UploadOptions) :
    List CString → Option (UploadOptions × List CString)
  | [] => some (opts, [])
  | arg :: args =>
      match optionArg arg with
      | none => some (opts, arg :: args)
      | some (.tos []) =>
          match args with
          | [] => (opts.setTos (-1)).map fun opts => (opts, [])
          | value :: args =>
              (opts.setTos (parseArg value)).bind fun opts => scanOptions isUdp opts args
      | some (.tos (c :: value)) =>
          (opts.setTos (parseArg (c :: value))).bind fun opts => scanOptions isUdp opts args
      | some .async =>
          scanOptions isUdp { opts with async := true, optCnt := opts.optCnt + 1 } args
      | some .nodelay =>
          if isUdp then none
          else scanOptions isUdp { opts with tcpNodelay := 1, optCnt := opts.optCnt + 1 } args
      | some .unrecognized => none

/-- The elements of `argv` that the parameters are read from. -/
structure Positional where
  host : Nat
  port : Option Nat
  duration : Option Nat
  packetSize : Option Nat
  rate : Option Nat
  deriving DecidableEq, Repr

/-- The tests of `argc`, from which the options have been taken; `none` for too few
parameters. -/
def positional (argc optCnt : UInt32) : Option Positional :=
  let start := optCnt.toNat
  let argc := argc - optCnt
  if argc < 2 then none
  else some {
    host := start + 1
    port := if argc > 2 then some (start + 2) else none
    duration := if argc > 3 then some (start + 3) else none
    packetSize := if argc > 4 then some (start + 4) else none
    rate := if argc > 5 then some (start + 5) else none }

/-- `argv[i]`, or `i` where that is outside `argv`. -/
def argAt (argv : List CString) (i : Nat) : Except Nat CString :=
  match argv[i]? with
  | some arg => .ok arg
  | none => .error i

/-- The value read from an element, or a default. -/
def valueOr {α : Type} (argv : List CString) (i : Option Nat) (read : CString → α)
    (default : α) : Except Nat α :=
  match i with
  | some i => (argAt argv i).map read
  | none => .ok default

/-- `DEF_PORT_STR`. -/
def defPortStr : CString := ['5', '0', '0', '1']

/-- The peer that the upload goes to; `none` when the command fails. -/
def parsePeer (pton : InetPton) (host portStr : CString) : Option Peer :=
  let (status, ipv6) := parseIpv6Addr pton host portStr
  if status ≠ kStatusShellSuccess then
    let (status, ipv4) := parseIpv4Addr pton host portStr
    if status < 0 then none else some ipv4
  else some ipv6

/-- The command fails, or it calls `execute_upload`. -/
inductive ShellUpload where
  | failed
  | execute (param : UploadParams) (isUdp async : Bool)
  deriving DecidableEq, Repr

/-- `shell_cmd_upload`, or the index of the element that it reads outside `argv`. -/
def shellCmdUpload (pton : InetPton) (isUdp : Bool) (argv : List CString) :
    Except Nat ShellUpload :=
  match scanOptions isUdp .initial argv.tail with
  | none => .ok .failed
  | some (opts, _) =>
      match positional (UInt32.ofNat argv.length) opts.optCnt with
      | none => .ok .failed
      | some args => do
          let portStr ← valueOr argv args.port id defPortStr
          let host ← argAt argv args.host
          match parsePeer pton host portStr with
          | none => return .failed
          | some peer =>
              let durationMs ← valueOr argv args.duration (fun s => 1000 * (strtoul 10 s).1) 1000
              let packetSize ← valueOr argv args.packetSize
                (fun s => (parseNumber s kUnits).toUInt32.toUInt16) 256
              -- a signed sum, taken to wrap around
              let rateKbps ← valueOr argv args.rate
                (fun s => ((parseNumber s kUnits + 1023) / 1024).toUInt32) 10
              return .execute {
                peerAddr := some peer
                durationMs, rateKbps, packetSize
                tos := opts.tos
                tcpNodelay := opts.tcpNodelay
                priority := -1 } isUdp opts.async

end Zperf
