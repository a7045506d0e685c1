import Zperf.Base.ByteFields
import Zperf.Base.TextMemory
import Zperf.Core.Shell

/-!
`net_ipaddr_parse` and the parsers of the two address families.

`str` stands for the object of the text and its NUL, and an access outside it or outside a
buffer is a fault. `net_addr_pton` is `inet_pton`, which is taken to store nothing when it
fails. The address is written by stores into a `struct sockaddr`, laid out as lwIP does.
Lengths are below `2 ^ 31`.
-/

namespace Zperf

open Base

/-- `NET_IPV4_ADDR_LEN`, that is `sizeof("xxx.xxx.xxx.xxx")`. -/
def netIpv4AddrLen : Nat := 16

/-- `INET6_ADDRSTRLEN`. -/
def inet6Addrstrlen : Nat := 46

def afInet : UInt8 := 2
def afInet6 : UInt8 := 10

/-- The `n` bytes of an address in network order. -/
def networkBytes (n : Nat) (addr : BitVec (8 * n)) : List UInt8 :=
  (List.range n).map fun i => UInt8.ofBitVec (addr.extractLsb' (8 * (n - 1 - i)) 8)

def storeFamily (family : UInt8) : Store := ⟨1, [family]⟩

/-- `sin_port` and `sin6_port`, after `htons`. -/
def storePort (port : UInt16) : Store := ⟨2, [(port >>> 8).toUInt8, port.toUInt8]⟩

/-- `sin_addr`. -/
def storeInet (addr : BitVec 32) : Store := ⟨4, networkBytes 4 addr⟩

/-- `sin6_addr`. -/
def storeInet6 (addr : BitVec 128) : Store := ⟨8, networkBytes 16 addr⟩

/-- `convert_port`: the port, when it succeeds. -/
def convertPort (buf : CString) : Option UInt16 :=
  let (tmp, endptr) := strtoul 10 buf
  if (endptr = buf ∧ tmp = 0) ∨ ¬ (buf ≠ [] ∧ endptr = []) ∨ tmp.toUInt16.toUInt32 ≠ tmp then none
  else some tmp.toUInt16

/-- The value of a parser, and what it has stored into `addr`. -/
abbrev Parsed := Bool × List Store

/-- The copy of the address text and its conversion in `parse_ipv6`. -/
def convertIpv6 (pton : InetPton) (str : List Char) (length : Int) :
    Except Fault (Option (List Store)) := do
  let ipaddr ← copyText (inet6Addrstrlen + 1) str length
  return (pton.inet6 ipaddr).map fun addr6 => [storeInet6 addr6, storeFamily afInet6]

/-- The port text in `parse_ipv6`, of the length `len` or up to a NUL; for a negative `len` the
loop is not entered. -/
def convertIpv6Port (str : List Char) (len : Int) (stores : List Store) :
    Except Fault Parsed := do
  let len ← if len < 0 then pure len else (strnlen str len.toNat).map Int.ofNat
  let ipaddr ← copyText (inet6Addrstrlen + 1) str len
  match convertPort ipaddr with
  | none => return (false, stores)
  | some port => return (true, stores ++ [storePort port])

/-- `parse_ipv6`. -/
def parseIpv6 (pton : InetPton) (str : List Char) (strLen : Nat) (hasPort : Bool) :
    Except Fault Parsed := do
  let len ← strnlen str (min inet6Addrstrlen strLen)
  if hasPort = false then
    match ← convertIpv6 pton str len with
    | none => return (false, [])
    | some stores => return (true, stores)
  else
    match ← memchr ']' str len with
    | none => return (false, [])
    | some ptr =>
        let last : Int := min len (ptr - 1)
        match ← convertIpv6 pton (str.drop 1) last with
        | none => return (false, [])
        | some stores =>
            if ptr + 1 < strLen then
              let next ← charAt str (ptr + 1)
              if next = ':' then
                convertIpv6Port (str.drop (ptr + 2)) (strLen - last - 1 - 2) stores
              else return (true, stores)
            else return (true, stores)

/-- The same in `parse_ipv4`. -/
def convertIpv4 (pton : InetPton) (str : List Char) (length : Int) :
    Except Fault (Option (List Store)) := do
  let ipaddr ← copyText (netIpv4AddrLen + 1) str length
  return (pton.inet ipaddr).map fun addr4 => [storeInet addr4, storeFamily afInet]

/-- `parse_ipv4`. -/
def parseIpv4 (pton : InetPton) (str : List Char) (strLen : Nat) (hasPort : Bool) :
    Except Fault Parsed := do
  let len ← strnlen str (min netIpv4AddrLen strLen)
  if hasPort = false then
    match ← convertIpv4 pton str len with
    | none => return (false, [])
    | some stores => return (true, stores)
  else
    match ← memchr ':' str len with
    | none => return (false, [])
    | some ptr =>
        let last := min len ptr
        match ← convertIpv4 pton str last with
        | none => return (false, [])
        | some stores =>
            let port ← copyText (netIpv4AddrLen + 1) (str.drop (ptr + 1)) (strLen - last)
            match convertPort port with
            | none => return (false, stores)
            | some port => return (true, stores ++ [storePort port])

/-- `net_ipaddr_parse`. -/
def netIpaddrParse (pton : InetPton) (str : List Char) (strLen : Nat) :
    Except Fault Parsed :=
  if strLen = 0 then return (false, [])
  else do
    let first ← charAt str 0
    if first = '\x00' then return (false, [])
    else if first = '[' then parseIpv6 pton str strLen true
    else do
      let count ← countChar ':' str strLen
      if count = 1 then parseIpv4 pton str strLen true
      else
        match ← parseIpv4 pton str strLen false with
        | (true, stores) => return (true, stores)
        | (false, stores) =>
            let (ret, stores6) ← parseIpv6 pton str strLen false
            return (ret, stores ++ stores6)

end Zperf
