import Zperf.Properties.HostGrammar

/-!
The five host forms are accepted, and the address and the port are those that are written.
-/

namespace Zperf

open Base

/-- The address of a host. -/
inductive HostAddr where
  | inet (addr : BitVec 32)
  | inet6 (addr : BitVec 128)
  deriving DecidableEq, Repr

namespace HostAddr

def family : HostAddr → UInt8
  | inet _ => afInet
  | inet6 _ => afInet6

/-- Where the address is in its `sockaddr`, and its bytes. -/
def offset : HostAddr → Nat
  | inet _ => 4
  | inet6 _ => 8

def bytes : HostAddr → List UInt8
  | inet addr => networkBytes 4 addr
  | inet6 addr => networkBytes 16 addr

/-- `sizeof(struct sockaddr_in)` and `sizeof(struct sockaddr_in6)`. -/
def size : HostAddr → Nat
  | inet _ => 16
  | inet6 _ => 28

/-- The stores of the address and its family. -/
def stores (host : HostAddr) : List Store := [⟨host.offset, host.bytes⟩, storeFamily host.family]

end HostAddr

/-- The port field in network order; without a port it is as it was in `addr`. -/
def portField (addr : List UInt8) : Option Nat → List UInt8
  | some p => [UInt8.ofNat (p / 256), UInt8.ofNat (p % 256)]
  | none => field addr 2 2

/-- The text is accepted, and any `sockaddr` of the family has then the family, the address
and the port. -/
def Yields (pton : InetPton) (text : CString) (host : HostAddr) (port : Option Nat) : Prop :=
  ∃ stores, netIpaddrParse pton (terminated text) text.length = .ok (true, stores) ∧
    ∀ addr : List UInt8, host.size ≤ addr.length →
      field (Store.applyAll addr stores) 1 1 = [host.family] ∧
      field (Store.applyAll addr stores) host.offset host.bytes.length = host.bytes ∧
      field (Store.applyAll addr stores) 2 2 = portField addr port

theorem length_networkBytes (n : Nat) (addr : BitVec (8 * n)) :
    (networkBytes n addr).length = n := by
  rw [networkBytes, List.length_map, List.length_range]

theorem networkPort {p : Nat} (range : p ≤ 65535) :
    (storePort (UInt16.ofNat p)).bytes = [UInt8.ofNat (p / 256), UInt8.ofNat (p % 256)] := by
  have size : UInt16.size = 65536 := rfl
  have value : (UInt16.ofNat p).toNat = p := UInt16.toNat_ofNat_of_lt' (by omega)
  have high : (UInt16.ofNat p >>> 8).toUInt8 = UInt8.ofNat (p / 256) := by
    apply UInt8.toNat_inj.mp
    rw [UInt16.toNat_toUInt8, UInt16.toNat_shiftRight, value, UInt8.toNat_ofNat']
    rw [show (8 : UInt16).toNat % 16 = 8 from rfl, Nat.shiftRight_eq_div_pow]
  have low : (UInt16.ofNat p).toUInt8 = UInt8.ofNat (p % 256) := by
    apply UInt8.toNat_inj.mp
    rw [UInt16.toNat_toUInt8, value, UInt8.toNat_ofNat']
    omega
  rw [storePort, high, low]

theorem HostAddr.fits (host : HostAddr) :
    4 ≤ host.offset ∧ host.offset + host.bytes.length ≤ host.size ∧ 4 ≤ host.size := by
  cases host with
  | inet addr | inet6 addr =>
      simp [offset, bytes, size, length_networkBytes]

/-- What is stored of a port. -/
def portStores : Option Nat → List Store
  | some p => [storePort (UInt16.ofNat p)]
  | none => []

theorem portStores_at {port : Option Nat} {store : Store} (inside : store ∈ portStores port) :
    store.offset = 2 ∧ store.bytes.length = 2 := by
  cases port with
  | none => cases inside
  | some p =>
      obtain rfl := List.mem_singleton.mp inside
      exact ⟨rfl, rfl⟩

theorem inside_hostStores (host : HostAddr) (port : Option Nat) {size : Nat}
    (room : host.size ≤ size) : ∀ store ∈ host.stores ++ portStores port, store.Inside size := by
  obtain ⟨behind, fits, large⟩ := host.fits
  intro store among
  cases List.mem_append.mp among with
  | inr ofPort =>
      obtain ⟨offset, length⟩ := portStores_at ofPort
      rw [Store.Inside, offset, length]
      omega
  | inl ofHost =>
      simp only [HostAddr.stores, List.mem_cons, List.not_mem_nil, or_false] at ofHost
      cases ofHost with
      | inl address =>
          rw [address]
          exact Nat.le_trans fits room
      | inr family =>
          rw [family]
          simp only [Store.Inside, storeFamily, List.length_singleton]
          omega

theorem portStores_apart (port : Option Nat) {offset size : Nat}
    (apart : offset + size ≤ 2 ∨ 4 ≤ offset) :
    ∀ store ∈ portStores port, store.Apart offset size := by
  intro store ofPort
  obtain ⟨place, length⟩ := portStores_at ofPort
  rw [Store.Apart, place, length]
  exact apart

/-- An address and a family leave the port. -/
theorem hostStores_apart (host : HostAddr) : ∀ store ∈ host.stores, store.Apart 2 2 := by
  intro store among
  simp only [HostAddr.stores, List.mem_cons, List.not_mem_nil, or_false] at among
  cases among with
  | inl address =>
      rw [address, Store.Apart]
      exact .inl host.fits.1
  | inr family =>
      rw [family]
      exact .inr (Nat.le_refl 2)

/-- The fields of a `sockaddr` after the stores of an address and a port. -/
theorem fields_of_stores (host : HostAddr) (port : Option Nat) (range : ∀ p ∈ port, p ≤ 65535)
    {addr : List UInt8} (room : host.size ≤ addr.length) :
    field (Store.applyAll addr (host.stores ++ portStores port)) 1 1 = [host.family] ∧
      field (Store.applyAll addr (host.stores ++ portStores port)) host.offset
        host.bytes.length = host.bytes ∧
      field (Store.applyAll addr (host.stores ++ portStores port)) 2 2 =
        portField addr port := by
  have behind := host.fits.1
  have inside := inside_hostStores host port room
  refine ⟨?_, ?_, ?_⟩
  · exact @Store.field_applyAll_self addr [⟨host.offset, host.bytes⟩] (portStores port)
      (storeFamily host.family) inside (portStores_apart port (.inl (Nat.le_refl 2)))
  · refine @Store.field_applyAll_self addr [] (storeFamily host.family :: portStores port)
      ⟨host.offset, host.bytes⟩ inside ?_
    intro store later
    cases later with
    | head =>
        simp only [Store.Apart, storeFamily, List.length_singleton]
        omega
    | tail _ ofPort => exact portStores_apart port (.inr behind) store ofPort
  · cases port with
    | none =>
        apply Store.field_applyAll_other inside
        rw [portStores, List.append_nil]
        exact hostStores_apart host
    | some p =>
        rw [portField, ← networkPort (range p rfl)]
        exact @Store.field_applyAll_self addr host.stores [] (storePort (UInt16.ofNat p))
          inside fun _ later => absurd later List.not_mem_nil

theorem yields_of_parsed {pton : InetPton} {text : CString} (host : HostAddr)
    (port : Option Nat) (range : ∀ p ∈ port, p ≤ 65535)
    (parsed : netIpaddrParse pton (terminated text) text.length =
      .ok (true, host.stores ++ portStores port)) : Yields pton text host port :=
  ⟨_, parsed, fun _ room => fields_of_stores host port range room⟩

/-- The digits of a port are converted to it. -/
theorem convertPort_toDigits {p : Nat} (range : p ≤ 65535) :
    convertPort (Nat.toDigits 10 p) = some (UInt16.ofNat p) := by
  have number : NumberText (Nat.toDigits 10 p) [] .none (Nat.toDigits 10 p) :=
    ⟨rfl, nofun, Nat.toDigits_ne_nil, digits_of_toDigits p⟩
  have read := numeral_of_numberText number
  have size : UInt32.size = 2 ^ 32 := rfl
  rw [digitsValue_toDigits] at read
  rw [convertPort_of_strtoul number.ne_nil (strtoul_of_numeral read (by omega)),
    UInt32.toNat_ofNat_of_lt' (by omega), if_pos (by omega), UInt32.toUInt16_ofNat']

theorem length_port {p : Nat} (range : p ≤ 65535) : (Nat.toDigits 10 p).length ≤ 5 :=
  (Nat.length_toDigits_le_iff (by decide) (by decide)).mpr (by omega)

theorem portOutcome_toDigits {room size p : Nat} (stores : List Store) (range : p ≤ 65535)
    (large : 5 ≤ room) :
    portOutcome room size stores (Nat.toDigits 10 p) =
      .ok (true, stores ++ portStores (some p)) := by
  have short := length_port range
  rw [portOutcome, if_pos (by omega), convertPort_toDigits range]
  rfl

theorem notMem_toDigits {c : Char} (p : Nat) (other : isDigitOf 10 c = false) :
    c ∉ Nat.toDigits 10 p := by
  intro inside
  have digit := digits_of_toDigits p c inside
  rw [other] at digit
  exact Bool.false_ne_true digit

/-- The IPv4 text of a host, and the IPv6 text. -/
structure InetText (pton : InetPton) (h : CString) (addr : BitVec 32) : Prop where
  noNul : '\x00' ∉ h
  long : 1 ≤ h.length
  short : h.length ≤ 15
  noColon : ':' ∉ h
  noBracket : '[' ∉ h ∧ ']' ∉ h
  valid : pton.inet h = some addr

structure Inet6Text (pton : InetPton) (h : CString) (addr : BitVec 128) : Prop where
  noNul : '\x00' ∉ h
  long : 2 ≤ h.length
  short : h.length ≤ 39
  colons : 2 ≤ h.count ':'
  early : ':' ∈ h.take 16
  noBracket : '[' ∉ h ∧ ']' ∉ h
  valid : pton.inet6 h = some addr

theorem head_ne_of_notMem {c : Char} {h : CString} (notIn : c ∉ h) : h.head? ≠ some c :=
  fun same => notIn (List.mem_of_head? same)

theorem yields_inet {pton : InetPton} {h : CString} {addr : BitVec 32}
    (text : InetText pton h addr) : Yields pton h (.inet addr) none := by
  apply yields_of_parsed (.inet addr) none nofun
  have none : h.count ':' = 0 := List.count_eq_zero.mpr text.noColon
  cases h with
  | nil => exact absurd text.long (by decide)
  | cons c t =>
      have bracket : c ≠ '[' := (List.ne_of_not_mem_cons text.noBracket.1).symm
      rw [netIpaddrParse_counted text.noNul bracket, if_neg (by omega),
        List.take_of_length_le (Nat.le_trans text.short (by decide)), text.valid]
      rfl

theorem notMem_withPort {c : Char} {h : CString} (p : Nat) (notIn : c ∉ h) (colon : c ≠ ':')
    (other : isDigitOf 10 c = false) : c ∉ h ++ ':' :: Nat.toDigits 10 p := by
  intro inside
  cases List.mem_append.mp inside with
  | inl inside => exact notIn inside
  | inr inside =>
      cases inside with
      | head => exact colon rfl
      | tail _ inside => exact notMem_toDigits p other inside

theorem yields_inetPort {pton : InetPton} {h : CString} {addr : BitVec 32}
    (text : InetText pton h addr) {p : Nat} (range : p ≤ 65535) :
    Yields pton (h ++ ':' :: Nat.toDigits 10 p) (.inet addr) (some p) := by
  have noNul := notMem_withPort p text.noNul (by decide) rfl
  have noBracket := notMem_withPort p text.noBracket.1 (by decide) rfl
  apply yields_of_parsed (.inet addr) (some p) fun _ same => Option.some.inj same ▸ range
  rw [netIpaddrParse_port noNul (head_ne_of_notMem noBracket) text.noColon
    (notMem_toDigits p rfl) text.short, text.valid]
  exact portOutcome_toDigits _ range (by decide)

theorem yields_inet6 {pton : InetPton} {h : CString} {addr : BitVec 128}
    (rejects : ∀ text, ':' ∈ text → pton.inet text = none) (text : Inet6Text pton h addr) :
    Yields pton h (.inet6 addr) none := by
  apply yields_of_parsed (.inet6 addr) none nofun
  have colons := text.colons
  have invalid := rejects (h.take 16) text.early
  cases h with
  | nil => exact absurd text.long (by decide)
  | cons c t =>
      have bracket : c ≠ '[' := (List.ne_of_not_mem_cons text.noBracket.1).symm
      rw [netIpaddrParse_counted text.noNul bracket, if_neg (by omega), invalid,
        List.take_of_length_le (Nat.le_trans text.short (by decide)), text.valid]
      rfl

theorem notMem_bracketed {h rest : CString} (noNul : '\x00' ∉ h) (restNoNul : '\x00' ∉ rest) :
    '\x00' ∉ '[' :: (h ++ ']' :: rest) := by
  intro inside
  simp only [List.mem_cons, List.mem_append, Char.reduceEq, false_or] at inside
  exact inside.elim noNul restNoNul

theorem yields_inet6Brackets {pton : InetPton} {h : CString} {addr : BitVec 128}
    (text : Inet6Text pton h addr) : Yields pton ('[' :: (h ++ [']'])) (.inet6 addr) none := by
  apply yields_of_parsed (.inet6 addr) none nofun
  rw [netIpaddrParse_closed (notMem_bracketed text.noNul List.not_mem_nil) text.noBracket.2
    (Nat.le_trans text.short (by decide)), text.valid]
  rfl

theorem yields_inet6Port {pton : InetPton} {h : CString} {addr : BitVec 128}
    (text : Inet6Text pton h addr) {p : Nat} (range : p ≤ 65535) :
    Yields pton ('[' :: (h ++ ']' :: ':' :: Nat.toDigits 10 p)) (.inet6 addr) (some p) := by
  apply yields_of_parsed (.inet6 addr) (some p) fun _ same => Option.some.inj same ▸ range
  have restNoNul : '\x00' ∉ ':' :: Nat.toDigits 10 p :=
    @notMem_withPort '\x00' [] p List.not_mem_nil (by decide) rfl
  rw [netIpaddrParse_closed (notMem_bracketed text.noNul restNoNul) text.noBracket.2
    (Nat.le_trans text.short (by decide)), text.valid]
  exact portOutcome_toDigits _ range (by decide)

/-- Every host form is accepted, with the address and the port that it names. -/
theorem host_forms_accepted (pton : InetPton) (h4 h6 : CString) (addr4 : BitVec 32)
    (addr6 : BitVec 128) (p : Nat) (rejects : ∀ text, ':' ∈ text → pton.inet text = none)
    (inet : InetText pton h4 addr4) (inet6 : Inet6Text pton h6 addr6) (range : p ≤ 65535) :
    Yields pton h4 (.inet addr4) none ∧
    Yields pton (h4 ++ ':' :: Nat.toDigits 10 p) (.inet addr4) (some p) ∧
    Yields pton h6 (.inet6 addr6) none ∧
    Yields pton ('[' :: (h6 ++ [']'])) (.inet6 addr6) none ∧
    Yields pton ('[' :: (h6 ++ ']' :: ':' :: Nat.toDigits 10 p)) (.inet6 addr6) (some p) :=
  ⟨yields_inet inet, yields_inetPort inet range, yields_inet6 rejects inet6,
    yields_inet6Brackets inet6, yields_inet6Port inet6 range⟩

/-- What `inet_pton` says of 192.0.2.1 and of ::1. -/
def twoHostsPton : InetPton where
  inet := examplePton.inet
  inet6 := loopbackPton.inet6

theorem host_forms_accepted_5001 :
    Yields twoHostsPton exampleHost (.inet 0xC0000201) none ∧
    Yields twoHostsPton (exampleHost ++ ':' :: Nat.toDigits 10 5001) (.inet 0xC0000201)
      (some 5001) ∧
    Yields twoHostsPton [':', ':', '1'] (.inet6 1) none ∧
    Yields twoHostsPton ['[', ':', ':', '1', ']'] (.inet6 1) none ∧
    Yields twoHostsPton ('[' :: ([':', ':', '1'] ++ ']' :: ':' :: Nat.toDigits 10 5001))
      (.inet6 1) (some 5001) := by
  refine host_forms_accepted twoHostsPton exampleHost [':', ':', '1'] 0xC0000201 1 5001 ?_
    ⟨by decide, by decide, by decide, by decide, by decide, rfl⟩
    ⟨by decide, by decide, by decide, by decide, by decide, by decide, rfl⟩ (by decide)
  intro text colon
  apply if_neg
  intro same
  rw [same] at colon
  exact absurd colon (by decide)

end Zperf
