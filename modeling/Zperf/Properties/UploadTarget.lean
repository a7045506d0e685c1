import Zperf.Properties.UploadOptions

/-!
The target that `shell_cmd_upload` takes from a host text and a port text.

`parse_ipv4_addr` reports what it cannot parse with a negative number, which `shell_status_t`
turns into a positive one, and the test of its sign never fails. Both parsers take the port
from a number of 32 bits that `htons` cuts to 16.
-/

namespace Zperf

open Base

/-- The peer that is typed: an address text and a number of a port in front of the port
text. -/
inductive TypedTarget (pton : InetPton) (host port : CString) : Peer → Prop where
  | inet {addr : BitVec 32} {n : Nat} {rest : CString} (valid : pton.inet host = some addr)
      (number : numeral 10 port = some ⟨false, n, rest⟩) (positive : 1 ≤ n) (fits : n ≤ 65535) :
      TypedTarget pton host port (.inet (UInt16.ofNat n) addr)
  | inet6 {addr : BitVec 128} {n : Nat} {rest : CString} (valid : pton.inet6 host = some addr)
      (number : numeral 10 port = some ⟨false, n, rest⟩) (positive : 1 ≤ n) (fits : n ≤ 65535) :
      TypedTarget pton host port (.inet6 (UInt16.ofNat n) addr)

/-- An upload goes to the target that is typed, and without one the command fails. -/
structure TargetChecked (pton : InetPton) (host port : CString)
    (outcome : Except Nat ShellUpload) : Prop where
  only : ∀ param isUdp async, outcome = .ok (.execute param isUdp async) →
    ∃ peer, TypedTarget pton host port peer ∧ param.peerAddr = some peer
  refused : (¬ ∃ peer, TypedTarget pton host port peer) → outcome = .ok .failed

theorem optionArg_of_plain {arg : CString} (plain : arg.head? ≠ some '-') :
    optionArg arg = none := by
  unfold optionArg
  split <;> first | rfl | exact absurd rfl plain

/-- No status is negative. -/
theorem parsePeer_isSome (pton : InetPton) (host port : CString) :
    ∃ peer, parsePeer pton host port = some peer := by
  have notNegative (status : ShellStatus) : ¬ status < 0 := UInt32.not_lt_zero
  simp only [parsePeer, if_neg (notNegative _)]
  split
  · exact ⟨_, rfl⟩
  · exact ⟨_, rfl⟩

theorem sinPort_of_numeral {port rest : CString} {n : Nat}
    (number : numeral 10 port = some ⟨false, n, rest⟩) (positive : 1 ≤ n) (fits : n ≤ 65535) :
    (strtoul 10 port).1.toUInt16 = UInt16.ofNat n ∧ UInt16.ofNat n ≠ 0 := by
  rw [strtoul_of_numeral number (by omega)]
  refine ⟨UInt32.toUInt16_ofNat' n, fun zero => ?_⟩
  have value : (UInt16.ofNat n).toNat = n := UInt16.toNat_ofNat_of_lt' (by
    have size : UInt16.size = 65536 := rfl
    omega)
  rw [zero, UInt16.toNat_zero] at value
  omega

theorem parsePeer_of_inet6 {pton : InetPton} {host port rest : CString} {addr : BitVec 128}
    {n : Nat} (valid : pton.inet6 host = some addr)
    (number : numeral 10 port = some ⟨false, n, rest⟩) (positive : 1 ≤ n) (fits : n ≤ 65535) :
    parsePeer pton host port = some (.inet6 (UInt16.ofNat n) addr) := by
  obtain ⟨sinPort, nonzero⟩ := sinPort_of_numeral number positive fits
  have passes : ¬ kStatusShellSuccess ≠ kStatusShellSuccess := fun differ => differ rfl
  simp only [parsePeer, parseIpv6Addr, valid, sinPort, if_neg nonzero, if_neg passes]

theorem parsePeer_of_inet {pton : InetPton} {host port rest : CString} {addr : BitVec 32}
    {n : Nat} (notInet6 : pton.inet6 host = none) (valid : pton.inet host = some addr)
    (number : numeral 10 port = some ⟨false, n, rest⟩) (positive : 1 ≤ n) (fits : n ≤ 65535) :
    parsePeer pton host port = some (.inet (UInt16.ofNat n) addr) := by
  obtain ⟨sinPort, nonzero⟩ := sinPort_of_numeral number positive fits
  have fails : -kStatusShellError ≠ kStatusShellSuccess := by decide
  have notNegative : ¬ kStatusShellSuccess < 0 := by decide
  simp only [parsePeer, parseIpv6Addr, parseIpv4Addr, notInet6, valid, sinPort,
    if_neg nonzero, if_pos fails, if_neg notNegative]

theorem parsePeer_of_typed {pton : InetPton} {host port : CString} {typed : Peer}
    (target : TypedTarget pton host port typed) :
    ∃ peer, parsePeer pton host port = some peer ∧ TypedTarget pton host port peer := by
  cases target with
  | inet valid number positive fits =>
      cases valid6 : pton.inet6 host with
      | none =>
          exact ⟨_, parsePeer_of_inet valid6 valid number positive fits,
            .inet valid number positive fits⟩
      | some addr6 =>
          exact ⟨_, parsePeer_of_inet6 valid6 number positive fits,
            .inet6 valid6 number positive fits⟩
  | inet6 valid number positive fits =>
      exact ⟨_, parsePeer_of_inet6 valid number positive fits, .inet6 valid number positive fits⟩

theorem followingPositional_two (first count : Nat) :
    ∃ args, followingPositional first (count + 2) = some args ∧ args.host = first ∧
      args.port = some (first + 1) := by
  have some : ¬ count + 2 = 0 := Nat.succ_ne_zero _
  have two : 1 < count + 2 := Nat.lt_add_left count (by decide)
  rw [followingPositional, if_neg some, if_pos two]
  exact ⟨_, rfl, rfl, rfl⟩

/-- Without options an upload is always started. -/
theorem shellCmdUpload_plain (pton : InetPton) (isUdp : Bool) (cmd host port : CString)
    (more : List CString) (bounded : (cmd :: host :: port :: more).length < 2 ^ 30)
    (plain : host.head? ≠ some '-') :
    ∃ (peer : Peer) (param : UploadParams), parsePeer pton host port = some peer ∧
      shellCmdUpload pton isUdp (cmd :: host :: port :: more) =
        .ok (.execute { param with peerAddr := some peer } isUdp false) := by
  have accepted : scanOptions isUdp .initial (host :: port :: more) =
      some (UploadOptions.initial, host :: port :: more) := by
    rw [scanOptions_cons, optionArg_of_plain plain]
  have total : (cmd :: host :: port :: more).length = more.length + 2 + 1 := rfl
  obtain ⟨args, found, hostAt, portAt⟩ := followingPositional_two 1 more.length
  have places : positional (UInt32.ofNat (cmd :: host :: port :: more).length)
      UploadOptions.initial.optCnt = some args := by
    rw [positional_eq, toNat_argc_sub (by omega), ← found]
    rfl
  have inside := inside_followingPositional found
  rw [Nat.add_comm 1, ← total] at inside
  obtain ⟨host', port', param, hostOk, portOk, outcome⟩ :=
    @shellCmdUpload_inside pton isUdp (cmd :: host :: port :: more) _ _ args accepted places inside
  rw [hostAt] at hostOk
  rw [portAt] at portOk
  obtain rfl : host = host' := Except.ok.inj hostOk
  obtain rfl : port = port' := Except.ok.inj portOk
  obtain ⟨peer, parsed⟩ := parsePeer_isSome pton host port
  rw [parsed] at outcome
  exact ⟨peer, param, parsed, outcome⟩

/-- The target is checked where there is nothing to refuse. -/
theorem targetChecked_iff (pton : InetPton) (isUdp : Bool) (cmd host port : CString)
    (more : List CString) (bounded : (cmd :: host :: port :: more).length < 2 ^ 30)
    (plain : host.head? ≠ some '-') :
    TargetChecked pton host port (shellCmdUpload pton isUdp (cmd :: host :: port :: more)) ↔
      ∃ peer, TypedTarget pton host port peer := by
  obtain ⟨peer, param, parsed, outcome⟩ :=
    shellCmdUpload_plain pton isUdp cmd host port more bounded plain
  rw [outcome]
  constructor
  · intro checked
    obtain ⟨typed, target, -⟩ := checked.only _ _ _ rfl
    exact ⟨typed, target⟩
  · intro typed
    refine ⟨fun param' isUdp' async executed => ?_, fun nothing => absurd typed nothing⟩
    obtain ⟨typed, target⟩ := typed
    obtain ⟨peer', parsed', target'⟩ := parsePeer_of_typed target
    obtain ⟨rfl, -, -⟩ := ShellUpload.execute.inj (Except.ok.inj executed)
    exact ⟨peer', target', parsed.symm.trans parsed'⟩

def examplePort : CString := ['5', '0', '0', '1']

theorem typed_target_checked :
    TargetChecked examplePton exampleHost examplePort
      (shellCmdUpload examplePton true [exampleCommand, exampleHost, examplePort]) :=
  (targetChecked_iff examplePton true exampleCommand exampleHost examplePort [] (by decide)
    (by decide)).mpr ⟨.inet 5001 0xC0000201, .inet rfl rfl (by decide) (by decide)⟩

/-- An upload to the host `x` goes to port 0 of the address 0.0.0.0, and one to the port
65537 goes to port 1. -/
theorem unchecked_target_is_used :
    shellCmdUpload examplePton true [exampleCommand, ['x'], examplePort] =
        .ok (.execute ⟨some (.inet 0 0), 1000, 10, 256, 0, 0, -1⟩ true false) ∧
      ¬ TargetChecked examplePton ['x'] examplePort
        (shellCmdUpload examplePton true [exampleCommand, ['x'], examplePort]) ∧
      shellCmdUpload examplePton true
          [exampleCommand, exampleHost, ['6', '5', '5', '3', '7']] =
        .ok (.execute ⟨some (.inet 1 0xC0000201), 1000, 10, 256, 0, 0, -1⟩ true false) ∧
      ¬ TargetChecked examplePton exampleHost ['6', '5', '5', '3', '7']
        (shellCmdUpload examplePton true
          [exampleCommand, exampleHost, ['6', '5', '5', '3', '7']]) := by
  have first : shellCmdUpload examplePton true [exampleCommand, ['x'], examplePort] =
      .ok (.execute ⟨some (.inet 0 0), 1000, 10, 256, 0, 0, -1⟩ true false) := by decide
  have second : shellCmdUpload examplePton true
      [exampleCommand, exampleHost, ['6', '5', '5', '3', '7']] =
        .ok (.execute ⟨some (.inet 1 0xC0000201), 1000, 10, 256, 0, 0, -1⟩ true false) := by
    decide
  refine ⟨first, fun checked => ?_, second, fun checked => ?_⟩
  · obtain ⟨peer, target, -⟩ := checked.only _ _ _ first
    cases target with
    | inet valid | inet6 valid => simp [examplePton, exampleHost] at valid
  · obtain ⟨peer, target, -⟩ := checked.only _ _ _ second
    have number : numeral 10 ['6', '5', '5', '3', '7'] = some ⟨false, 65537, []⟩ := by decide
    cases target with
    | inet valid typed positive fits | inet6 valid typed positive fits =>
        rw [number] at typed
        obtain ⟨-, rfl, -⟩ := Numeral.mk.inj (Option.some.inj typed)
        omega

end Zperf
