import Zperf.Properties.HostText
import Zperf.Properties.UploadTarget

/-!
The accesses of `net_ipaddr_parse`.

The address texts are cut to the size of their buffers. The port texts are copied into the
same buffers as they are.
-/

namespace Zperf

open Base

/-- A port text for which the buffer of the address has no room, behind an address that is
accepted. -/
inductive LongPort (pton : InetPton) : CString → Prop where
  | inet {h p : CString} {addr : BitVec 32} (noBracket : (h ++ ':' :: p).head? ≠ some '[')
      (notIn : ':' ∉ h) (once : ':' ∉ p) (near : h.length ≤ 15)
      (valid : pton.inet h = some addr) (long : 16 ≤ p.length) : LongPort pton (h ++ ':' :: p)
  | inet6 {h p : CString} {addr : BitVec 128} (notIn : ']' ∉ h) (near : h.length ≤ 44)
      (valid : pton.inet6 h = some addr) (long : 47 ≤ p.length) :
      LongPort pton ('[' :: (h ++ ']' :: ':' :: p))

/-- The parser makes no access outside its buffers and outside the text with its NUL, and no
copy of a negative length. -/
def StaysInside (pton : InetPton) (text : CString) : Prop :=
  ∃ parsed, netIpaddrParse pton (terminated text) text.length = .ok parsed

theorem portOutcome_ok {room size : Nat} {stores : List Store} {p : CString}
    (fits : p.length ≤ room) : ∃ parsed, portOutcome room size stores p = .ok parsed :=
  ⟨_, if_pos fits⟩

theorem portOutcome_ne_ok {room size : Nat} {stores : List Store} {p : CString}
    (long : room < p.length) (parsed : Parsed) : portOutcome room size stores p ≠ .ok parsed := by
  rw [portOutcome, if_neg (Nat.not_le_of_lt long)]
  intro same
  cases same

theorem staysInside_of_outcome {pton : InetPton} {text : CString} {result : Except Fault Parsed}
    (outcome : HostOutcome pton text result) (short : ¬ LongPort pton text) :
    ∃ parsed, result = .ok parsed := by
  cases outcome with
  | empty | unclosed | noInet6 | far | noInet | inet | inet6 | refused => exact ⟨_, rfl⟩
  | port noBracket notIn once near valid =>
      apply portOutcome_ok
      apply Nat.le_of_lt_succ
      apply Nat.lt_of_not_le
      exact fun long => short (.inet noBracket notIn once near valid long)
  | @bracket h rest addr notIn near valid =>
      unfold bracketOutcome
      split
      · apply portOutcome_ok
        apply Nat.le_of_lt_succ
        apply Nat.lt_of_not_le
        exact fun long => short (.inet6 notIn near valid long)
      · exact ⟨_, rfl⟩

/-- No access is outside unless the port text is long. -/
theorem staysInside_iff (pton : InetPton) (text : CString) (noNul : '\x00' ∉ text) :
    StaysInside pton text ↔ ¬ LongPort pton text := by
  constructor
  · intro inside long
    obtain ⟨parsed, ok⟩ := inside
    cases long with
    | inet noBracket notIn once near valid long =>
        rw [netIpaddrParse_port noNul noBracket notIn once near, valid] at ok
        exact portOutcome_ne_ok long parsed ok
    | inet6 notIn near valid long =>
        rw [netIpaddrParse_closed noNul notIn near, valid] at ok
        exact portOutcome_ne_ok long parsed ok
  · exact staysInside_of_outcome (hostOutcome pton noNul)

/-- What is outside is always written, by the port text or its NUL. -/
theorem fault_is_write {pton : InetPton} {text : CString} {fault : Fault}
    (noNul : '\x00' ∉ text)
    (faulty : netIpaddrParse pton (terminated text) text.length = .error fault) :
    fault = .write 17 ∨ fault = .write 47 := by
  have room {room size : Nat} {stores : List Store} {p : CString} {fault : Fault}
      (faulty : portOutcome room size stores p = .error fault) : fault = .write size := by
    rw [portOutcome] at faulty
    split at faulty
    · cases faulty
    · exact (Except.error.inj faulty).symm
  generalize result : netIpaddrParse pton (terminated text) text.length = outcome at faulty
  have shape := hostOutcome pton noNul
  rw [result] at shape
  cases shape with
  | empty | unclosed | noInet6 | far | noInet | inet | inet6 | refused => cases faulty
  | port => exact .inl (room faulty)
  | bracket =>
      unfold bracketOutcome at faulty
      split at faulty
      · exact .inr (room faulty)
      · cases faulty

/-- 192.0.2.1 with a port text. -/
def exampleHostPort (port : CString) : CString := exampleHost ++ ':' :: port

theorem LongPort.length {pton : InetPton} {text : CString} (long : LongPort pton text) :
    17 ≤ text.length := by
  cases long with
  | inet noBracket notIn once near valid long | inet6 notIn near valid long =>
      simp only [List.length_append, List.length_cons]
      omega

theorem staysInside_short : StaysInside examplePton (exampleHostPort examplePort) :=
  (staysInside_iff examplePton (exampleHostPort examplePort) (by decide)).mpr fun long =>
    absurd long.length (by decide)

/-- Port 80 with zeros in front. -/
theorem not_staysInside :
    netIpaddrParse examplePton (terminated (exampleHostPort (List.replicate 14 '0' ++ ['8', '0'])))
        (exampleHostPort (List.replicate 14 '0' ++ ['8', '0'])).length = .error (.write 17) ∧
      ¬ StaysInside examplePton (exampleHostPort (List.replicate 14 '0' ++ ['8', '0'])) := by
  have faulty : netIpaddrParse examplePton
      (terminated (exampleHostPort (List.replicate 14 '0' ++ ['8', '0'])))
      (exampleHostPort (List.replicate 14 '0' ++ ['8', '0'])).length = .error (.write 17) := by
    decide +kernel
  refine ⟨faulty, fun inside => ?_⟩
  obtain ⟨parsed, ok⟩ := inside
  rw [faulty] at ok
  cases ok

end Zperf
