import Zperf.Properties.HostText
import Zperf.Properties.UploadTarget

/-!
The host texts that `net_ipaddr_parse` accepts.

The forms are an address, an address with a port, and an IPv6 address in brackets, with or
without a port. All of them are accepted. The parser also accepts what is behind a bracket,
what is behind the part of the text that it looks at, and what `strtoul` skips in front of
the digits of a port.
-/

namespace Zperf

open Base

/-- A port in decimal. -/
structure PortText (p : CString) : Prop where
  nonempty : p ≠ []
  all : ∀ c ∈ p, isDigitOf 10 c = true
  range : digitsValue 10 p ≤ 65535

/-- A number that is a port once `strtoul` has read it; a negative one wraps around. -/
def ReadAsPort : Sign → Nat → Prop
  | .minus, n => n = 0 ∨ (2 ^ 32 - 65535 ≤ n ∧ n < 2 ^ 32)
  | _, n => n ≤ 65535

/-- A port with white space or a sign in front of it. -/
def LoosePort (p : CString) : Prop :=
  ∃ blanks sign digits, NumberText p blanks sign digits ∧ (blanks ≠ [] ∨ sign ≠ .none) ∧
    ReadAsPort sign (digitsValue 10 digits)

/-- The host texts. -/
inductive HostForm (pton : InetPton) : CString → Prop where
  | inet {h : CString} {addr : BitVec 32} (valid : pton.inet h = some addr) : HostForm pton h
  | inetPort {h p : CString} {addr : BitVec 32} (valid : pton.inet h = some addr)
      (port : PortText p) : HostForm pton (h ++ ':' :: p)
  | inet6 {h : CString} {addr : BitVec 128} (valid : pton.inet6 h = some addr) : HostForm pton h
  | inet6Brackets {h : CString} {addr : BitVec 128} (valid : pton.inet6 h = some addr) :
      HostForm pton ('[' :: (h ++ [']']))
  | inet6Port {h p : CString} {addr : BitVec 128} (valid : pton.inet6 h = some addr)
      (port : PortText p) : HostForm pton ('[' :: (h ++ ']' :: ':' :: p))

/-- The texts that are accepted with further characters in them. -/
inductive Mistaken (pton : InetPton) : CString → Prop where
  | behindBracket {h rest : CString} {addr : BitVec 128} (notIn : ']' ∉ h)
      (near : h.length ≤ 44) (valid : pton.inet6 h = some addr) (nonempty : rest ≠ [])
      (noColon : rest.head? ≠ some ':') : Mistaken pton ('[' :: (h ++ ']' :: rest))
  | inetPort {h p : CString} {addr : BitVec 32} (noBracket : (h ++ ':' :: p).head? ≠ some '[')
      (notIn : ':' ∉ h) (once : ':' ∉ p) (near : h.length ≤ 15)
      (valid : pton.inet h = some addr) (room : p.length ≤ 15) (loose : LoosePort p) :
      Mistaken pton (h ++ ':' :: p)
  | inet6Port {h p : CString} {addr : BitVec 128} (notIn : ']' ∉ h) (near : h.length ≤ 44)
      (valid : pton.inet6 h = some addr) (room : p.length ≤ 46) (loose : LoosePort p) :
      Mistaken pton ('[' :: (h ++ ']' :: ':' :: p))
  | inetCut {text : CString} {addr : BitVec 32} (noBracket : text.head? ≠ some '[')
      (notOnce : text.count ':' ≠ 1) (long : 16 < text.length)
      (valid : pton.inet (text.take 16) = some addr) : Mistaken pton text
  | inet6Cut {text : CString} {addr : BitVec 128} (noBracket : text.head? ≠ some '[')
      (notOnce : text.count ':' ≠ 1) (long : 46 < text.length)
      (invalid : pton.inet (text.take 16) = none)
      (valid : pton.inet6 (text.take 46) = some addr) : Mistaken pton text

def Accepts (pton : InetPton) (text : CString) : Prop :=
  ∃ stores, netIpaddrParse pton (terminated text) text.length = .ok (true, stores)

theorem convertPort_of_strtoul {p : CString} {value : UInt32} (nonempty : p ≠ [])
    (read : strtoul 10 p = (value, [])) :
    convertPort p = if value.toNat < 65536 then some value.toUInt16 else none := by
  have narrow : value.toUInt16.toUInt32 ≠ value ↔ ¬ value.toNat < 65536 := by
    rw [ne_eq, ← UInt32.toNat_inj, UInt16.toNat_toUInt32, UInt32.toNat_toUInt16]
    omega
  have elsewhere : ¬ ([] = p) := fun same => nonempty same.symm
  simp only [convertPort, read, narrow]
  by_cases fits : value.toNat < 65536
  · simp [fits, nonempty, elsewhere]
  · simp [fits]

theorem toNat_strtoul {p blanks digits : CString} {sign : Sign}
    (number : NumberText p blanks sign digits) :
    ∃ value, strtoul 10 p = (value, []) ∧
      (value.toNat < 65536 ↔ ReadAsPort sign (digitsValue 10 digits)) := by
  have read := numeral_of_numberText number
  have size : UInt32.size = 2 ^ 32 := rfl
  simp only [strtoul, read]
  by_cases large : 2 ^ 32 ≤ digitsValue 10 digits
  · refine ⟨UInt32.ofNat (2 ^ 32 - 1), if_pos large, ?_⟩
    cases sign with
    | none | plus | minus =>
        simp only [ReadAsPort]
        exact iff_of_false (by decide) (by omega)
  · rw [if_neg large]
    have exact := @UInt32.toNat_ofNat_of_lt' (digitsValue 10 digits) (by omega)
    cases sign with
    | none | plus =>
        refine ⟨_, rfl, ?_⟩
        rw [exact]
        exact Nat.lt_succ_iff
    | minus =>
        refine ⟨_, rfl, ?_⟩
        rw [UInt32.toNat_neg, exact, ReadAsPort, size]
        omega

theorem convertPort_isSome_of_number {p blanks digits : CString} {sign : Sign}
    (number : NumberText p blanks sign digits) :
    (convertPort p).isSome ↔ ReadAsPort sign (digitsValue 10 digits) := by
  obtain ⟨value, read, range⟩ := toNat_strtoul number
  rw [convertPort_of_strtoul number.ne_nil read, ← range]
  split <;> simp_all

theorem number_of_convertPort {p : CString} (accepted : (convertPort p).isSome) :
    ∃ blanks sign digits, NumberText p blanks sign digits := by
  cases read : numeral 10 p with
  | none =>
      simp [convertPort, strtoul, read] at accepted
  | some n =>
      obtain ⟨negative, magnitude, rest⟩ := n
      cases rest with
      | nil =>
          obtain ⟨blanks, sign, digits, number, -, -⟩ := numberText_of_numeral read
          exact ⟨blanks, sign, digits, number⟩
      | cons c rest =>
          have ends : (strtoul 10 p).2 = c :: rest := by
            simp only [strtoul, read]
            split
            · rfl
            · split <;> rfl
          simp [convertPort, ends] at accepted

/-- A port text is accepted as a port, and with white space or a sign in front. -/
theorem convertPort_isSome_iff (p : CString) :
    (convertPort p).isSome ↔ PortText p ∨ LoosePort p := by
  have plain (digits : CString) (nonempty : digits ≠ [])
      (all : ∀ c ∈ digits, isDigitOf 10 c = true) : NumberText digits [] .none digits :=
    ⟨rfl, nofun, nonempty, all⟩
  constructor
  · intro accepted
    obtain ⟨blanks, sign, digits, number⟩ := number_of_convertPort accepted
    have range := (convertPort_isSome_of_number number).mp accepted
    by_cases extra : blanks ≠ [] ∨ sign ≠ .none
    · exact .inr ⟨blanks, sign, digits, number, extra, range⟩
    · obtain ⟨rfl, rfl⟩ : blanks = [] ∧ sign = .none := by simpa [not_or] using extra
      obtain rfl : p = digits := number.whole
      exact .inl ⟨number.nonempty, number.all, range⟩
  · intro port
    cases port with
    | inl text =>
        exact (convertPort_isSome_of_number (plain p text.nonempty text.all)).mpr text.range
    | inr loose =>
        obtain ⟨blanks, sign, digits, number, -, range⟩ := loose
        exact (convertPort_isSome_of_number number).mpr range

theorem portOutcome_accepts_iff {room size : Nat} {stores : List Store} {p : CString} :
    (∃ after, portOutcome room size stores p = .ok (true, after)) ↔
      p.length ≤ room ∧ (PortText p ∨ LoosePort p) := by
  rw [← convertPort_isSome_iff, portOutcome]
  by_cases fits : p.length ≤ room
  · rw [if_pos fits, and_iff_right fits]
    cases convertPort p with
    | none => simp
    | some port => simp
  · rw [if_neg fits]
    simp [fits]

theorem bracketOutcome_accepts_iff {stores : List Store} {rest : CString} :
    (∃ after, bracketOutcome stores rest = .ok (true, after)) ↔
      ∀ p, rest = ':' :: p → p.length ≤ 46 ∧ (PortText p ∨ LoosePort p) := by
  unfold bracketOutcome
  split
  · rename_i port
    rw [portOutcome_accepts_iff]
    constructor
    · intro accepted p same
      obtain rfl := (List.cons.inj same).2
      exact accepted
    · intro accepted
      exact accepted port rfl
  · rename_i noColon
    exact iff_of_true ⟨_, rfl⟩ fun p same => absurd same (noColon p)

/-- Every text that is accepted is a form, or is mistaken for one. -/
theorem form_of_accepts {pton : InetPton} {text : CString} (noNul : '\x00' ∉ text)
    (accepted : Accepts pton text) : HostForm pton text ∨ Mistaken pton text := by
  obtain ⟨stores, accepted⟩ := accepted
  generalize result : netIpaddrParse pton (terminated text) text.length = outcome at accepted
  have shape := hostOutcome pton noNul
  rw [result] at shape
  cases shape with
  | empty | unclosed | noInet6 | far | noInet | refused => cases accepted
  | @bracket h rest addr notIn near valid =>
      have port := bracketOutcome_accepts_iff.mp ⟨stores, accepted⟩
      cases rest with
      | nil => exact .inl (.inet6Brackets valid)
      | cons c p =>
          by_cases colon : c = ':'
          · obtain rfl := colon
            obtain ⟨room, port⟩ := port p rfl
            cases port with
            | inl port => exact .inl (.inet6Port valid port)
            | inr loose => exact .inr (.inet6Port notIn near valid room loose)
          · exact .inr (.behindBracket notIn near valid nofun fun same =>
              colon (Option.some.inj same))
  | @port h p addr noBracket notIn once near valid =>
      obtain ⟨room, port⟩ := portOutcome_accepts_iff.mp ⟨stores, accepted⟩
      cases port with
      | inl port => exact .inl (.inetPort valid port)
      | inr loose => exact .inr (.inetPort noBracket notIn once near valid room loose)
  | inet noBracket nonempty notOnce valid =>
      by_cases long : 16 < text.length
      · exact .inr (.inetCut noBracket notOnce long valid)
      · rw [List.take_of_length_le (by omega)] at valid
        exact .inl (.inet valid)
  | inet6 noBracket nonempty notOnce invalid valid =>
      by_cases long : 46 < text.length
      · exact .inr (.inet6Cut noBracket notOnce long invalid valid)
      · rw [List.take_of_length_le (by omega)] at valid
        exact .inl (.inet6 valid)

theorem accepts_of_mistaken {pton : InetPton} {text : CString} (noNul : '\x00' ∉ text)
    (mistaken : Mistaken pton text) : Accepts pton text := by
  cases mistaken with
  | @behindBracket h rest addr notIn near valid nonempty noColon =>
      rw [Accepts, netIpaddrParse_closed noNul notIn near, valid]
      apply bracketOutcome_accepts_iff.mpr
      intro p same
      exact absurd (congrArg List.head? same) noColon
  | inetPort noBracket notIn once near valid room loose =>
      rw [Accepts, netIpaddrParse_port noNul noBracket notIn once near, valid]
      exact portOutcome_accepts_iff.mpr ⟨room, .inr loose⟩
  | @inet6Port h p addr notIn near valid room loose =>
      rw [Accepts, netIpaddrParse_closed noNul notIn near, valid]
      apply bracketOutcome_accepts_iff.mpr
      intro p' same
      obtain rfl := (List.cons.inj same).2
      exact ⟨room, .inr loose⟩
  | inetCut noBracket notOnce long valid =>
      cases text with
      | nil => exact absurd long (by decide)
      | cons c t =>
          rw [Accepts, netIpaddrParse_counted noNul fun same => noBracket (congrArg some same),
            if_neg notOnce, valid]
          exact ⟨_, rfl⟩
  | inet6Cut noBracket notOnce long invalid valid =>
      cases text with
      | nil => exact absurd long (by decide)
      | cons c t =>
          rw [Accepts, netIpaddrParse_counted noNul fun same => noBracket (congrArg some same),
            if_neg notOnce, invalid, valid]
          exact ⟨_, rfl⟩

/-- What the texts of addresses have in common. -/
structure OrdinaryTexts (pton : InetPton) : Prop where
  inet : ∀ h addr, pton.inet h = some addr → ':' ∉ h ∧ '[' ∉ h ∧ h.length ≤ 15
  inet6 : ∀ h addr, pton.inet6 h = some addr →
    2 ≤ h.count ':' ∧ '[' ∉ h ∧ ']' ∉ h ∧ h.length ≤ 45

theorem delimiter_unique {c : Char} {h h' p p' : CString} (notIn : c ∉ h) (notIn' : c ∉ h')
    (same : h ++ c :: p = h' ++ c :: p') : h = h' ∧ p = p' := by
  induction h generalizing h' with
  | nil =>
      cases h' with
      | nil => exact ⟨rfl, (List.cons.inj same).2⟩
      | cons d h' => exact absurd (List.cons.inj same).1 (List.ne_of_not_mem_cons notIn')
  | cons d h ih =>
      cases h' with
      | nil => exact absurd (List.cons.inj same).1.symm (List.ne_of_not_mem_cons notIn)
      | cons d' h' =>
          obtain ⟨rfl, tail⟩ := List.cons.inj same
          obtain ⟨rfl, rfl⟩ := ih (List.not_mem_of_not_mem_cons notIn)
            (List.not_mem_of_not_mem_cons notIn') tail
          exact ⟨rfl, rfl⟩

theorem not_portText_of_loose {p : CString} (loose : LoosePort p) : ¬ PortText p := by
  intro port
  obtain ⟨blanks, sign, digits, number, extra, -⟩ := loose
  have all := port.all
  rw [number.whole] at all
  cases blanks with
  | cons b blanks =>
      have space := number.spaces b List.mem_cons_self
      rw [not_space_of_digit (all b List.mem_cons_self)] at space
      cases space
  | nil =>
      cases sign with
      | none => exact extra.elim (fun none => none rfl) (fun none => none rfl)
      | plus => exact absurd (all '+' List.mem_cons_self) (by decide)
      | minus => exact absurd (all '-' List.mem_cons_self) (by decide)

/-- A form that begins with a bracket. -/
theorem form_bracketed {pton : InetPton} (ordinary : OrdinaryTexts pton) {t : CString}
    (form : HostForm pton ('[' :: t)) :
    ∃ h rest, t = h ++ ']' :: rest ∧ ']' ∉ h ∧ (rest = [] ∨ ∃ p, rest = ':' :: p ∧ PortText p) := by
  generalize same : '[' :: t = text at form
  cases form with
  | inet valid =>
      rw [← same] at valid
      exact absurd List.mem_cons_self (ordinary.inet _ _ valid).2.1
  | inet6 valid =>
      rw [← same] at valid
      exact absurd List.mem_cons_self (ordinary.inet6 _ _ valid).2.1
  | @inetPort h p addr valid port =>
      cases h with
      | nil => exact absurd (List.cons.inj same).1 (by decide)
      | cons d h =>
          obtain rfl := (List.cons.inj same).1
          exact absurd List.mem_cons_self (ordinary.inet _ _ valid).2.1
  | inet6Brackets valid =>
      exact ⟨_, [], (List.cons.inj same).2, (ordinary.inet6 _ _ valid).2.2.1, .inl rfl⟩
  | inet6Port valid port =>
      exact ⟨_, _, (List.cons.inj same).2, (ordinary.inet6 _ _ valid).2.2.1,
        .inr ⟨_, rfl, port⟩⟩

/-- A form with one colon and no bracket. -/
theorem form_port {pton : InetPton} (ordinary : OrdinaryTexts pton) {h p : CString}
    (noBracket : (h ++ ':' :: p).head? ≠ some '[') (notIn : ':' ∉ h) (once : ':' ∉ p)
    (form : HostForm pton (h ++ ':' :: p)) : PortText p := by
  have one := count_of_parts notIn once
  generalize same : h ++ ':' :: p = text at form noBracket one
  cases form with
  | inet valid =>
      rw [List.count_eq_zero.mpr (ordinary.inet _ _ valid).1] at one
      cases one
  | inet6 valid =>
      have two := (ordinary.inet6 _ _ valid).1
      omega
  | inetPort valid port =>
      obtain ⟨-, rfl⟩ := delimiter_unique notIn (ordinary.inet _ _ valid).1 same
      exact port
  | inet6Brackets valid | inet6Port valid port => exact absurd rfl noBracket

/-- For ordinary addresses a text that is mistaken for a form is never one. -/
theorem not_form_of_mistaken {pton : InetPton} (ordinary : OrdinaryTexts pton) {text : CString}
    (mistaken : Mistaken pton text) : ¬ HostForm pton text := by
  intro form
  cases mistaken with
  | behindBracket notIn near valid nonempty noColon =>
      obtain ⟨h', rest', same, notIn', ends⟩ := form_bracketed ordinary form
      obtain ⟨-, rfl⟩ := delimiter_unique notIn notIn' same
      cases ends with
      | inl none => exact nonempty none
      | inr port =>
          obtain ⟨p, rfl, -⟩ := port
          exact noColon rfl
  | inetPort noBracket notIn once near valid room loose =>
      exact not_portText_of_loose loose (form_port ordinary noBracket notIn once form)
  | inet6Port notIn near valid room loose =>
      obtain ⟨h', rest', same, notIn', ends⟩ := form_bracketed ordinary form
      obtain ⟨-, rest⟩ := delimiter_unique notIn notIn' same
      rw [← rest] at ends
      cases ends with
      | inl none => cases none
      | inr port =>
          obtain ⟨p', same, port⟩ := port
          obtain rfl := (List.cons.inj same).2
          exact not_portText_of_loose loose port
  | inetCut noBracket notOnce long valid =>
      have short := (ordinary.inet _ _ valid).2.2
      rw [List.length_take] at short
      omega
  | inet6Cut noBracket notOnce long invalid valid =>
      have short := (ordinary.inet6 _ _ valid).2.2.2
      rw [List.length_take] at short
      omega

/-- Only forms are accepted, but for the texts that are mistaken for one. -/
theorem accepts_form_iff (pton : InetPton) (text : CString) (noNul : '\x00' ∉ text) :
    (Accepts pton text → HostForm pton text) ↔ (Mistaken pton text → HostForm pton text) := by
  constructor
  · intro sound mistaken
    exact sound (accepts_of_mistaken noNul mistaken)
  · intro sound accepted
    cases form_of_accepts noNul accepted with
    | inl form => exact form
    | inr mistaken => exact sound mistaken

/-- What `inet_pton` says of the text `::1`, and that it accepts no IPv4 text. -/
def loopbackPton : InetPton where
  inet _ := none
  inet6 host := if host = [':', ':', '1'] then some 1 else none

theorem accepts_form_port :
    Accepts examplePton (exampleHost ++ ':' :: examplePort) ∧
      HostForm examplePton (exampleHost ++ ':' :: examplePort) := by
  have form : HostForm examplePton (exampleHost ++ ':' :: examplePort) :=
    @HostForm.inetPort examplePton exampleHost examplePort 0xC0000201 rfl
      ⟨by decide, List.all_eq_true.mp rfl, by decide⟩
  have accepted : Accepts examplePton (exampleHost ++ ':' :: examplePort) := ⟨_, rfl⟩
  refine ⟨accepted, ?_⟩
  exact (accepts_form_iff examplePton _ (by decide)).mpr (fun _ => form) accepted

theorem loopback_of_valid {h : CString} {addr : BitVec 128}
    (valid : loopbackPton.inet6 h = some addr) : h = [':', ':', '1'] :=
  (Option.ite_none_right_eq_some.mp valid).1

theorem ordinary_loopbackPton : OrdinaryTexts loopbackPton where
  inet _ _ valid := by cases valid
  inet6 _ _ valid := by
    rw [loopback_of_valid valid]
    decide

/-- `[::1]x` is taken for `[::1]`. -/
theorem accepts_behind_bracket :
    Accepts loopbackPton ['[', ':', ':', '1', ']', 'x'] ∧
      ¬ HostForm loopbackPton ['[', ':', ':', '1', ']', 'x'] := by
  have parsed : netIpaddrParse loopbackPton (terminated ['[', ':', ':', '1', ']', 'x']) 6 =
      .ok (true, inet6Stores 1) := by decide
  have mistaken : Mistaken loopbackPton ['[', ':', ':', '1', ']', 'x'] :=
    @Mistaken.behindBracket loopbackPton [':', ':', '1'] ['x'] 1 (by decide) (by decide) rfl
      (by decide) (by decide)
  exact ⟨⟨inet6Stores 1, parsed⟩, not_form_of_mistaken ordinary_loopbackPton mistaken⟩

end Zperf
