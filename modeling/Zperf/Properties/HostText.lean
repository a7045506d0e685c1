import Zperf.Core.NetIp

/-!
What `net_ipaddr_parse` does with a text, by the brackets and colons in it.

The address is looked for in a part of bounded length, and the port is what follows the
delimiter.
-/

namespace Zperf

open Base

variable {pton : InetPton} {text : CString}

/-- What the parsers store for an address. -/
def inetStores (addr : BitVec 32) : List Store := [storeInet addr, storeFamily afInet]
def inet6Stores (addr : BitVec 128) : List Store := [storeInet6 addr, storeFamily afInet6]

/-- The end of a parser that has stored an address and goes on with a port text, for which
its buffer of `size` has `room`. -/
def portOutcome (room size : Nat) (stores : List Store) (port : CString) :
    Except Fault Parsed :=
  if port.length ≤ room then
    .ok (match convertPort port with
      | none => (false, stores)
      | some sinPort => (true, stores ++ [storePort sinPort]))
  else .error (.write size)

theorem terminated_append (front back : CString) :
    terminated (front ++ back) = front ++ terminated back :=
  List.append_assoc front back _

theorem notMem_left {c : Char} {front back : CString} (notIn : c ∉ front ++ back) : c ∉ front :=
  fun inside => notIn (List.mem_append_left back inside)

theorem notMem_behind {c d : Char} {front back : CString} (notIn : c ∉ front ++ d :: back) :
    c ∉ back :=
  fun inside => notIn (List.mem_append_right front (List.mem_cons_of_mem d inside))

/-- A part of the text is copied where the buffer is large enough. -/
theorem copyText_front {size : Nat} {front back : CString} (noNul : '\x00' ∉ front ++ back)
    (fits : front.length < size) :
    copyText size (terminated (front ++ back)) front.length = .ok front := by
  rw [terminated_append]
  exact copyText_fits (notMem_left noNul) _ fits

/-- A text without a delimiter is cut to the buffer. -/
theorem copyText_cut (noNul : '\x00' ∉ text) (n : Nat) :
    copyText (n + 1) (terminated text) (min n text.length : Nat) = .ok (text.take n) := by
  have split := List.take_append_drop n text
  have copied := @copyText_front (n + 1) (text.take n) (text.drop n) (by rw [split]; exact noNul)
    (by rw [List.length_take]; omega)
  rw [split, List.length_take] at copied
  exact copied

theorem parseIpv4_plain (noNul : '\x00' ∉ text) :
    parseIpv4 pton (terminated text) text.length false =
      .ok (match pton.inet (text.take 16) with
        | none => (false, [])
        | some addr => (true, inetStores addr)) := by
  have copied := copyText_cut noNul 16
  simp only [parseIpv4, strnlen_terminated noNul, netIpv4AddrLen, Nat.min_assoc, Nat.min_self,
    convertIpv4, bind, Except.bind, copied, if_true]
  cases pton.inet (text.take 16) with
  | none => rfl
  | some addr => rfl

theorem parseIpv6_plain (noNul : '\x00' ∉ text) :
    parseIpv6 pton (terminated text) text.length false =
      .ok (match pton.inet6 (text.take 46) with
        | none => (false, [])
        | some addr => (true, inet6Stores addr)) := by
  have copied := copyText_cut noNul 46
  simp only [parseIpv6, strnlen_terminated noNul, inet6Addrstrlen, Nat.min_assoc, Nat.min_self,
    convertIpv6, bind, Except.bind, copied, if_true]
  cases pton.inet6 (text.take 46) with
  | none => rfl
  | some addr => rfl

/-- The colon is behind the part that is searched for it. -/
theorem parseIpv4_far {h p : CString} (noNul : '\x00' ∉ h ++ ':' :: p) (notIn : ':' ∉ h)
    (far : 16 ≤ h.length) :
    parseIpv4 pton (terminated (h ++ ':' :: p)) (h ++ ':' :: p).length true =
      .ok (false, []) := by
  have len : min (min 16 (h ++ ':' :: p).length) (h ++ ':' :: p).length = 16 := by
    rw [List.length_append]
    omega
  have none : memchr ':' (terminated (h ++ ':' :: p)) 16 = .ok none := by
    apply memchr_none
    · simp only [terminated, List.length_append]
      omega
    · rw [terminated_append, List.take_append_of_le_length far]
      exact fun inside => notIn (List.mem_of_mem_take inside)
  simp only [parseIpv4, strnlen_terminated noNul, netIpv4AddrLen, len, bind, Except.bind, none]
  rfl

theorem drop_delimiter (front : CString) (c : Char) (back : CString) :
    (terminated (front ++ c :: back)).drop (front.length + 1) = terminated back := by
  rw [terminated_append, List.drop_length_add_append]
  rfl

theorem parseIpv4_port {h p : CString} (noNul : '\x00' ∉ h ++ ':' :: p) (notIn : ':' ∉ h)
    (near : h.length ≤ 15) :
    parseIpv4 pton (terminated (h ++ ':' :: p)) (h ++ ':' :: p).length true =
      match pton.inet h with
      | none => .ok (false, [])
      | some addr => portOutcome 15 17 (inetStores addr) p := by
  have total : (h ++ ':' :: p).length = h.length + 1 + p.length := by
    rw [List.length_append, List.length_cons]
    omega
  have found : memchr ':' (terminated (h ++ ':' :: p))
      (min (min 16 (h ++ ':' :: p).length) (h ++ ':' :: p).length) = .ok (some h.length) := by
    rw [terminated_append]
    exact memchr_found notIn (terminated p) (by omega)
  have last : min (min (min 16 (h ++ ':' :: p).length) (h ++ ':' :: p).length) h.length =
      h.length := by omega
  have copied := copyText_front noNul (show h.length < 17 by omega)
  have length : ((h ++ ':' :: p).length : Int) - h.length = (p.length + 1 : Nat) := by omega
  have withPort : ¬ true = false := Bool.noConfusion
  simp only [parseIpv4, strnlen_terminated noNul, netIpv4AddrLen, bind, Except.bind, found, last,
    convertIpv4, Nat.reduceAdd, copied, if_neg withPort, drop_delimiter, length]
  cases pton.inet h with
  | none => rfl
  | some addr =>
      by_cases fits : p.length ≤ 15
      · have port := @copyText_terminated 17 p (notMem_behind noNul) (by omega)
        simp only [Option.map_some, pure, Except.pure, port, portOutcome, if_pos fits]
        cases convertPort p with
        | none => rfl
        | some sinPort => rfl
      · have port := @copyText_overflows 17 (terminated p) (p.length + 1)
          (by simp [terminated]) (by omega)
        simp only [Option.map_some, pure, Except.pure, port, portOutcome, if_neg fits]

/-- No closing bracket in the part that is searched for one. -/
theorem parseIpv6_unclosed (noNul : '\x00' ∉ text) (notIn : ']' ∉ text.take 46) :
    parseIpv6 pton (terminated text) text.length true = .ok (false, []) := by
  have none : memchr ']' (terminated text) (min (min 46 text.length) text.length) =
      .ok none := by
    apply memchr_none
    · simp only [terminated, List.length_append]
      omega
    · rw [Nat.min_assoc, Nat.min_self, terminated,
        List.take_append_of_le_length (Nat.min_le_right _ _), ← List.take_eq_take_min]
      exact notIn
  have withPort : ¬ true = false := Bool.noConfusion
  simp only [parseIpv6, strnlen_terminated noNul, inet6Addrstrlen, bind, Except.bind, none,
    if_neg withPort]
  rfl

/-- What is behind the closing bracket is looked at only if it begins with a colon. -/
def bracketOutcome (stores : List Store) : CString → Except Fault Parsed
  | ':' :: port => portOutcome 46 47 stores port
  | _ => .ok (true, stores)

theorem convertIpv6Port_eq {p : CString} (noNul : '\x00' ∉ p) (stores : List Store) :
    convertIpv6Port (terminated p) p.length stores = portOutcome 46 47 stores p := by
  have positive : ¬ (p.length : Int) < 0 := by omega
  have length : (strnlen (terminated p) (p.length : Int).toNat).map Int.ofNat =
      .ok (p.length : Int) := by
    rw [Int.toNat_natCast, strnlen_terminated noNul, Nat.min_self]
    rfl
  simp only [convertIpv6Port, if_neg positive, length, bind, Except.bind, inet6Addrstrlen,
    Nat.reduceAdd]
  by_cases fits : p.length ≤ 46
  · have copied := @copyText_fits 47 p noNul ['\x00'] (by omega)
    simp only [terminated, copied, portOutcome, if_pos fits]
    cases convertPort p with
    | none => rfl
    | some sinPort => rfl
  · have overflows := @copyText_overflows 47 (terminated p) p.length (by simp [terminated])
      (by omega)
    simp only [overflows, portOutcome, if_neg fits]

theorem length_bracketed (h rest : CString) :
    ('[' :: (h ++ ']' :: rest)).length = h.length + 2 + rest.length := by
  rw [List.length_cons, List.length_append, List.length_cons]
  omega

theorem memchr_bracket {h : CString} (notIn : ']' ∉ h) (near : h.length ≤ 44) (rest : CString) :
    memchr ']' (terminated ('[' :: (h ++ ']' :: rest)))
      (min (min 46 ('[' :: (h ++ ']' :: rest)).length) ('[' :: (h ++ ']' :: rest)).length) =
        .ok (some (h.length + 1)) := by
  have first : ']' ∉ '[' :: h := List.not_mem_cons_of_ne_of_not_mem (by decide) notIn
  have shape : terminated ('[' :: (h ++ ']' :: rest)) =
      ('[' :: h) ++ ']' :: terminated rest := by simp [terminated]
  rw [shape]
  apply memchr_found first (terminated rest)
  rw [length_bracketed, List.length_cons]
  omega

/-- The end of `parse_ipv6`, with the closing bracket at `h.length + 1`. -/
theorem behindBracket {h rest : CString} (noNul : '\x00' ∉ rest) (stores : List Store) :
    (if h.length + 1 + 1 < ('[' :: (h ++ ']' :: rest)).length then do
      let next ← charAt (terminated ('[' :: (h ++ ']' :: rest))) (h.length + 1 + 1)
      if next = ':' then
        convertIpv6Port ((terminated ('[' :: (h ++ ']' :: rest))).drop (h.length + 1 + 2))
          (('[' :: (h ++ ']' :: rest)).length - h.length - 1 - 2) stores
      else return (true, stores)
    else return (true, stores)) = bracketOutcome stores rest := by
  have total := length_bracketed h rest
  have length : (('[' :: (h ++ ']' :: rest)).length : Int) - h.length - 1 - 2 =
      (rest.length : Int) - 1 := by omega
  have behind : (terminated ('[' :: (h ++ ']' :: rest))).drop (h.length + 1 + 2) =
      (terminated rest).drop 1 := by
    rw [← drop_delimiter ('[' :: h) ']' rest, List.drop_drop]
    rfl
  have next : charAt (terminated ('[' :: (h ++ ']' :: rest))) (h.length + 1 + 1) =
      charAt (terminated rest) 0 := by
    rw [charAt, charAt, ← drop_delimiter ('[' :: h) ']' rest, List.getElem?_drop]
    rfl
  rw [length, behind, next, total]
  cases rest with
  | nil =>
      rw [if_neg (by rw [List.length_nil]; omega)]
      rfl
  | cons c rest =>
      have goesOn : h.length + 1 + 1 < h.length + 2 + (c :: rest).length := by
        rw [List.length_cons]
        omega
      have first : charAt (terminated (c :: rest)) 0 = .ok c := rfl
      rw [if_pos goesOn, first]
      simp only [bind, Except.bind]
      by_cases colon : c = ':'
      · have port : ((c :: rest).length : Int) - 1 = rest.length := by
          rw [List.length_cons]
          omega
        rw [if_pos colon, port, colon]
        exact convertIpv6Port_eq (List.not_mem_of_not_mem_cons noNul) _
      · rw [if_neg colon]
        unfold bracketOutcome
        split
        · rename_i same
          exact absurd (List.cons.inj same).1 colon
        · rfl

theorem parseIpv6_bracket {h rest : CString} (noNul : '\x00' ∉ '[' :: (h ++ ']' :: rest))
    (notIn : ']' ∉ h) (near : h.length ≤ 44) :
    parseIpv6 pton (terminated ('[' :: (h ++ ']' :: rest)))
        ('[' :: (h ++ ']' :: rest)).length true =
      match pton.inet6 h with
      | none => .ok (false, [])
      | some addr => bracketOutcome (inet6Stores addr) rest := by
  have total := length_bracketed h rest
  have inner : '\x00' ∉ h ++ ']' :: rest := List.not_mem_of_not_mem_cons noNul
  have found := memchr_bracket notIn near rest
  have last : min ((min (min 46 ('[' :: (h ++ ']' :: rest)).length)
      ('[' :: (h ++ ']' :: rest)).length : Nat) : Int) ((h.length + 1 : Nat) - 1) =
        h.length := by omega
  have copied := copyText_front inner (show h.length < 47 by omega)
  have inside : (terminated ('[' :: (h ++ ']' :: rest))).drop 1 = terminated (h ++ ']' :: rest) :=
    rfl
  have withPort : ¬ true = false := Bool.noConfusion
  simp only [parseIpv6, strnlen_terminated noNul, inet6Addrstrlen, bind, Except.bind, found, last,
    convertIpv6, Nat.reduceAdd, inside, copied, if_neg withPort]
  cases pton.inet6 h with
  | none => rfl
  | some addr => exact behindBracket (notMem_behind inner) (inet6Stores addr)

theorem netIpaddrParse_bracket (t : CString) :
    netIpaddrParse pton (terminated ('[' :: t)) ('[' :: t).length =
      parseIpv6 pton (terminated ('[' :: t)) ('[' :: t).length true := by
  have positive : ¬ ('[' :: t).length = 0 := Nat.succ_ne_zero _
  have first : charAt (terminated ('[' :: t)) 0 = .ok '[' := rfl
  have nul : ¬ '[' = '\x00' := by decide
  simp only [netIpaddrParse, if_neg positive, first, bind, Except.bind, if_neg nul, if_true]

/-- Without a bracket the number of colons decides. -/
theorem netIpaddrParse_counted {c : Char} {t : CString} (noNul : '\x00' ∉ c :: t)
    (noBracket : c ≠ '[') :
    netIpaddrParse pton (terminated (c :: t)) (c :: t).length =
      if (c :: t).count ':' = 1 then
        parseIpv4 pton (terminated (c :: t)) (c :: t).length true
      else .ok (match pton.inet ((c :: t).take 16) with
        | some addr => (true, inetStores addr)
        | none => match pton.inet6 ((c :: t).take 46) with
          | some addr => (true, inet6Stores addr)
          | none => (false, [])) := by
  have positive : ¬ (c :: t).length = 0 := Nat.succ_ne_zero _
  have first : charAt (terminated (c :: t)) 0 = .ok c := rfl
  have nul : c ≠ '\x00' := (List.ne_of_not_mem_cons noNul).symm
  simp only [netIpaddrParse, if_neg positive, first, bind, Except.bind, if_neg nul,
    if_neg noBracket, countChar_terminated ':' noNul, parseIpv4_plain noNul,
    parseIpv6_plain noNul]
  cases pton.inet ((c :: t).take 16) with
  | some addr => rfl
  | none =>
      cases pton.inet6 ((c :: t).take 46) with
      | some addr => rfl
      | none => rfl

theorem append_of_count_one {c : Char} (one : text.count c = 1) :
    ∃ front back, text = front ++ c :: back ∧ c ∉ front ∧ c ∉ back := by
  have inside : c ∈ text := List.count_pos_iff.mp (by omega)
  obtain ⟨front, back, rfl, notIn⟩ := List.eq_append_cons_of_mem inside
  refine ⟨front, back, rfl, notIn, ?_⟩
  rw [List.count_append, List.count_cons_self, List.count_eq_zero_of_not_mem notIn] at one
  exact List.count_eq_zero.mp (by omega)

theorem count_of_parts {c : Char} {front back : CString} (notFront : c ∉ front)
    (notBack : c ∉ back) : (front ++ c :: back).count c = 1 := by
  rw [List.count_append, List.count_cons_self, List.count_eq_zero_of_not_mem notFront,
    List.count_eq_zero_of_not_mem notBack]

theorem netIpaddrParse_port {h p : CString} (noNul : '\x00' ∉ h ++ ':' :: p)
    (noBracket : (h ++ ':' :: p).head? ≠ some '[') (notIn : ':' ∉ h) (once : ':' ∉ p)
    (near : h.length ≤ 15) :
    netIpaddrParse pton (terminated (h ++ ':' :: p)) (h ++ ':' :: p).length =
      match pton.inet h with
      | none => .ok (false, [])
      | some addr => portOutcome 15 17 (inetStores addr) p := by
  have one := count_of_parts notIn once
  have port := @parseIpv4_port pton h p noNul notIn near
  cases whole : h ++ ':' :: p with
  | nil => exact absurd whole (by simp)
  | cons c t =>
      rw [whole] at noNul noBracket one port
      rw [netIpaddrParse_counted noNul fun same => noBracket (congrArg some same), if_pos one, port]

theorem netIpaddrParse_closed {h rest : CString} (noNul : '\x00' ∉ '[' :: (h ++ ']' :: rest))
    (notIn : ']' ∉ h) (near : h.length ≤ 44) :
    netIpaddrParse pton (terminated ('[' :: (h ++ ']' :: rest)))
        ('[' :: (h ++ ']' :: rest)).length =
      match pton.inet6 h with
      | none => .ok (false, [])
      | some addr => bracketOutcome (inet6Stores addr) rest := by
  rw [netIpaddrParse_bracket, parseIpv6_bracket noNul notIn near]

/-- What the parser makes of a text: one case for each way through it. -/
inductive HostOutcome (pton : InetPton) : CString → Except Fault Parsed → Prop where
  | empty : HostOutcome pton [] (.ok (false, []))
  | unclosed {t : CString} (notIn : ']' ∉ ('[' :: t).take 46) :
      HostOutcome pton ('[' :: t) (.ok (false, []))
  | noInet6 {h rest : CString} (notIn : ']' ∉ h) (near : h.length ≤ 44)
      (invalid : pton.inet6 h = none) :
      HostOutcome pton ('[' :: (h ++ ']' :: rest)) (.ok (false, []))
  | bracket {h rest : CString} {addr : BitVec 128} (notIn : ']' ∉ h) (near : h.length ≤ 44)
      (valid : pton.inet6 h = some addr) :
      HostOutcome pton ('[' :: (h ++ ']' :: rest)) (bracketOutcome (inet6Stores addr) rest)
  | far {h p : CString} (notIn : ':' ∉ h) (far : 16 ≤ h.length) :
      HostOutcome pton (h ++ ':' :: p) (.ok (false, []))
  | noInet {h p : CString} (notIn : ':' ∉ h) (near : h.length ≤ 15)
      (invalid : pton.inet h = none) : HostOutcome pton (h ++ ':' :: p) (.ok (false, []))
  | port {h p : CString} {addr : BitVec 32} (noBracket : (h ++ ':' :: p).head? ≠ some '[')
      (notIn : ':' ∉ h) (once : ':' ∉ p) (near : h.length ≤ 15)
      (valid : pton.inet h = some addr) :
      HostOutcome pton (h ++ ':' :: p) (portOutcome 15 17 (inetStores addr) p)
  | inet {text : CString} {addr : BitVec 32} (noBracket : text.head? ≠ some '[')
      (nonempty : text ≠ []) (notOnce : text.count ':' ≠ 1)
      (valid : pton.inet (text.take 16) = some addr) :
      HostOutcome pton text (.ok (true, inetStores addr))
  | inet6 {text : CString} {addr : BitVec 128} (noBracket : text.head? ≠ some '[')
      (nonempty : text ≠ []) (notOnce : text.count ':' ≠ 1)
      (invalid : pton.inet (text.take 16) = none)
      (valid : pton.inet6 (text.take 46) = some addr) :
      HostOutcome pton text (.ok (true, inet6Stores addr))
  | refused {text : CString} (invalid : pton.inet (text.take 16) = none)
      (invalid6 : pton.inet6 (text.take 46) = none) : HostOutcome pton text (.ok (false, []))

theorem hostOutcome_bracket {t : CString} (noNul : '\x00' ∉ '[' :: t) :
    HostOutcome pton ('[' :: t)
      (parseIpv6 pton (terminated ('[' :: t)) ('[' :: t).length true) := by
  by_cases inside : ']' ∈ ('[' :: t).take 46
  · obtain ⟨front, back, split, notIn⟩ := List.eq_append_cons_of_mem inside
    cases front with
    | nil =>
        have head := congrArg List.head? split
        rw [List.take_succ_cons] at head
        exact absurd (Option.some.inj head) (by decide)
    | cons c h =>
        rw [List.take_succ_cons, List.cons_append] at split
        obtain ⟨rfl, tail⟩ := List.cons.inj split
        have near : h.length ≤ 44 := by
          have length := congrArg List.length tail
          rw [List.length_take, List.length_append, List.length_cons] at length
          omega
        have whole : t = h ++ ']' :: (back ++ t.drop 45) := by
          rw [← List.cons_append, ← List.append_assoc, ← tail, List.take_append_drop]
        have notIn : ']' ∉ h := List.not_mem_of_not_mem_cons notIn
        generalize back ++ t.drop 45 = rest at whole
        rw [whole] at noNul ⊢
        rw [parseIpv6_bracket noNul notIn near]
        cases valid : pton.inet6 h with
        | none => exact .noInet6 notIn near valid
        | some addr => exact .bracket notIn near valid
  · rw [parseIpv6_unclosed noNul inside]
    exact .unclosed inside

theorem hostOutcome_counted {c : Char} {t : CString} (noNul : '\x00' ∉ c :: t)
    (noBracket : c ≠ '[') :
    HostOutcome pton (c :: t) (netIpaddrParse pton (terminated (c :: t)) (c :: t).length) := by
  have head : (c :: t).head? ≠ some '[' := fun same => noBracket (Option.some.inj same)
  rw [netIpaddrParse_counted noNul noBracket]
  by_cases one : (c :: t).count ':' = 1
  · rw [if_pos one]
    obtain ⟨h, p, whole, notIn, once⟩ := append_of_count_one one
    rw [whole] at noNul head ⊢
    by_cases near : h.length ≤ 15
    · rw [parseIpv4_port noNul notIn near]
      cases valid : pton.inet h with
      | none => exact .noInet notIn near valid
      | some addr => exact .port head notIn once near valid
    · rw [parseIpv4_far noNul notIn (by omega)]
      exact .far notIn (by omega)
  · rw [if_neg one]
    cases valid : pton.inet ((c :: t).take 16) with
    | some addr => exact .inet head nofun one valid
    | none =>
        cases valid6 : pton.inet6 ((c :: t).take 46) with
        | some addr => exact .inet6 head nofun one valid valid6
        | none => exact .refused valid valid6

theorem hostOutcome (pton : InetPton) {text : CString} (noNul : '\x00' ∉ text) :
    HostOutcome pton text (netIpaddrParse pton (terminated text) text.length) := by
  cases text with
  | nil => exact .empty
  | cons c t =>
      by_cases bracket : c = '['
      · rw [bracket] at noNul ⊢
        rw [netIpaddrParse_bracket]
        exact hostOutcome_bracket noNul
      · exact hostOutcome_counted noNul bracket

end Zperf
