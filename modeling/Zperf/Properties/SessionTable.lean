import Zperf.Base.SessionBook
import Zperf.Core.Session

/-!
What `get_session` finds, read as a keyed slot table.

The search is stated once: it grants the caller a slot, with the key written in
it, or refuses with the row unchanged. A free slot is one whose session is over;
in rows that the receivers reach, every other slot is ongoing.
-/

namespace Zperf

open Base

/-- The statistics of a session: all its fields but the key, the state and the
block of the last completed session. -/
structure Stats where
  counter : UInt32
  nextId : UInt32
  outorder : UInt32
  error : UInt32
  length : UInt64
  startTime : Int64
  jitter : Int32
  lastTransitTime : Int32
  deriving DecidableEq, Repr

namespace Session

def stats (s : Session) : Stats :=
  ⟨s.counter, s.nextId, s.outorder, s.error, s.length, s.startTime, s.jitter,
    s.lastTransitTime⟩

/-- The peer whose key is written in a slot. -/
def key (s : Session) : Option Peer :=
  match s.ip.family with
  | .unspec => none
  | .inet => some (.inet s.port s.ip.inAddr)
  | .inet6 => some (.inet6 s.port s.ip.union)

def open? (s : Session) : Option Stats :=
  if s.state = .ongoing then some s.stats else none

theorem matches_iff_key (s : Session) (p : Peer) :
    (s.matchesInet (some p) = true ∨ s.matchesInet6 (some p) = true) ↔ s.key = some p := by
  cases p <;> cases h : s.ip.family <;>
    simp [matchesInet, matchesInet6, key, h]

theorem inAddr_copyInAddr (a : NetAddr) (addr : BitVec 32) :
    (a.copyInAddr addr).inAddr = addr := by
  have low {v w : Nat} (x : BitVec v) (y : BitVec w) : (x ++ y).setWidth w = y := by
    simp [BitVec.setWidth_append]
  exact low _ addr

theorem copyInAddr_inAddr (a : NetAddr) : a.copyInAddr a.inAddr = a := by
  have same : a.union.extractLsb' 32 96 ++ a.union.setWidth 32 = a.union := by
    apply BitVec.eq_of_getLsbD_eq
    intro i hi
    simp only [BitVec.getLsbD_append, BitVec.getLsbD_setWidth, BitVec.getLsbD_extractLsb']
    split <;> simp_all
    omega
  simp [NetAddr.copyInAddr, NetAddr.inAddr, same]

@[simp] theorem key_assign (s : Session) (p : Peer) : (s.assign (some p)).key = some p := by
  cases p with
  | inet port addr =>
      have back := inAddr_copyInAddr { s.ip with family := .inet } addr
      simp only [assign, key, NetAddr.copyInAddr, NetAddr.inAddr] at back ⊢
      rw [back]
  | inet6 port addr => rfl

@[simp] theorem state_assign (s : Session) (addr : SockAddr) :
    (s.assign addr).state = s.state := by
  rcases addr with _ | _ | _ <;> rfl

@[simp] theorem stats_assign (s : Session) (addr : SockAddr) :
    (s.assign addr).stats = s.stats := by
  rcases addr with _ | _ | _ <;> rfl

@[simp] theorem stat_assign (s : Session) (addr : SockAddr) :
    (s.assign addr).stat = s.stat := by
  rcases addr with _ | _ | _ <;> rfl

@[simp] theorem open_assign (s : Session) (addr : SockAddr) :
    (s.assign addr).open? = s.open? := by
  simp [open?]

theorem assign_of_key (s : Session) (p : Peer) (h : s.key = some p) :
    s.assign (some p) = s := by
  obtain ⟨port, ⟨family, bits⟩⟩ := s
  cases family <;> simp only [key, reduceCtorEq, Option.some.injEq] at h
  · subst h
    have same := copyInAddr_inAddr ⟨.inet, bits⟩
    simp only [assign]
    rw [same]
  · subst h
    rfl

end Session

/-- How a row is read as a slot table. -/
def sessionReading : SlotReading Peer Stats Session where
  key := Session.key
  session := Session.open?

/-- No two slots carry the key of the same peer. -/
def KeysApart (row : Row) : Prop :=
  ∀ i j p, (row i).key = some p → (row j).key = some p → i = j

/-- No slot is left in the state that nothing ever sets. -/
def Settled (row : Row) : Prop :=
  ∀ i, (row i).state ≠ .lastPacketReceived

theorem Settled.isFree_iff {row : Row} (h : Settled row) (i : Fin sessionMax) :
    (row i).isFree = true ↔ (row i).open? = none := by
  have settled := h i
  cases hs : (row i).state <;> simp_all [Session.isFree, Session.open?]

/-- The search loop: the first slot with the peer's key, or the first free slot,
the one found before the loop counting as the first. -/
theorem searchSlots_cases (row : Row) (addr : SockAddr) (is : List (Fin sessionMax))
    (free : Option (Fin sessionMax)) :
    (∃ i ∈ is, (searchSlots row addr is free).1 = some i ∧
      ((row i).matchesInet addr = true ∨ (row i).matchesInet6 addr = true)) ∨
    ((searchSlots row addr is free).1 = none ∧
      (∀ i ∈ is, ¬ ((row i).matchesInet addr = true ∨ (row i).matchesInet6 addr = true)) ∧
      ((searchSlots row addr is free).2 = none ↔
        free = none ∧ ∀ i ∈ is, (row i).isFree = false) ∧
      ∀ i, (searchSlots row addr is free).2 = some i →
        free = some i ∨ i ∈ is ∧ (row i).isFree = true) := by
  induction is generalizing free with
  | nil => right; simp [searchSlots]
  | cons j is ih =>
      by_cases h4 : (row j).matchesInet addr = true
      · left; exact ⟨j, by simp, by simp [searchSlots, h4], .inl h4⟩
      by_cases h6 : (row j).matchesInet6 addr = true
      · left; exact ⟨j, by simp, by simp [searchSlots, h4, h6], .inr h6⟩
      have unfold : searchSlots row addr (j :: is) free =
          searchSlots row addr is
            (if free = none ∧ (row j).isFree then some j else free) := by
        simp [searchSlots, h4, h6]
      rw [unfold]
      rcases ih (if free = none ∧ (row j).isFree then some j else free) with
        ⟨i, hi, found, hm⟩ | ⟨hnone, hmiss, hfull, hfree⟩
      · left; exact ⟨i, by simp [hi], found, hm⟩
      · right
        refine ⟨hnone, ?_, ?_, ?_⟩
        · intro i hi
          rcases List.mem_cons.mp hi with rfl | hi
          · simp [h4, h6]
          · exact hmiss i hi
        · rw [hfull]
          cases free <;> cases hj : (row j).isFree <;> simp [hj]
        · intro i hi
          rcases hfree i hi with hcur | ⟨hmem, hf⟩
          · split at hcur
            · rename_i cond
              obtain rfl := Option.some.inj hcur
              exact .inr ⟨by simp, cond.2⟩
            · exact .inl hcur
          · exact .inr ⟨by simp [hmem], hf⟩

/-- `get_session` for an IP peer: a slot granted to the peer that then carries
its key, everything else as before, or a refusal that changes nothing. -/
theorem getSession_cases (row : Row) (settled : Settled row) (p : Peer) :
    (∃ i, sessionReading.Grants row p i ∧
      getSession row (some p) =
        (some i, Function.update row i ((row i).assign (some p)))) ∨
    (sessionReading.Refuses row p ∧ getSession row (some p) = (none, row)) := by
  rcases searchSlots_cases row (some p) (List.finRange sessionMax) none with
    ⟨i, -, found, hm⟩ | ⟨hnone, hmiss, hfull, hfree⟩
  · left
    have hkey := (Session.matches_iff_key _ _).mp hm
    refine ⟨i, .inl hkey, ?_⟩
    rw [Session.assign_of_key _ _ hkey, Function.update_eq_self]
    simp only [getSession]
    split <;> simp_all
  · have missing : ∀ j, sessionReading.key (row j) ≠ some p := fun j hj =>
      hmiss j (List.mem_finRange j) ((Session.matches_iff_key _ _).mpr hj)
    cases hf : (searchSlots row (some p) (List.finRange sessionMax) none).2 with
    | none =>
        right
        refine ⟨⟨missing, fun j => ?_⟩, ?_⟩
        · have busy := (hfull.mp hf).2 j (List.mem_finRange j)
          refine Option.ne_none_iff_isSome.mp fun closed => ?_
          simp [(settled.isFree_iff j).mpr closed] at busy
        · simp only [getSession]
          split <;> simp_all
    | some i =>
        left
        have free : (row i).isFree = true := by simpa using hfree i hf
        refine ⟨i, .inr ⟨missing, (settled.isFree_iff i).mp free⟩, ?_⟩
        simp only [getSession]
        split <;> simp_all

theorem searchSlots_missing (row : Row) (addr : SockAddr) (is : List (Fin sessionMax))
    (free : Option (Fin sessionMax))
    (missing : ∀ i ∈ is, ¬ ((row i).matchesInet addr = true ∨ (row i).matchesInet6 addr = true)) :
    searchSlots row addr is free = (none, free.or (is.find? fun i => (row i).isFree)) := by
  induction is generalizing free with
  | nil => simp [searchSlots]
  | cons i is ih =>
      have here := missing i List.mem_cons_self
      rw [not_or] at here
      rw [searchSlots, if_neg here.1, if_neg here.2,
        ih _ fun j hj => missing j (List.mem_cons_of_mem i hj)]
      cases free <;> cases hi : (row i).isFree <;> simp [hi]

theorem getSession_first_free (row : Row) (p : Peer) (missing : ∀ j, (row j).key ≠ some p)
    (i : Fin sessionMax) (free : (row i).isFree = true)
    (first : ∀ j < i, (row j).isFree = false) : (getSession row (some p)).1 = some i := by
  have search := searchSlots_missing row (some p) (List.finRange sessionMax) none
    fun j _ h => missing j ((Session.matches_iff_key _ _).mp h)
  have found : (List.finRange sessionMax).find? (fun i => (row i).isFree) = some i := by
    rw [List.find?_eq_some_iff_getElem]
    refine ⟨free, i, by simp, by simp, fun j hj => ?_⟩
    simpa using first ⟨j, by omega⟩ hj
  rw [found] at search
  simp [getSession, search]

end Zperf
