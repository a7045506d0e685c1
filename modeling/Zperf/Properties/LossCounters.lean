import Zperf.Base.SequenceCount
import Zperf.Properties.PacketSizeDivision

/-!
What the loss counters of a UDP session mean.

The three counters of the state are the tally of the ids received after the
opening datagram, with no wrap-around below `2 ^ 31` datagrams. The meaning in
terms of lost and duplicated packets is the tally's; it needs the opening
datagram to have id zero, since that id is not checked.
-/

namespace Zperf

open Base

/-- The id of a data datagram, as a number. -/
def Arrival.dataId (d : Arrival) : Nat := d.hdr.id.toNatClampNeg

/-- The ids of the datagrams for the session of `p`, in order of arrival. -/
def idsFor (p : Peer) (ds : List Arrival) : List Nat :=
  (ds.filter fun d => d.sender = some p).map Arrival.dataId

/-- The tally of a session that has just been opened. -/
def openTally : Tally := ⟨1, 0, 0⟩

/-- How many of the ids are repetitions. -/
def duplicates (ids : List Nat) : Nat := ids.length - ids.toFinset.card

/-- The counters of a slot against the ids received after the opening datagram. -/
structure LossCounters (s : Session) (first : Int32) (ids : List Nat) : Prop where
  counter : s.counter.toNat = ids.length
  next : s.nextId.toNat = 1 + ids.foldl max 0
  balance : s.error.toNat + s.counter.toNat = s.outorder.toNat + (s.nextId.toNat - 1)
  noWrap : s.error.toNat = (openTally.receiveAll ids).gaps
  lost : first = 0 →
    s.error.toNat + duplicates (0 :: ids) =
      missing s.nextId.toNat (0 :: ids).toFinset + s.outorder.toNat ∧
    missing s.nextId.toNat (0 :: ids).toFinset ≤ s.error.toNat

/-- The counters are the tally of `n` ids. -/
structure Stats.Tallied (st : Stats) (t : Tally) (n : Nat) : Prop where
  counter : st.counter.toNat = n
  next : st.nextId.toNat = t.next
  late : st.outorder.toNat = t.late
  gaps : st.error.toNat = t.gaps

theorem dataId_eq {d : Arrival} (h : d.isEnd = false) : d.hdr.id.toUInt32.toNat = d.dataId := by
  have nonneg : 0 ≤ d.hdr.id := by simpa [Arrival.isEnd] using h
  exact Int32.toNat_toUInt32_of_le nonneg

theorem dataId_lt (d : Arrival) : d.dataId < 2 ^ 31 := Int32.toNatClampNeg_lt _

theorem toNat_add_one {x : UInt32} (h : x.toNat + 1 < 2 ^ 32) : (x + 1).toNat = x.toNat + 1 := by
  rw [UInt32.toNat_add]
  exact Nat.mod_eq_of_lt h

/-- The check of one id counts it as the tally does. -/
theorem tallied_checkId {s : Session} {t : Tally} {n id : Nat} (h : s.stats.Tallied t n)
    {hdrId : Int32} (hid : hdrId.toUInt32.toNat = id) (small : id < 2 ^ 31)
    (late : t.late + 1 < 2 ^ 32) (gaps : (t.receive id).gaps < 2 ^ 32) :
    (checkId s hdrId).stats.Tallied (t.receive id) n := by
  obtain ⟨hcounter, hnext, hlate, hgaps⟩ := h
  simp only [Session.stats] at hcounter hnext hlate hgaps
  have succ : (hdrId + 1).toUInt32.toNat = id + 1 := by
    rw [Int32.toUInt32_add, ← hid]
    exact toNat_add_one (by omega)
  cases Nat.lt_or_ge id t.next with
  | inl h =>
      have less : hdrId.toUInt32 < s.nextId := by
        rw [UInt32.lt_iff_toNat_lt, hid, hnext]
        exact h
      have ne : hdrId.toUInt32 ≠ s.nextId := UInt32.ne_of_lt less
      simp only [checkId, if_pos ne, if_pos less, Tally.receive_late h]
      refine ⟨hcounter, hnext, ?_, hgaps⟩
      exact (toNat_add_one (by omega)).trans (by rw [hlate])
  | inr h =>
      rw [Tally.receive_ahead h] at gaps ⊢
      by_cases eq : hdrId.toUInt32 = s.nextId
      · have same : id = t.next := by rw [← hid, ← hnext, eq]
        simp only [checkId, eq, ne_eq, not_true_eq_false, if_false]
        refine ⟨hcounter, ?_, hlate, ?_⟩
        · exact (toNat_add_one (by omega)).trans (by rw [hnext, same])
        · simp only [Session.stats]
          omega
      · have notLess : ¬ hdrId.toUInt32 < s.nextId := by
          rw [UInt32.lt_iff_toNat_lt, hid, hnext]
          omega
        have gap : (hdrId.toUInt32 - s.nextId).toNat = id - t.next := by
          rw [UInt32.toNat_sub_of_le _ _ (UInt32.not_lt.mp notLess), hid, hnext]
        simp only [checkId, ne_eq, eq, not_false_eq_true, if_true, notLess, if_false]
        refine ⟨hcounter, succ, hlate, ?_⟩
        simp only [Session.stats, UInt32.toNat_add, gap, hgaps]
        exact Nat.mod_eq_of_lt gaps

theorem tallied_stats_iff (s : Session) (t : Tally) (n : Nat) :
    s.stats.Tallied t n ↔ s.counter.toNat = n ∧ s.nextId.toNat = t.next ∧
      s.outorder.toNat = t.late ∧ s.error.toNat = t.gaps :=
  ⟨fun h => ⟨h.counter, h.next, h.late, h.gaps⟩, fun h => ⟨h.1, h.2.1, h.2.2.1, h.2.2.2⟩⟩

theorem updateCounter_loss (s : Session) (len : Nat) :
    (updateCounter s len).nextId = s.nextId ∧ (updateCounter s len).outorder = s.outorder ∧
      (updateCounter s len).error = s.error := by
  cases s
  exact ⟨rfl, rfl, rfl⟩

theorem recordTransit_loss (s : Session) (transit : Int32) :
    (recordTransit s transit).nextId = s.nextId ∧
      (recordTransit s transit).outorder = s.outorder ∧
      (recordTransit s transit).error = s.error := by
  cases s
  exact ⟨rfl, rfl, rfl⟩

theorem tallied_slot {st : Stats} {t : Tally} {n : Nat} (h : st.Tallied t n) :
    st.slot.stats.Tallied t n := h

theorem tallied_updateCounter {s : Session} {t : Tally} {n : Nat} (h : s.stats.Tallied t n)
    (few : n + 1 < 2 ^ 32) (len : Nat) : (updateCounter s len).stats.Tallied t (n + 1) := by
  obtain ⟨hcounter, rest⟩ := (tallied_stats_iff s t n).mp h
  obtain ⟨next, outorder, error⟩ := updateCounter_loss s len
  rw [tallied_stats_iff, next, outorder, error, counter_updateCounter,
    toNat_add_one (by omega), hcounter]
  exact ⟨rfl, rest⟩

theorem tallied_recordTransit {s : Session} {t : Tally} {n : Nat} (h : s.stats.Tallied t n)
    (transit : Int32) : (recordTransit s transit).stats.Tallied t n := by
  obtain ⟨next, outorder, error⟩ := recordTransit_loss s transit
  rw [tallied_stats_iff, next, outorder, error, counter_recordTransit]
  exact (tallied_stats_iff s t n).mp h

theorem tallied_dataStats (hz : UInt64) {st : Stats} {t : Tally} {n : Nat}
    (h : st.Tallied t n) {d : Arrival} (data : d.isEnd = false) (few : n + 1 < 2 ^ 32)
    (late : t.late + 1 < 2 ^ 32) (gaps : (t.receive d.dataId).gaps < 2 ^ 32) :
    (dataStats hz st d).Tallied (t.receive d.dataId) (n + 1) := by
  rw [dataStats, countData]
  exact tallied_checkId
    (tallied_recordTransit (tallied_updateCounter (tallied_slot h) few _) _)
    (dataId_eq data) (dataId_lt d) late gaps

theorem tallied_openStats (d : Arrival) : (openStats d).Tallied openTally 0 :=
  ⟨rfl, rfl, rfl, rfl⟩

/-- Over fewer than `2 ^ 31` ids no count leaves 32 bits: the charges are bounded by
the number expected. -/
theorem openTally_bounds (ids : List Nat) (id : Nat) (small : ∀ i ∈ ids, i < 2 ^ 31)
    (small' : id < 2 ^ 31) (few : ids.length + 1 < 2 ^ 31) :
    (openTally.receiveAll ids).late + 1 < 2 ^ 32 ∧
      ((openTally.receiveAll ids).receive id).gaps < 2 ^ 32 := by
  have next := openTally.next_receiveAll_le (n := 2 ^ 31) (by decide) small
  have late := openTally.late_receiveAll_le ids
  have balance := openTally.balance_receiveAll ids
  have step := (openTally.receiveAll ids).balance_receive id
  have next' := (openTally.receiveAll ids).next_receive id
  have late' : ((openTally.receiveAll ids).receive id).late ≤
      (openTally.receiveAll ids).late + 1 := (openTally.receiveAll ids).late_receiveAll_le [id]
  simp only [openTally] at next late balance step next' late' ⊢
  omega

theorem tallied_foldl (hz : UInt64) (o : Arrival) (own : List Arrival)
    (data : ∀ d ∈ own, d.isEnd = false) (few : own.length < 2 ^ 31) :
    (own.foldl (dataStats hz) (openStats o)).Tallied
      (openTally.receiveAll (own.map Arrival.dataId)) own.length := by
  induction own using List.reverseRecOn with
  | nil =>
      rw [List.foldl_nil, List.map_nil, Tally.receiveAll_nil, List.length_nil]
      exact tallied_openStats o
  | append_singleton own d ih =>
      rw [List.length_append, List.length_singleton] at few ⊢
      have before := ih (fun e he => data e (List.mem_append_left _ he)) (by omega)
      have small : ∀ id ∈ own.map Arrival.dataId, id < 2 ^ 31 := by
        intro id hid
        obtain ⟨e, -, rfl⟩ := List.mem_map.mp hid
        exact dataId_lt e
      obtain ⟨late, gaps⟩ := openTally_bounds (own.map Arrival.dataId) d.dataId small
        (dataId_lt d) (by rwa [List.length_map])
      rw [List.foldl_append, List.foldl_cons, List.foldl_nil, List.map_append, List.map_cons,
        List.map_nil, Tally.receiveAll_append, Tally.receiveAll_cons, Tally.receiveAll_nil]
      exact tallied_dataStats hz before (data d (by simp)) (by omega) late gaps

/-- What a tally from the start says of the ids, the opening id zero included. -/
theorem tally_lost (ids : List Nat) :
    (openTally.receiveAll ids).gaps + duplicates (0 :: ids) =
      missing (openTally.receiveAll ids).next (0 :: ids).toFinset +
        (openTally.receiveAll ids).late ∧
    missing (openTally.receiveAll ids).next (0 :: ids).toFinset ≤
      (openTally.receiveAll ids).gaps := by
  have below : (0 :: ids).toFinset ⊆ Finset.range (openTally.receiveAll ids).next := by
    intro id hid
    rw [List.mem_toFinset, List.mem_cons] at hid
    rw [Finset.mem_range]
    rcases hid with rfl | hid
    · exact Nat.lt_of_lt_of_le Nat.one_pos (openTally.next_le_receiveAll ids)
    · exact openTally.lt_next_receiveAll hid
  have distinct := missing_add_card below
  have few := List.toFinset_card_le (0 :: ids)
  have balance := openTally.balance_receiveAll ids
  have charged := openTally.missing_receiveAll ids {0}
  have same : ({0} : Finset Nat) ∪ ids.toFinset = (0 :: ids).toFinset := by
    rw [List.toFinset_cons, Finset.insert_eq]
  have start : missing openTally.next {0} = 0 := rfl
  rw [same, start] at charged
  simp only [duplicates, List.length_cons, openTally] at few balance charged distinct ⊢
  omega

theorem Stats.Tallied.lossCounters {s : Session} {o : Arrival} {ids : List Nat}
    (h : s.stats.Tallied (openTally.receiveAll ids) ids.length) :
    LossCounters s o.hdr.id ids := by
  obtain ⟨hcounter, hnext, hlate, hgaps⟩ := h
  simp only [Session.stats] at hcounter hnext hlate hgaps
  have largest := openTally.next_receiveAll ids (m := 0) rfl
  have balance := openTally.balance_receiveAll ids
  simp only [openTally] at largest balance hnext hlate hgaps
  refine ⟨hcounter, ?_, ?_, hgaps, fun _ => ?_⟩
  · rw [hnext, Nat.add_comm]
    exact largest
  · omega
  · rw [hnext, hlate, hgaps]
    exact tally_lost ids

/-- The meaning of the loss counters, after any data that follows the datagram `o`
with which the session of `p` was opened. -/
theorem loss_counters_exact (hz : UInt64) (cb : Bool) (past : List Arrival) (o : Arrival)
    (mid : List Arrival) (p : Peer) (out₀ out₁ out : List Event) (row₀ row₁ row : Row)
    (before : (udpReceiver hz cb).Reaches bootRow past out₀ row₀)
    (closed : ∀ i, ¬ OngoingFor row₀ p i)
    (opens : (udpReceiver hz cb).Reaches row₀ [o] out₁ row₁)
    (opened : ∃ i, OngoingFor row₁ p i)
    (run : (udpReceiver hz cb).Reaches row₁ mid out row)
    (data : ∀ d ∈ mid, d.sender = some p → d.isEnd = false)
    (few : (idsFor p mid).length < 2 ^ 31) :
    ∃ i, OngoingFor row p i ∧ LossCounters (row i) o.hdr.id (idsFor p mid) := by
  have ok := bootRow_ok.reaches before
  have ref := bootRow_ok.refines bootRow_refines before
  have ref₁ := ok.refines ref opens
  have none_open : (udpBook hz ∅ past).lookup p = none := ref.lookup_none fun st hold => by
    obtain ⟨i, ongoing, -⟩ := (holds_iff row₀ p st).mp hold
    exact closed i ongoing
  obtain ⟨i, ongoing⟩ := opened
  have here := (ref₁ p _).mpr ((holds_iff row₁ p _).mpr ⟨i, ongoing, rfl⟩)
  obtain ⟨-, -, start⟩ := (udpDiscipline hz).lookup_serve_opened _ _ o none_open here
  have after := (udpDiscipline hz).lookup_foldl_serve
    (Fintype.card (Fin sessionMax)) mid _ here data
  obtain ⟨j, ongoing', stats⟩ := (holds_iff row p _).mp
    (((ok.reaches opens).refines ref₁ run p _).mp after)
  refine ⟨j, ongoing', ?_⟩
  apply Stats.Tallied.lossCounters
  rw [stats, start]
  have tallied := tallied_foldl hz o (mid.filter fun d => d.sender = some p)
    (fun d hd => by
      rw [List.mem_filter, decide_eq_true_eq] at hd
      exact data d hd.1 hd.2)
    (by simpa [idsFor] using few)
  rwa [← List.length_map (f := Arrival.dataId)] at tallied

/-- Ids 2, 1, 1 after the opening one: one late id and one duplicate, none missing. -/
theorem loss_counters_exact_three :
    ∃ s : Session, LossCounters s 0 [2, 1, 1] := by
  let data (id : Int32) (tick : UInt32) : Arrival :=
    ⟨.inet6 6000 1, (UdpDatagram.mk id 0 0).bytes, tick⟩
  let m := udpReceiver 1000 true
  have opens := m.reaches_of_isSome bootRow [data 0 5] (by decide +kernel)
  have run := m.reaches_of_isSome ((m.run bootRow [data 0 5]).2.get (by decide +kernel))
    [data 2 6, data 1 7, data 1 8] (by decide +kernel)
  obtain ⟨i, -, counters⟩ := loss_counters_exact 1000 true [] (data 0 5) _ (.inet6 6000 1)
    _ _ _ _ _ _ ((m.reaches_nil bootRow bootRow []).mpr ⟨rfl, rfl⟩) (by decide) opens
    ⟨⟨0, by decide⟩, by decide +kernel⟩ run (by decide +kernel) (by decide +kernel)
  have first : (data 0 5).hdr.id = 0 := by decide +kernel
  have ids : idsFor (.inet6 6000 1) [data 2 6, data 1 7, data 1 8] = [2, 1, 1] := by
    decide +kernel
  rw [first, ids] at counters
  exact ⟨_, counters⟩

end Zperf
