import Zperf.Properties.UdpSlot

/-!
What one datagram does to the UDP row, and what a run does.

A call changes one slot that `get_session` grants, or nothing. Rows reached from
the start therefore refine the bounded book of sessions under `udpDiscipline`: a
session is what its own peer's datagrams make of it, whatever slot it is in.
-/

namespace Zperf

open Base

/-- Where the `switch` acts: nowhere on a short or refused datagram, else on one
granted slot, after the peer's key is written in it. -/
theorem udpReceived_cases (hz : UInt64) (cb : Bool) (row : Row) (settled : Settled row)
    (d : Arrival) :
    (d.short = true ∧ udpReceived hz cb row d = ([], some row)) ∨
    (d.short = false ∧ sessionReading.Refuses row d.addr ∧
      (getSession row (some d.addr)).1 = none ∧
      udpReceived hz cb row d = ([], some row)) ∨
    (d.short = false ∧ ∃ i, sessionReading.Grants row d.addr i ∧
      (getSession row (some d.addr)).1 = some i ∧
      udpReceived hz cb row d =
        ((sessionReceived hz cb ((row i).assign (some d.addr)) d).1,
          (sessionReceived hz cb ((row i).assign (some d.addr)) d).2.map
            (Function.update row i))) := by
  cases hd : d.short
  · right
    rcases getSession_cases row settled d.addr with ⟨i, grant, eq⟩ | ⟨refused, eq⟩
    · right
      refine ⟨rfl, i, grant, by rw [eq], ?_⟩
      have twice (s : Session) :
          Function.update (Function.update row i ((row i).assign (some d.addr))) i s =
            Function.update row i s := Function.update_idem _ _ _
      simp only [udpReceived, hd, eq, Bool.false_eq_true, if_false, Function.update_self]
      congr 2
      funext s
      exact twice s
    · left
      exact ⟨rfl, refused, by rw [eq], by simp [udpReceived, hd, eq]⟩
  · left
    exact ⟨rfl, by simp [udpReceived, hd]⟩

/-- The rows the receiver reaches. -/
structure RowOk (row : Row) : Prop where
  wellKeyed : sessionReading.WellKeyed row
  settled : Settled row

theorem RowOk.keysApart {row : Row} (ok : RowOk row) : KeysApart row :=
  ok.wellKeyed.unique

theorem bootRow_ok : RowOk bootRow where
  wellKeyed :=
    { unique := by
        intro i j p h
        simp [sessionReading, bootRow, zperfSessionInit, zperfResetSessionStats,
          Session.zero, Session.key] at h
      keyed := by
        intro i s h
        simp [sessionReading, bootRow, zperfSessionInit, zperfResetSessionStats,
          Session.open?] at h }
  settled := by
    intro i
    simp [bootRow, zperfSessionInit, zperfResetSessionStats]

theorem bootRow_refines : sessionReading.Refines bootRow (∅ : Book Peer Stats) := by
  intro p s
  rw [AList.lookup_empty]
  refine ⟨by simp, ?_⟩
  rintro ⟨i, -, h⟩
  simp [sessionReading, bootRow, zperfSessionInit, zperfResetSessionStats,
    Session.open?] at h

theorem Arrival.addr_of_sender {d : Arrival} {p : Peer} (h : d.sender = some p) :
    d.addr = p := by
  unfold sender at h
  split at h
  · simp at h
  · exact Option.some.inj h

theorem Arrival.long_of_sender {d : Arrival} {p : Peer} (h : d.sender = some p) :
    sizeofUdpDatagram ≤ d.data.length := by
  by_contra short
  simp [sender, Arrival.short, Nat.not_le.mp short] at h

/-- Everything one call can do that does not trap: nothing, to a datagram that is
too short or refused, or one slot step. -/
theorem udpReceived_eq_some {hz : UInt64} {cb : Bool} {row row' : Row} {d : Arrival}
    {out : List Event} (settled : Settled row)
    (h : udpReceived hz cb row d = (out, some row')) :
    (out = [] ∧ row' = row ∧
      (d.sender = none ∨ d.sender = some d.addr ∧ sessionReading.Refuses row d.addr ∧
        (getSession row (some d.addr)).1 = none)) ∨
    ∃ i s', d.sender = some d.addr ∧ sessionReading.Grants row d.addr i ∧
      (getSession row (some d.addr)).1 = some i ∧
      SlotStep hz cb ((row i).assign (some d.addr)) d out s' ∧
      row' = Function.update row i s' := by
  rcases udpReceived_cases hz cb row settled d with
    ⟨hd, eq⟩ | ⟨hd, refused, found, eq⟩ | ⟨hd, i, grant, found, eq⟩
  · obtain ⟨rfl, rfl⟩ := goesOn_inj (eq.symm.trans h)
    exact .inl ⟨rfl, rfl, .inl (by simp [Arrival.sender, hd])⟩
  · obtain ⟨rfl, rfl⟩ := goesOn_inj (eq.symm.trans h)
    exact .inl ⟨rfl, rfl, .inr ⟨by simp [Arrival.sender, hd], refused, found⟩⟩
  · rw [eq] at h
    obtain ⟨rfl, hrow⟩ := Prod.mk.inj h
    obtain ⟨s', hs', rfl⟩ := Option.map_eq_some_iff.mp hrow
    have kept : ((row i).assign (some d.addr)).state ≠ .lastPacketReceived := by
      simpa using settled i
    exact .inr ⟨i, s', by simp [Arrival.sender, hd], grant, found,
      sessionReceived_slotStep kept (Prod.ext rfl hs'), rfl⟩

/-- One call answers its datagram as the discipline of one session says. -/
theorem udpReceived_answers {hz : UInt64} {cb : Bool} {row row' : Row} {d : Arrival}
    {out : List Event} (settled : Settled row)
    (h : udpReceived hz cb row d = (out, some row')) :
    Settled row' ∧ sessionReading.Answers (udpDiscipline hz) row d row' := by
  rcases udpReceived_eq_some settled h with
    ⟨-, rfl, nobody | ⟨sender, refused, -⟩⟩ | ⟨i, s', sender, grant, -, slot, rfl⟩
  · have peer : (udpDiscipline hz).peer d = none := nobody
    exact ⟨settled, by simp only [SlotReading.Answers, peer]⟩
  · have peer : (udpDiscipline hz).peer d = some d.addr := sender
    exact ⟨settled, by simp only [SlotReading.Answers, peer]; exact .inl ⟨refused, trivial⟩⟩
  · have peer : (udpDiscipline hz).peer d = some d.addr := sender
    have kept : ((row i).assign (some d.addr)).state ≠ .lastPacketReceived := by
      simpa using settled i
    constructor
    · intro j
      by_cases hj : j = i
      · rw [hj, Function.update_self]
        exact slot.settled kept
      · rw [Function.update_of_ne hj]
        exact settled j
    · simp only [SlotReading.Answers, peer]
      refine .inr ⟨i, s', grant, rfl, slot.key.trans (Session.key_assign _ _), ?_⟩
      exact slot.open_advance.trans (by rw [Session.open_assign]; rfl)

theorem RowOk.traps_iff {row : Row} (ok : RowOk row) (hz : UInt64) (cb : Bool) (d : Arrival) :
    (udpReceived hz cb row d).2 = none ↔
      d.short = false ∧ d.isEnd = true ∧
        ∃ st, sessionReading.Holds row d.addr st ∧ st.counter = 0 := by
  rcases udpReceived_cases hz cb row ok.settled d with
    ⟨hd, eq⟩ | ⟨hd, refused, -, eq⟩ | ⟨hd, i, grant, -, eq⟩
  · simp [eq, hd]
  · have none_held : ∀ st, ¬ sessionReading.Holds row d.addr st := by
      rintro st ⟨i, hk, -⟩
      exact refused.1 i hk
    simp [eq, none_held]
  · have kept : ((row i).assign (some d.addr)).state ≠ .lastPacketReceived := by
      simpa using ok.settled i
    have held (st : Stats) : sessionReading.Holds row d.addr st ↔ (row i).open? = some st :=
      grant.holds_iff ok.wellKeyed st
    simp [eq, hd, held, sessionReceived_eq_none_iff hz cb _ d kept]

theorem RowOk.step {hz : UInt64} {cb : Bool} {row row' : Row} {d : Arrival}
    {out : List Event} (ok : RowOk row) (h : (udpReceiver hz cb).step row d = (out, some row')) :
    RowOk row' := by
  obtain ⟨settled, answers⟩ := udpReceived_answers ok.settled h
  exact ⟨answers.wellKeyed ok.wellKeyed, settled⟩

theorem RowOk.reaches {hz : UInt64} {cb : Bool} {row row' : Row} {ds : List Arrival}
    {out : List Event} (ok : RowOk row) (h : (udpReceiver hz cb).Reaches row ds out row') :
    RowOk row' :=
  h.preserves RowOk (fun _ _ _ _ ok h => ok.step h) ok

/-- The sessions that datagrams leave open, in a server with `sessionMax` slots. -/
def udpBook (hz : UInt64) (b : Book Peer Stats) (ds : List Arrival) : Book Peer Stats :=
  ds.foldl ((udpDiscipline hz).serve (Fintype.card (Fin sessionMax))) b

theorem RowOk.refines {hz : UInt64} {cb : Bool} {row row' : Row} {ds : List Arrival}
    {out : List Event} {b : Book Peer Stats} (ok : RowOk row)
    (ref : sessionReading.Refines row b)
    (h : (udpReceiver hz cb).Reaches row ds out row') :
    sessionReading.Refines row' (udpBook hz b ds) :=
  (h.simulates (fun row b => RowOk row ∧ sessionReading.Refines row b) _
    (fun _ _ _ _ _ inv step => ⟨inv.1.step step,
      (udpReceived_answers inv.1.settled step).2.refines inv.1.wellKeyed inv.2⟩)
    ⟨ok, ref⟩).2

end Zperf
