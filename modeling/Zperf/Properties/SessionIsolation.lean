import Zperf.Properties.UdpSession

/-!
UDP sessions of different peers do not touch each other.

The slot search mixes lookup with allocation and hands completed slots to new
peers, so the statement is about rows that are reached from the start: keys are
apart in all of them, and a session under way is what its own datagrams alone
would have made.
-/

namespace Zperf

open Base

/-- Slot `i` is ongoing for `p`. -/
def OngoingFor (row : Row) (p : Peer) (i : Fin sessionMax) : Prop :=
  (row i).key = some p ∧ (row i).state = .ongoing

instance (row : Row) (p : Peer) (i : Fin sessionMax) : Decidable (OngoingFor row p i) :=
  inferInstanceAs (Decidable (_ ∧ _))

/-- A datagram leaves every slot as it is that is ongoing for another peer. -/
def OthersKept (hz : UInt64) (cb : Bool) (row : Row) : Prop :=
  ∀ d out row' p i, udpReceived hz cb row d = (out, some row') →
    OngoingFor row p i → p ≠ d.addr → row' i = row i

/-- From the datagram `o` that opens a session of `p` on, until an end datagram of
`p`, the statistics are those of a receiver that gets the datagrams of `p` alone. -/
def OwnAlone (hz : UInt64) (cb : Bool) (row : Row) : Prop :=
  ∀ p o mid out row', (udpReceiver hz cb).Reaches row (o :: mid) out row' →
    (∀ i, ¬ OngoingFor row p i) →
    (∃ first row₁ i, (udpReceiver hz cb).Reaches row [o] first row₁ ∧ OngoingFor row₁ p i) →
    (∀ d ∈ mid, d.sender = some p → d.isEnd = false) →
    ∃ i alone row₂ j,
      (udpReceiver hz cb).Reaches bootRow (o :: mid.filter fun d => d.addr = p) alone row₂ ∧
      OngoingFor row' p i ∧ OngoingFor row₂ p j ∧ (row' i).stats = (row₂ j).stats

/-- A peer is refused exactly when no slot has its key and all are ongoing; then
the row stays as it is and nothing is sent. -/
def RefusedWhenFull (hz : UInt64) (cb : Bool) (row : Row) : Prop :=
  ∀ d : Arrival,
    ((getSession row (some d.addr)).1 = none ↔
      (∀ j, (row j).key ≠ some d.addr) ∧ ∀ j, (row j).state = .ongoing) ∧
    ((getSession row (some d.addr)).1 = none →
      getSession row (some d.addr) = (none, row) ∧
        udpReceived hz cb row d = ([], some row))

theorem holds_iff (row : Row) (p : Peer) (st : Stats) :
    sessionReading.Holds row p st ↔ ∃ i, OngoingFor row p i ∧ (row i).stats = st := by
  simp only [SlotReading.Holds, sessionReading, Session.open_eq_some, OngoingFor, and_assoc]

theorem RowOk.othersKept {row : Row} (ok : RowOk row) (hz : UInt64) (cb : Bool) :
    OthersKept hz cb row := by
  intro d out row' p i step ongoing other
  refine (udpReceived_answers ok.settled step).2.frame ?_ ?_
  · simp [sessionReading, Session.open_eq_none, ongoing.2]
  · rw [show sessionReading.key (row i) = some p from ongoing.1]
    cases hd : d.short with
    | true => simp [(udpDiscipline_peer_eq_none hz d).mpr hd]
    | false => simpa [udpDiscipline_peer_of_not_short hz hd] using other

theorem RowOk.refusedWhenFull {row : Row} (ok : RowOk row) (hz : UInt64) (cb : Bool) :
    RefusedWhenFull hz cb row := by
  intro d
  have full : sessionReading.Refuses row d.addr ↔
      (∀ j, (row j).key ≠ some d.addr) ∧ ∀ j, (row j).state = .ongoing := by
    simp [SlotReading.Refuses, sessionReading, Session.open?]
  rcases getSession_cases row ok.settled d.addr with ⟨i, grant, eq⟩ | ⟨refused, eq⟩
  · have granted : ¬ sessionReading.Refuses row d.addr := fun h => h.not_grants _ i grant
    rw [← full, eq]
    simp [granted]
  · rw [← full, eq]
    refine ⟨by simp [refused], fun _ => ⟨rfl, ?_⟩⟩
    cases hd : d.short <;> simp [udpReceived, hd, eq]

theorem RowOk.reaches_data {row : Row} (ok : RowOk row) (hz : UInt64) (cb : Bool)
    (ds : List Arrival) (h : ∀ d ∈ ds, d.sender = some d.addr → d.isEnd = false) :
    ∃ out row', (udpReceiver hz cb).Reaches row ds out row' := by
  rw [Machine.exists_reaches_iff]
  rintro pre d post rfl out row' run
  refine Option.ne_none_iff_isSome.mp fun trap => ?_
  obtain ⟨long, isEnd, -⟩ := ((ok.reaches run).traps_iff hz cb d).mp trap
  have data := h d (by simp) (by simp [Arrival.sender, long])
  simp [data] at isEnd

/-- The book side of `OwnAlone`: both runs leave the same session of `p` open. -/
theorem lookup_udpBook_alone (hz : UInt64) (b : Book Peer Stats) (p : Peer) (o : Arrival)
    (mid : List Arrival) (closed : b.lookup p = none) {st : Stats}
    (opened : (udpBook hz b [o]).lookup p = some st)
    (stays : ∀ d ∈ mid, d.sender = some p → d.isEnd = false) :
    o.sender = some p ∧ o.isEnd = false ∧
    (udpBook hz b (o :: mid)).lookup p =
      (udpBook hz ∅ (o :: mid.filter fun d => d.addr = p)).lookup p ∧
    ((udpBook hz b (o :: mid)).lookup p).isSome := by
  obtain ⟨own, data, rfl⟩ := (udpDiscipline hz).lookup_serve_opened _ b o closed opened
  have alone : (udpBook hz ∅ [o]).lookup p = some ((udpDiscipline hz).start o) := by
    rw [← (udpDiscipline hz).advance_start data]
    exact (udpDiscipline hz).lookup_serve_room _ ∅ o own (by decide)
  let cap := Fintype.card (Fin sessionMax)
  have long := (udpDiscipline hz).lookup_foldl_serve cap mid _ opened stays
  have short := (udpDiscipline hz).lookup_foldl_serve cap (mid.filter fun d => d.addr = p) _
    alone fun d hd => stays d (List.mem_of_mem_filter hd)
  have same : (mid.filter fun d => d.addr = p).filter
        (fun d => (udpDiscipline hz).peer d = some p) =
      mid.filter fun d => (udpDiscipline hz).peer d = some p := by
    rw [List.filter_filter]
    refine List.filter_congr fun d _ => ?_
    by_cases hd : (udpDiscipline hz).peer d = some p
    · simp [hd, Arrival.addr_of_sender hd]
    · simp [hd]
  rw [same] at short
  exact ⟨own, data, long.trans short.symm, Option.isSome_iff_exists.mpr ⟨_, long⟩⟩

theorem RowOk.ownAlone {row : Row} (ok : RowOk row) {b : Book Peer Stats}
    (ref : sessionReading.Refines row b) (hz : UInt64) (cb : Bool) :
    OwnAlone hz cb row := by
  intro p o mid out row' run notYet opens stays
  have closed : b.lookup p = none := ref.lookup_none fun st hold => by
    obtain ⟨i, ongoing, -⟩ := (holds_iff row p st).mp hold
    exact notYet i ongoing
  obtain ⟨first, row₁, i, step, ongoing⟩ := opens
  have opened : (udpBook hz b [o]).lookup p = some (row₁ i).stats :=
    ((ok.refines ref step) _ _).mpr
      ((holds_iff _ _ _).mpr ⟨i, ongoing, rfl⟩)
  obtain ⟨own, data, same, isSome⟩ := lookup_udpBook_alone hz b p o mid closed opened stays
  obtain ⟨alone, row₂, run₂⟩ := bootRow_ok.reaches_data hz cb
    (o :: mid.filter fun d => d.addr = p) (by
      intro d hd hsender
      rcases List.mem_cons.mp hd with rfl | hd
      · exact data
      · rw [List.mem_filter, decide_eq_true_eq] at hd
        exact stays d hd.1 (hsender.trans (congrArg some hd.2)))
  obtain ⟨st, hst⟩ := Option.isSome_iff_exists.mp isSome
  obtain ⟨j, ongoing', rfl⟩ := (holds_iff _ _ _).mp ((ok.refines ref run p st).mp hst)
  obtain ⟨k, ongoing₂, eq⟩ := (holds_iff _ _ _).mp
    ((bootRow_ok.refines bootRow_refines run₂ p _).mp (same ▸ hst))
  exact ⟨j, alone, row₂, k, run₂, ongoing', ongoing₂, eq.symm⟩

/-- Isolation, in every row that any datagrams lead to. -/
theorem udp_sessions_isolated (hz : UInt64) (cb : Bool) (ds : List Arrival)
    (out : List Event) (row : Row) (run : (udpReceiver hz cb).Reaches bootRow ds out row) :
    KeysApart row ∧ OthersKept hz cb row ∧ OwnAlone hz cb row ∧ RefusedWhenFull hz cb row := by
  have ok := bootRow_ok.reaches run
  exact ⟨ok.keysApart, ok.othersKept hz cb,
    ok.ownAlone (bootRow_ok.refines bootRow_refines run) hz cb, ok.refusedWhenFull hz cb⟩

/-- Two peers in turn: the session of the first is what its datagrams alone make. -/
theorem udp_sessions_isolated_two_peers :
    ∃ i j, ∃ row row₂ : Row, (row i).state = .ongoing ∧ (row i).stats = (row₂ j).stats := by
  let hello (port : UInt16) (id : Int32) (tick : UInt32) : Arrival :=
    ⟨.inet port 0x0A000002, (UdpDatagram.mk id 0 0).bytes, tick⟩
  let m := udpReceiver 1000 true
  have before := m.reaches_of_isSome bootRow [hello 6001 0 5] (by decide)
  have opens := m.reaches_of_isSome ((m.run bootRow [hello 6001 0 5]).2.get (by decide))
    [hello 6000 0 7] (by decide +kernel)
  have run := m.reaches_of_isSome ((m.run bootRow [hello 6001 0 5]).2.get (by decide))
    [hello 6000 0 7, hello 6001 1 8, hello 6000 1 9] (by decide +kernel)
  obtain ⟨i, alone, row₂, j, -, ongoing, -, same⟩ :=
    (udp_sessions_isolated _ _ _ _ _ before).2.2.1 (.inet 6000 0x0A000002) _ _ _ _ run
      (by decide +kernel) ⟨_, _, ⟨1, by decide⟩, opens, by decide +kernel⟩ (by decide +kernel)
  exact ⟨i, j, _, row₂, ongoing.2, same⟩

end Zperf
