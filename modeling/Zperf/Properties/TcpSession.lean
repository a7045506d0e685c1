import Zperf.Core.TcpReceiver
import Zperf.Properties.CallbackBalance

/-!
What one call of `tcp_received` does to the TCP row.

As for datagrams: a call changes one slot that `get_session` grants, or nothing, and the
open sessions are those of the bounded book under `tcpDiscipline`. An address of no IP
family changes no key.
-/

namespace Zperf

open Base

/-- The statistics after the bytes of one more call. -/
def tcpStats (st : Stats) (d : TcpArrival) : Stats :=
  (updateCounter st.slot d.datalen.toNat).stats

/-- The rules of one TCP session: any call opens or continues it, the end of file
closes it. -/
def tcpDiscipline : Discipline Peer TcpArrival Stats where
  peer d := d.addr
  closes d := d.datalen = 0
  start d := tcpStats (startTcpSession .zero d).stats d
  next := tcpStats

/-- What a call makes of a slot that is over or ongoing. -/
structure TcpSlotStep (s : Session) (d : TcpArrival) (s' : Session) : Prop where
  key : s'.key = s.key
  settled : s'.state ≠ .lastPacketReceived
  advances : s'.open? = tcpDiscipline.advance d s.open?
  length : s'.length =
    (if s.state = .ongoing then s.length else 0) + UInt64.ofNat d.datalen.toNat

theorem tcpOngoing_slotStep (hz : UInt64) (cb : Bool) {s : Session} (d : TcpArrival)
    (ongoing : s.state = .ongoing) : TcpSlotStep s d (tcpOngoing hz cb s d).2 := by
  have isOpen : s.open? = some s.stats := Session.open_eq_some.mpr ⟨ongoing, rfl⟩
  unfold tcpOngoing
  dsimp only
  split
  · rename_i eof
    refine ⟨?key, ?settled, ?advances, ?length⟩
    case key => rfl
    case settled => simp
    case advances =>
      rw [tcpDiscipline.advance_closes (by simpa [tcpDiscipline] using eof)]
      rfl
    case length =>
      rw [if_pos ongoing]
      rfl
  · rename_i data
    refine ⟨?key, ?settled, ?advances, ?length⟩
    case key => rfl
    case settled =>
      show s.state ≠ .lastPacketReceived
      simp [ongoing]
    case advances =>
      rw [isOpen, tcpDiscipline.advance_next (by simpa [tcpDiscipline] using data)]
      exact Session.open_eq_some.mpr ⟨ongoing, stats_updateCounter_congr rfl _⟩
    case length =>
      rw [if_pos ongoing]
      rfl

theorem tcpSessionReceived_slotStep (hz : UInt64) (cb : Bool) {s : Session} (d : TcpArrival)
    (settled : s.state ≠ .lastPacketReceived) :
    TcpSlotStep s d (tcpSessionReceived hz cb s d).2 := by
  have fresh := tcpOngoing_slotStep hz cb (s := startTcpSession s d) d rfl
  unfold tcpSessionReceived
  cases state : s.state with
  | completed | null =>
      have closed : s.open? = none := Session.open_eq_none.mpr (by simp [state])
      refine ⟨fresh.key, fresh.settled, ?advances, ?length⟩
      case advances =>
        refine fresh.advances.trans ?_
        cases eof : tcpDiscipline.closes d with
        | true => rw [tcpDiscipline.advance_closes eof, tcpDiscipline.advance_closes eof]
        | false =>
            rw [closed, tcpDiscipline.advance_start eof]
            exact tcpDiscipline.advance_next eof (startTcpSession s d).stats
      case length => simpa [state, startTcpSession, zperfResetSessionStats] using fresh.length
  | ongoing => exact tcpOngoing_slotStep hz cb d state
  | lastPacketReceived => exact absurd state settled

/-- Everything one call for an IP peer can do. -/
theorem tcpReceived_cases (hz : UInt64) (cb : Bool) {row : Row} (settled : Settled row)
    {d : TcpArrival} {p : Peer} (addr : d.addr = some p) :
    (sessionReading.Refuses row p ∧ (getSession row d.addr).1 = none ∧
      tcpReceived hz cb row d = ([], row)) ∨
    ∃ i s', sessionReading.Grants row p i ∧ (getSession row d.addr).1 = some i ∧
      TcpSlotStep ((row i).assign (some p)) d s' ∧
      (tcpReceived hz cb row d).2 = Function.update row i s' := by
  rw [addr]
  cases getSession_cases row settled p with
  | inl found =>
      obtain ⟨i, grant, eq⟩ := found
      have kept : ((row i).assign (some p)).state ≠ .lastPacketReceived := by
        simpa using settled i
      refine .inr ⟨i, _, grant, by rw [eq], tcpSessionReceived_slotStep hz cb d kept, ?_⟩
      rw [tcpReceived, addr, eq]
      simp only [Function.update_self, Function.update_idem]
  | inr refused =>
      exact .inl ⟨refused.1, by rw [refused.2], by rw [tcpReceived, addr, refused.2]⟩

theorem settled_update {row : Row} (settled : Settled row) (i : Fin sessionMax) {s : Session}
    (h : s.state ≠ .lastPacketReceived) : Settled (Function.update row i s) := by
  intro j
  by_cases own : j = i
  · rwa [own, Function.update_self]
  · rw [Function.update_of_ne own]
    exact settled j

theorem tcpReceived_answers (hz : UInt64) (cb : Bool) {row : Row} (settled : Settled row)
    {d : TcpArrival} {p : Peer} (addr : d.addr = some p) :
    Settled (tcpReceived hz cb row d).2 ∧
      sessionReading.Answers tcpDiscipline row d (tcpReceived hz cb row d).2 := by
  have peer : tcpDiscipline.peer d = some p := addr
  simp only [SlotReading.Answers, peer]
  cases tcpReceived_cases hz cb settled addr with
  | inl refused =>
      rw [refused.2.2]
      exact ⟨settled, .inl ⟨refused.1, rfl⟩⟩
  | inr found =>
      obtain ⟨i, s', grant, -, slot, eq⟩ := found
      rw [eq]
      refine ⟨settled_update settled i slot.settled, .inr ⟨i, s', grant, rfl, ?_, ?_⟩⟩
      · exact slot.key.trans (Session.key_assign _ _)
      · exact slot.advances.trans (by rw [Session.open_assign]; rfl)

/-- The sessions ongoing after a call: the caller's own, unless the call ended it, and
those of others, as they were. -/
theorem tcpReceived_ongoing (hz : UInt64) (cb : Bool) {row : Row} (ok : RowOk row)
    {d : TcpArrival} {p : Peer} (addr : d.addr = some p) {j : Fin sessionMax}
    (ongoing : ((tcpReceived hz cb row d).2 j).state = .ongoing) :
    (((tcpReceived hz cb row d).2 j).key = some p ∧ d.datalen ≠ 0) ∨
      ((tcpReceived hz cb row d).2 j = row j ∧ (row j).key ≠ some p) := by
  cases tcpReceived_cases hz cb ok.settled addr with
  | inl refused =>
      rw [refused.2.2]
      exact .inr ⟨rfl, refused.1.1 j⟩
  | inr found =>
      obtain ⟨i, s', grant, -, slot, eq⟩ := found
      rw [eq] at ongoing ⊢
      by_cases own : j = i
      · subst own
        rw [Function.update_self] at ongoing ⊢
        refine .inl ⟨slot.key.trans (Session.key_assign _ _), fun eof => ?_⟩
        have closed := slot.advances
        rw [tcpDiscipline.advance_closes (by simpa [tcpDiscipline] using eof)] at closed
        exact Session.open_eq_none.mp closed ongoing
      · rw [Function.update_of_ne own]
        exact .inr ⟨rfl, grant.only ok.wellKeyed.unique j own⟩

theorem RowOk.tcpReceived {row : Row} (ok : RowOk row) (hz : UInt64) (cb : Bool)
    {d : TcpArrival} {p : Peer} (addr : d.addr = some p) :
    RowOk (tcpReceived hz cb row d).2 := by
  have answers := tcpReceived_answers hz cb ok.settled addr
  exact ⟨answers.2.wellKeyed ok.wellKeyed, answers.1⟩

/-! ### Rows that any calls leave -/

theorem KeysApart.update {row : Row} (apart : KeysApart row) {i : Fin sessionMax} {s : Session}
    (only : ∀ j p, j ≠ i → s.key = some p → (row j).key ≠ some p) :
    KeysApart (Function.update row i s) :=
  @SlotReading.unique_update _ _ _ _ sessionReading _ row apart i s only

theorem tcpReceived_unspec (hz : UInt64) (cb : Bool) (row : Row) {d : TcpArrival}
    (addr : d.addr = none) :
    (tcpReceived hz cb row d).2 = row ∨
      ∃ i, (tcpReceived hz cb row d).2 =
        Function.update row i (tcpSessionReceived hz cb (row i) d).2 := by
  unfold tcpReceived
  rw [addr]
  cases getSession_slot row none with
  | inl refused =>
      rw [refused]
      exact .inl rfl
  | inr found =>
      obtain ⟨i, known | taken⟩ := found
      · rw [known]
        exact .inr ⟨i, rfl⟩
      · have same : (row i).assign none = row i := rfl
        rw [taken, same, Function.update_eq_self]
        exact .inr ⟨i, rfl⟩

theorem KeysApart.tcpReceived {row : Row} (apart : KeysApart row) (settled : Settled row)
    (hz : UInt64) (cb : Bool) (d : TcpArrival) :
    KeysApart (tcpReceived hz cb row d).2 ∧ Settled (tcpReceived hz cb row d).2 := by
  cases addr : d.addr with
  | none =>
      cases tcpReceived_unspec hz cb row addr with
      | inl same =>
          rw [same]
          exact ⟨apart, settled⟩
      | inr found =>
          obtain ⟨i, eq⟩ := found
          have slot := tcpSessionReceived_slotStep hz cb d (settled i)
          rw [eq]
          refine ⟨apart.update ?_, settled_update settled i slot.settled⟩
          intro j p ne key there
          exact ne (apart j i p there (slot.key.symm.trans key))
  | some p =>
      cases tcpReceived_cases hz cb settled addr with
      | inl refused =>
          rw [refused.2.2]
          exact ⟨apart, settled⟩
      | inr found =>
          obtain ⟨i, s', grant, -, slot, eq⟩ := found
          rw [eq]
          refine ⟨apart.update ?_, settled_update settled i slot.settled⟩
          intro j q ne key
          rw [slot.key, Session.key_assign] at key
          exact Option.some.inj key ▸ SlotReading.Grants.only (K := sessionReading) apart grant j ne

theorem tcpReceiver_keysApart {hz : UInt64} {cb : Bool} {row row' : Row} {ds : List TcpArrival}
    {out : List Event} (apart : KeysApart row) (settled : Settled row)
    (run : (tcpReceiver hz cb).Reaches row ds out row') : KeysApart row' ∧ Settled row' :=
  run.preserves (fun row => KeysApart row ∧ Settled row)
    (fun row d out row' before step => by
      obtain ⟨-, rfl⟩ := goesOn_inj step
      exact before.1.tcpReceived before.2 hz cb d)
    ⟨apart, settled⟩

/-- Rows that calls of `tcp_received` leave with no session ongoing. -/
theorem RowOk.of_tcpReceiver {hz : UInt64} {cb : Bool} {row : Row} {ds : List TcpArrival}
    {out : List Event} (run : (tcpReceiver hz cb).Reaches bootRow ds out row)
    (idle : ∀ i, (row i).state ≠ .ongoing) : RowOk row := by
  have kept := tcpReceiver_keysApart bootRow_ok.keysApart bootRow_ok.settled run
  refine ⟨⟨kept.1, ?_⟩, kept.2⟩
  intro i st isOpen
  exact absurd (Session.open_eq_some.mp isOpen).1 (idle i)

end Zperf
