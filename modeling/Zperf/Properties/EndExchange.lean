import Zperf.Properties.SessionIsolation
import Zperf.Properties.SinglePeer

/-!
The exchange that ends an upload, under loss, duplication and reordering.

Late data is not told from the data of a new upload: it starts a new session. So
the exchange is idempotent for the deliveries that close one session only, and
`closings` counts the closed sessions from the delivered datagrams alone.
-/

namespace Zperf

open Base

/-- The end datagrams that close a session: those that come after data, with no
other end datagram in between. `ongoing` says whether there was data already. -/
def closings (ongoing : Bool) : List Arrival → Nat
  | [] => 0
  | d :: ds =>
      if d.isEnd then (if ongoing then 1 else 0) + closings false ds else closings true ds

/-- The calls of the session callback with `ZPERF_SESSION_FINISHED`. -/
def Event.isFinished : Event → Bool
  | .sessionCb (.finished _) => true
  | _ => false

/-- The datagrams `ds` of `p`, delivered from `row` on: after an end datagram that
closes the session all replies carry the same block, and the callback is told at
most once that a session has finished. -/
def EndExchangeIdempotent (hz : UInt64) (cb : Bool) (row : Row) (p : Peer)
    (ds : List Arrival) : Prop :=
  (∀ pre e post out row' i, ds = pre ++ e :: post →
    (udpReceiver hz cb).Reaches row pre out row' → OngoingFor row' p i → e.isEnd = true →
    ∃ block, ∀ b ∈ blocksTo p ((udpReceiver hz cb).run row' (e :: post)).1, b = block) ∧
  ((udpReceiver hz cb).run row ds).1.countP Event.isFinished ≤ 1

theorem finished_reply (addr : Peer) (hdr : List UInt8) (stat : ServerHdr) (out : List Event) :
    (zperfReceiverSendStat addr hdr stat :: out).countP Event.isFinished =
      out.countP Event.isFinished := by
  simp [zperfReceiverSendStat, Event.isFinished]

theorem finished_started (cb : Bool) :
    (callSessionCb cb .started).countP Event.isFinished = 0 := by
  cases cb <;> rfl

theorem finished_finished (cb : Bool) (results : Results) :
    (callSessionCb cb (.finished results)).countP Event.isFinished = if cb then 1 else 0 := by
  cases cb <;> rfl

theorem run_cons_of_step {hz : UInt64} {cb : Bool} {s s' : Session} {d : Arrival}
    {out : List Event} (h : sessionReceived hz cb s d = (out, some s')) (ds : List Arrival) :
    (slotServer hz cb).run s (d :: ds) =
      (out ++ ((slotServer hz cb).run s' ds).1, ((slotServer hz cb).run s' ds).2) := by
  have step : (slotServer hz cb).step s d = (out, some s') := h
  rw [Machine.run, step]

theorem run_cons_of_trap {hz : UInt64} {cb : Bool} {s : Session} {d : Arrival}
    {out : List Event} (h : sessionReceived hz cb s d = (out, none)) (ds : List Arrival) :
    (slotServer hz cb).run s (d :: ds) = (out, none) := by
  have step : (slotServer hz cb).step s d = (out, none) := h
  rw [Machine.run, step]

theorem closings_data {ongoing : Bool} {d : Arrival} (h : d.isEnd = false) (ds : List Arrival) :
    closings ongoing (d :: ds) = closings true ds := by
  simp [closings, h]

theorem closings_end {ongoing : Bool} {d : Arrival} (h : d.isEnd = true) (ds : List Arrival) :
    closings ongoing (d :: ds) = (if ongoing then 1 else 0) + closings false ds := by
  simp [closings, h]

theorem finished_le_closings (hz : UInt64) (cb : Bool) (ds : List Arrival) (s : Session)
    (settled : s.state ≠ .lastPacketReceived) :
    ((slotServer hz cb).run s ds).1.countP Event.isFinished ≤
      closings (s.state = .ongoing) ds := by
  induction ds generalizing s with
  | nil => simp [Machine.run]
  | cons d ds ih =>
      rcases sessionReceived_cases hz cb s d settled with
        ⟨hs, he, eq⟩ | ⟨hs, he, eq⟩ | ⟨hs, he, eq⟩ | ⟨hs, he, eq⟩
      · have rest := ih s settled
        rw [run_cons_of_step eq, closings_end he, List.singleton_append, finished_reply]
        simpa [hs] using rest
      · have rest := ih (startSession s d) (by simp [startSession])
        rw [run_cons_of_step eq, closings_data he, List.countP_append, finished_started,
          Nat.zero_add]
        simpa [startSession] using rest
      · have rest := ih (countData hz s d) (by rwa [state_countData])
        rw [run_cons_of_step eq, closings_data he, List.nil_append]
        simpa only [state_countData, hs, decide_true] using rest
      · rw [closings_end he, hs]
        rcases finishSession_eq hz cb s d with ⟨-, trap⟩ | ⟨-, results, -, fin⟩
        · rw [run_cons_of_trap (eq.trans trap), finished_reply]
          simp
        · have rest := ih (completeSession s (fillStat s (sessionDuration hz s d.tick)))
            (by simp [completeSession])
          rw [run_cons_of_step (eq.trans fin), List.cons_append, finished_reply,
            List.countP_append, finished_finished]
          simp only [state_completeSession, reduceCtorEq, decide_false, decide_true,
            if_true] at rest ⊢
          have once : (if cb then 1 else 0) ≤ 1 := by split <;> simp
          omega

theorem blocksTo_ongoing_nil (hz : UInt64) (cb : Bool) (p : Peer) (ds : List Arrival)
    (s : Session) (hs : s.state = .ongoing) (h : closings true ds = 0) :
    blocksTo p ((slotServer hz cb).run s ds).1 = [] := by
  induction ds generalizing s with
  | nil => rfl
  | cons d ds ih =>
      rcases sessionReceived_cases hz cb s d (by simp [hs]) with
        ⟨idle, -, -⟩ | ⟨idle, -, -⟩ | ⟨-, he, eq⟩ | ⟨-, he, -⟩
      · exact absurd hs idle
      · exact absurd hs idle
      · rw [closings_data he] at h
        rw [run_cons_of_step eq]
        exact ih _ (by rwa [state_countData]) h
      · simp [closings_end he] at h

/-- While no session is closed, a slot whose session is over answers with its block. -/
theorem blocksTo_over (hz : UInt64) (cb : Bool) (p : Peer) (ds : List Arrival)
    (own : ∀ d ∈ ds, d.sender = some p) (s : Session) (idle : s.state ≠ .ongoing)
    (settled : s.state ≠ .lastPacketReceived) (h : closings false ds = 0) :
    ∀ b ∈ blocksTo p ((slotServer hz cb).run s ds).1, b = s.stat.bytes := by
  induction ds with
  | nil => simp [Machine.run, blocksTo]
  | cons d ds ih =>
      have sender := own d List.mem_cons_self
      have rest := fun e he => own e (List.mem_cons_of_mem d he)
      rcases sessionReceived_cases hz cb s d settled with
        ⟨-, he, eq⟩ | ⟨-, he, eq⟩ | ⟨hs, -, -⟩ | ⟨hs, -, -⟩
      · rw [closings_end he] at h
        rw [run_cons_of_step eq, List.singleton_append, ← Arrival.addr_of_sender sender,
          blocksTo_reply _ (Arrival.long_of_sender sender), Arrival.addr_of_sender sender]
        exact List.forall_mem_cons.mpr ⟨rfl, ih rest (by simpa using h)⟩
      · rw [closings_data he] at h
        rw [run_cons_of_step eq, blocksTo_append, blocksTo_callSessionCb, List.nil_append,
          blocksTo_ongoing_nil hz cb p ds _ (by simp [startSession]) h]
        simp
      · exact absurd hs idle
      · exact absurd hs idle

/-- The end datagram of an ongoing session and everything after it, as long as that
closes no other session: one block. -/
theorem blocksTo_closing (hz : UInt64) (cb : Bool) (p : Peer) (e : Arrival) (ds : List Arrival)
    (own : ∀ d ∈ e :: ds, d.sender = some p) (s : Session) (ongoing : s.state = .ongoing)
    (he : e.isEnd = true) (h : closings true (e :: ds) ≤ 1) :
    ∀ b ∈ blocksTo p ((slotServer hz cb).run s (e :: ds)).1,
      b = (fillStat s (sessionDuration hz s e.tick)).bytes := by
  have sender := own e List.mem_cons_self
  have eq : sessionReceived hz cb s e = finishSession hz cb s e := by
    simp [sessionReceived, ongoing, he]
  rw [closings_end he] at h
  rcases finishSession_eq hz cb s e with ⟨-, trap⟩ | ⟨-, results, -, fin⟩
  · rw [run_cons_of_trap (eq.trans trap), ← Arrival.addr_of_sender sender,
      blocksTo_reply _ (Arrival.long_of_sender sender)]
    simp [blocksTo]
  · rw [run_cons_of_step (eq.trans fin), List.cons_append, ← Arrival.addr_of_sender sender,
      blocksTo_reply _ (Arrival.long_of_sender sender), Arrival.addr_of_sender sender,
      blocksTo_append, blocksTo_callSessionCb, List.nil_append]
    refine List.forall_mem_cons.mpr ⟨rfl, ?_⟩
    exact blocksTo_over hz cb p ds (fun d hd => own d (List.mem_cons_of_mem e hd))
      (completeSession s _) (by simp) (by simp) (by simp at h; omega)

theorem closings_reaches {hz : UInt64} {cb : Bool} {s s' : Session} {pre : List Arrival}
    {out : List Event} (settled : s.state ≠ .lastPacketReceived)
    (h : (slotServer hz cb).Reaches s pre out s') (rest : List Arrival) :
    s'.state ≠ .lastPacketReceived ∧
      closings (s'.state = .ongoing) rest ≤ closings (s.state = .ongoing) (pre ++ rest) := by
  induction pre generalizing s out with
  | nil =>
      obtain ⟨-, rfl⟩ := (Machine.reaches_nil _ _ _ _).mp h
      exact ⟨settled, Nat.le_refl _⟩
  | cons d pre ih =>
      obtain ⟨first, mid, later, step, run, -⟩ := (Machine.reaches_cons _ _ _ _ _ _).mp h
      have slot := sessionReceived_slotStep settled step
      obtain ⟨settled', le⟩ := ih (slot.settled settled) run
      refine ⟨settled', le.trans ?_⟩
      rw [List.cons_append]
      cases slot with
      | resend closed isEnd =>
          rw [closings_end isEnd]
          simp [Session.open_eq_none.mp closed]
      | start closed data =>
          rw [closings_data data]
          simp [startSession]
      | count st ongoing data =>
          rw [closings_data data, state_countData, (Session.open_eq_some.mp ongoing).1]
          simp
      | finish st results ongoing isEnd =>
          rw [closings_end isEnd]
          simp

/-- With a callback and no trap, a session finishes for each end datagram that closes. -/
theorem finished_eq_closings {hz : UInt64} {s s' : Session} {ds : List Arrival}
    {out : List Event} (settled : s.state ≠ .lastPacketReceived)
    (run : (slotServer hz true).Reaches s ds out s') :
    out.countP Event.isFinished = closings (s.state = .ongoing) ds := by
  induction ds generalizing s out with
  | nil =>
      obtain ⟨rfl, -⟩ := (Machine.reaches_nil _ _ _ _).mp run
      rfl
  | cons d ds ih =>
      obtain ⟨first, mid, later, step, rest, rfl⟩ := (Machine.reaches_cons _ _ _ _ _ _).mp run
      have slot := sessionReceived_slotStep settled step
      rw [List.countP_append, ih (slot.settled settled) rest]
      cases slot with
      | resend closed isEnd =>
          rw [finished_reply, closings_end isEnd]
          simp [Session.open_eq_none.mp closed]
      | start closed data =>
          rw [finished_started, closings_data data]
          simp [startSession]
      | count st ongoing data =>
          rw [closings_data data, state_countData, (Session.open_eq_some.mp ongoing).1]
          simp
      | finish st results ongoing isEnd =>
          rw [finished_reply, finished_finished, closings_end isEnd,
            (Session.open_eq_some.mp ongoing).1]
          simp

theorem reaches_slotServer {hz : UInt64} {cb : Bool} {row row' : Row} (ok : RowOk row)
    {p : Peer} (idle : ∀ i, ¬ OngoingFor row p i) {pre : List Arrival}
    (own : ∀ d ∈ pre, d.sender = some p) {out : List Event}
    (run : (udpReceiver hz cb).Reaches row pre out row') {j : Fin sessionMax}
    (ongoing : OngoingFor row' p j) :
    ∃ i s', (getSession row (some p)).1 = some i ∧
      (slotServer hz cb).Reaches ((row i).assign (some p)) pre out s' ∧
      s'.state = .ongoing ∧ (getSession row' (some p)).1 = some i ∧
      (row' i).assign (some p) = s' := by
  cases found : (getSession row (some p)).1 with
  | none =>
      obtain ⟨-, same⟩ := Prod.mk.inj ((run_refused ok found pre own).symm.trans run)
      exact absurd (Option.some.inj same ▸ ongoing) (idle j)
  | some i =>
      cases pre with
      | nil =>
          obtain ⟨-, rfl⟩ := (Machine.reaches_nil _ _ _ _).mp run
          exact absurd ongoing (idle j)
      | cons d pre =>
          have whole := (run_eq_slotServer ok found d pre own).symm.trans run
          obtain ⟨hout, hrow⟩ := Prod.mk.inj whole
          obtain ⟨s', hs', rfl⟩ := Option.map_eq_some_iff.mp hrow
          have slotRun : (slotServer hz cb).Reaches ((row i).assign (some p)) (d :: pre) out s' :=
            Prod.ext hout hs'
          have ok' := ok.reaches run
          have key : s'.key = some p := by
            refine (slotRun.preserves (fun s => s.key = some p ∧ s.state ≠ .lastPacketReceived)
              (fun s d out t inv step => ?_) ⟨Session.key_assign _ _, by simpa using ok.settled i⟩).1
            have slot := sessionReceived_slotStep inv.2 step
            exact ⟨slot.key.trans inv.1, slot.settled inv.2⟩
          have here : (Function.update row i s' i).key = some p := by rwa [Function.update_self]
          obtain rfl := ok'.wellKeyed.unique j i p ongoing.1 here
          refine ⟨j, s', rfl, slotRun, ?_, getSession_of_key ok' here, ?_⟩
          · have state := ongoing.2
            rwa [Function.update_self] at state
          · rw [Function.update_self, Session.assign_of_key _ _ key]

theorem state_of_found {row : Row} (ok : RowOk row) {p : Peer}
    (idle : ∀ i, ¬ OngoingFor row p i) {i : Fin sessionMax}
    (found : (getSession row (some p)).1 = some i) :
    ((row i).assign (some p)).state ≠ .ongoing := by
  rw [Session.state_assign]
  intro busy
  rcases getSession_cases row ok.settled p with ⟨k, grant, eq⟩ | ⟨-, eq⟩
  · obtain rfl := Option.some.inj ((congrArg Prod.fst eq).symm.trans found)
    rcases grant with hk | ⟨-, free⟩
    · exact idle k ⟨hk, busy⟩
    · simp [sessionReading, Session.open?, busy] at free
  · simp [eq] at found

/-- Whatever is lost, duplicated or reordered, the exchange is idempotent as long as
the delivered datagrams close one session. -/
theorem end_exchange_idempotent (hz : UInt64) (cb : Bool) (past : List Arrival)
    (out₀ : List Event) (row : Row) (p : Peer) (ds : List Arrival)
    (before : (udpReceiver hz cb).Reaches bootRow past out₀ row)
    (idle : ∀ i, ¬ OngoingFor row p i) (own : ∀ d ∈ ds, d.sender = some p)
    (once : closings false ds ≤ 1) : EndExchangeIdempotent hz cb row p ds := by
  have ok := bootRow_ok.reaches before
  constructor
  · intro pre e post out row' j split run ongoing he
    subst split
    obtain ⟨i, s', found, slotRun, state, found', same⟩ := reaches_slotServer ok idle
      (fun d hd => own d (List.mem_append_left _ hd)) run ongoing
    have kept : ((row i).assign (some p)).state ≠ .lastPacketReceived := by
      simpa using ok.settled i
    have closed := state_of_found ok idle found
    have left := (closings_reaches kept slotRun (e :: post)).2
    rw [state] at left
    simp only [closed, decide_false, decide_true] at left
    have tail : ∀ d ∈ e :: post, d.sender = some p :=
      fun d hd => own d (List.mem_append_right _ hd)
    rw [run_eq_slotServer (ok.reaches run) found' e post tail, same]
    exact ⟨_, blocksTo_closing hz cb p e post tail s' state he (left.trans once)⟩
  · cases ds with
    | nil => simp [Machine.run]
    | cons d ds =>
        cases found : (getSession row (some p)).1 with
        | none => simp [run_refused ok found (d :: ds) own]
        | some i =>
            rw [run_eq_slotServer ok found d ds own]
            have most := finished_le_closings hz cb (d :: ds) ((row i).assign (some p))
              (by simpa using ok.settled i)
            simp only [state_of_found ok idle found, decide_false] at most
            exact most.trans once

/-- Two data datagrams, the end datagram twice, and a late duplicate of the last data. -/
theorem end_exchange_idempotent_late_data :
    EndExchangeIdempotent 1000 true bootRow (.inet 6000 0x0A000002)
      [⟨.inet 6000 0x0A000002, (UdpDatagram.mk 0 0 0).bytes, 5⟩,
        ⟨.inet 6000 0x0A000002, (UdpDatagram.mk 1 0 0).bytes, 6⟩,
        ⟨.inet 6000 0x0A000002, (UdpDatagram.mk (-2) 0 0).bytes, 7⟩,
        ⟨.inet 6000 0x0A000002, (UdpDatagram.mk (-2) 0 0).bytes, 8⟩,
        ⟨.inet 6000 0x0A000002, (UdpDatagram.mk 1 0 0).bytes, 9⟩] :=
  end_exchange_idempotent 1000 true [] [] bootRow _ _
    ((Machine.reaches_nil _ _ _ _).mpr ⟨rfl, rfl⟩) (by decide) (by decide +kernel)
    (by decide +kernel)

/-- Late duplicates of both data datagrams between the two end datagrams: the upload
finishes twice. -/
theorem late_data_finishes_twice :
    ¬ EndExchangeIdempotent 1000 true bootRow (.inet 6000 0x0A000002)
      [⟨.inet 6000 0x0A000002, (UdpDatagram.mk 0 0 0).bytes, 5⟩,
        ⟨.inet 6000 0x0A000002, (UdpDatagram.mk 1 0 0).bytes, 6⟩,
        ⟨.inet 6000 0x0A000002, (UdpDatagram.mk (-2) 0 0).bytes, 7⟩,
        ⟨.inet 6000 0x0A000002, (UdpDatagram.mk 0 0 0).bytes, 8⟩,
        ⟨.inet 6000 0x0A000002, (UdpDatagram.mk 1 0 0).bytes, 9⟩,
        ⟨.inet 6000 0x0A000002, (UdpDatagram.mk (-2) 0 0).bytes, 10⟩] := by
  rintro ⟨-, once⟩
  exact absurd once (by decide +kernel)

end Zperf
