import Zperf.Properties.TestCounts

/-!
The statistics that a client shows are those of a session of the server.

The server may hear any other peers, and it may then answer with the block of another
peer's session. But it invents none: a client that shows packets as received shows what
the server has told its own callback at the end of some session.
-/

namespace Zperf

open Base

/-- The results of a session at the client and at the server's callback; the byte counts
are two readings of one 64-bit count. -/
structure Agree (shown told : Results) : Prop where
  received : shown.nbPacketsRcvd = told.nbPacketsRcvd
  lost : shown.nbPacketsLost = told.nbPacketsLost
  outorder : shown.nbPacketsOutorder = told.nbPacketsOutorder
  time : shown.timeInUs = told.timeInUs
  jitter : shown.jitterInUs = told.jitterInUs
  bytes : ∃ length : UInt64, told.totalLen = length.toUInt32 ∧
    shown.totalLen = (length % 0xFFFFFFFF).toUInt32

/-- If packets are shown as received, the callback has been told so. -/
def Results.Told (log : TestLog) (shown : Results) : Prop :=
  shown.nbPacketsRcvd ≠ 0 →
    ∃ told, .happened (.sessionCb (.finished told)) ∈ log ∧ Agree shown told

/-- Whatever it is decoded into, the block of a reply has been told. -/
def BlockTold (log : TestLog) (b : ServerHdr) : Prop :=
  ∀ hdr before, hdr.length = sizeofUdpDatagram →
    (zperfUploadDecodeStat (buildReply hdr b) before).Told log

def UploadPc.Told (log : TestLog) : UploadPc → Prop
  | .sending _ | .sent _ => True
  | .asking _ _ _ s | .receiving _ _ _ s => s.stats.length = sizeofStats
  | .draining _ _ results => results.Told log
  | .returned ret results => 0 ≤ ret → results.Told log

def agreementTerms : Terms UploadPc (Option Row) (List UInt8) (List UInt8) Event where
  parties log pc server := pc.Told log ∧ ∀ row, server = some row → RowOk row ∧
    SlotsFit (fun _ => True) (BlockTold log) row
  request _ _ _ := True
  reply log _ r := ∃ hdr b, hdr.length = sizeofUdpDatagram ∧ BlockTold log b ∧
    r = buildReply hdr b

section Log

variable {log : TestLog}

theorem Results.Told.more {shown : Results} (h : shown.Told log) (later : TestLog) :
    shown.Told (log ++ later) := by
  intro some
  obtain ⟨told, seen, agree⟩ := h some
  exact ⟨told, List.mem_append_left later seen, agree⟩

theorem BlockTold.more {b : ServerHdr} (h : BlockTold log b) (later : TestLog) :
    BlockTold (log ++ later) b :=
  fun hdr before header => (h hdr before header).more later

theorem UploadPc.Told.more {pc : UploadPc} (h : pc.Told log) (later : TestLog) :
    pc.Told (log ++ later) := by
  cases pc with
  | sending | sent | asking | receiving => exact h
  | draining => exact Results.Told.more h later
  | returned ret results => exact fun succeeded => (h succeeded).more later

theorem blockTold_of_none {b : ServerHdr} (none : b.datagrams.toUInt32 = 0) :
    BlockTold log b := by
  intro hdr before header some
  rw [decode_buildReply header] at some
  exact absurd none some

/-- The block of a session that ends, and the results that the callback is told. -/
theorem agree_block {hz : UInt64} {st : Stats} {d : Arrival} {told : Results}
    (results : st.results hz d = some told) {hdr : List UInt8}
    (header : hdr.length = sizeofUdpDatagram) (before : Results) :
    Agree (zperfUploadDecodeStat (buildReply hdr (st.block hz d)) before) told := by
  have decoded := decode_fillStat header st.slot (st.duration hz d) before
  simp only [Stats.results, finishResults] at results
  split at results
  · cases results
  · obtain rfl := Option.some.inj results
    rw [Stats.block, decoded]
    exact ⟨rfl, rfl, rfl, rfl, rfl, st.slot.length, rfl, rfl⟩

end Log

/-- What a datagram of any peer does to the blocks of the server. -/
theorem agreement_rule (hz : UInt64) (log : TestLog) (d : Arrival) (out : List Event)
    (trapped : Prop) (first : TestLog) :
    ServerRule hz true (fun _ => True) (fun _ => True) (BlockTold log)
      (BlockTold (log ++ (first ++ out.map .happened))) d out trapped where
  session _ h := h
  block b h := h.more _
  start _ := trivial
  next _ _ _ := trivial
  close st _ _ ends := by
    rcases ends with ⟨told, results, seen⟩ | ⟨zero, -⟩
    · intro hdr before header _
      refine ⟨told, ?_, agree_block results header before⟩
      have mem : Event.sessionCb (.finished told) ∈ out :=
        seen (List.mem_singleton.mpr rfl)
      exact List.mem_append_right _ (List.mem_append_right _ (List.mem_map_of_mem mem))
    · apply blockTold_of_none
      simpa only [Stats.block, fillStat, UInt32.toUInt32_toInt32, Stats.slot] using zero

/-- The uploader shows what it has received. -/
theorem agreement_left {u : UploadArgs} {log : TestLog} {pc pc' : UploadPc}
    {x : UploadCall ⊕ List UInt8} {out : List (List UInt8)} (move : UploadMove u pc x out pc')
    (hold : pc.Told log) (received : ∀ r, x = .inr r → agreementTerms.reply log pc r)
    (later : TestLog) : pc'.Told (log ++ later) := by
  -- an attempt that failed with `ret`
  have again {n endTick : UInt32} {left : Nat} {s : FinLoop} {ret : Int} (failed : ret < 0)
      (buffer : s.stats.length = sizeofStats) :
      (u.askAgain n endTick left { s with ret := ret }).Told (log ++ later) := by
    rcases askAgain_failed u n endTick left (s := { s with ret := ret }) failed with
      eq | ⟨left', eq⟩
    · rw [eq]
      exact fun succeeded => absurd failed (Int.not_lt.mpr succeeded)
    · rw [eq]
      exact buffer
  cases move with
  | stay => exact hold.more later
  | send => split <;> trivial
  | fail s t errno =>
      exact fun succeeded => absurd errno.property (Int.not_lt.mpr (by omega))
  | clock => exact List.length_replicate
  | ask => exact hold
  | askFails n endTick left s send setsockopt ret out failed => exact again failed hold
  | recvFails n endTick left s ret => exact again ret.property hold
  | recv n endTick left s data =>
      obtain ⟨hdr, b, header, told, rfl⟩ := received data rfl
      rw [answered_whole u n endTick left hold (length_buildReply header b)]
      exact (told hdr u.before header).more later
  | drained n endTick results ret =>
      intro _ some
      obtain ⟨told, seen, agree⟩ := hold some
      exact ⟨told, List.mem_append_left later seen, agree.received, agree.lost, agree.outorder,
        agree.time, agree.jitter, agree.bytes⟩

/-- The server answers with what it has told, whoever else is active. -/
theorem agreement_right {hz : UInt64} {client : Peer} {log : TestLog} {pc : UploadPc}
    {server : Option Row} (x : Arrival ⊕ List UInt8 × UInt32)
    (hold : agreementTerms.parties log pc server) (first : TestLog) :
    let next := serverStep hz true client server x
    let log' := log ++ (first ++ next.1.map .happened)
    agreementTerms.parties log' pc next.2 ∧ agreementTerms.Stable log log' pc pc ∧
      ∀ w ∈ next.1, ∀ r, replyTo client w = some r → agreementTerms.reply log' pc r := by
  obtain ⟨shown, rows⟩ := hold
  have stable (later : TestLog) : agreementTerms.Stable log (log ++ later) pc pc :=
    ⟨fun _ _ => trivial, fun r ⟨hdr, b, header, told, eq⟩ => ⟨hdr, b, header, told.more later, eq⟩⟩
  -- one datagram, from whomever
  have receive (row : Row) (d : Arrival) (serving : server = some row) :
      let next := udpReceived hz true row d
      let log' := log ++ (first ++ next.1.map .happened)
      agreementTerms.parties log' pc next.2 ∧
        ∀ w ∈ next.1, ∀ r, replyTo client w = some r → agreementTerms.reply log' pc r := by
    obtain ⟨ok, fits⟩ := rows row serving
    obtain ⟨replies, slots⟩ := udpReceived_fits ok fits (agreement_rule hz log d _ _ first)
    refine ⟨⟨shown.more _, slots⟩, fun w seen r message => ?_⟩
    obtain rfl := replyTo_eq message
    obtain ⟨hdr, b, header, told, eq, -⟩ := replies client r seen
    exact ⟨hdr, b, header, told, eq⟩
  cases server with
  | none =>
      refine ⟨⟨shown.more _, fun row serving => by cases serving⟩, stable _, ?_⟩
      intro w seen
      cases seen
  | some row =>
      cases x with
      | inl d =>
          unfold serverStep
          dsimp only
          split
          · refine ⟨⟨shown.more _, fun row' serving => ?_⟩, stable _, by simp⟩
            obtain ⟨ok, fits⟩ := rows row' serving
            exact ⟨ok, fun i => ⟨(fits i).session, (fits i).block.more _⟩⟩
          · exact ⟨(receive row d rfl).1, stable _, (receive row d rfl).2⟩
      | inr delivered =>
          exact ⟨(receive row ⟨client, delivered.1, delivered.2⟩ rfl).1, stable _,
            (receive row ⟨client, delivered.1, delivered.2⟩ rfl).2⟩

theorem agreement_contract (u : UploadArgs) (hz : UInt64) (client : Peer) :
    Contract (udpTest u hz true client) (fun _ => True) agreementTerms where
  left log pc server x hold received := by
    refine ⟨⟨agreement_left (uploadMove_step u pc x) hold.1 received _, fun row serving => ?_⟩,
      ⟨fun _ _ => trivial, ?_⟩, fun _ _ => trivial⟩
    · obtain ⟨ok, fits⟩ := hold.2 row serving
      exact ⟨ok, fun i => ⟨(fits i).session, (fits i).block.more _⟩⟩
    · rintro r ⟨hdr, b, header, told, eq⟩
      exact ⟨hdr, b, header, told.more _, eq⟩
  right log pc server x hold _ _ := agreement_right x hold (arrivedRight x)

/-- A client that shows packets as received shows the results of a session that the server
has finished, whatever the network does and whoever else is active. -/
theorem shown_statistics_told (u : UploadArgs) (hz : UInt64) (client : Peer) (loop : UploadLoop)
    (steps : List (ExchangeStep UploadCall Arrival UInt32)) (log : TestLog)
    (e : Exchange UploadPc (Option Row) (List UInt8) (List UInt8)) (results : Results)
    (run : (udpTest u hz true client).exchange.Reaches (startTest loop bootRow) steps log e)
    (returned : e.left = .returned 0 results) (received : results.nbPacketsRcvd ≠ 0) :
    ∃ told, .happened (.sessionCb (.finished told)) ∈ log ∧ Agree results told := by
  have begun : agreementTerms.Hold [] (startTest loop bootRow) := by
    refine ⟨⟨trivial, fun row serving => ?_⟩, fun _ _ => trivial, fun r hr => ?_⟩
    · obtain rfl := Option.some.inj serving
      exact ⟨bootRow_ok, bootRow_fits (blockTold_of_none rfl)⟩
    · cases hr
  have hold := (agreement_contract u hz client).reaches begun (fun _ _ => trivial) run
  have shown := hold.parties.1
  rw [returned] at shown
  exact shown le_rfl received

/-- Three datagrams, the second of which is lost, while another peer is active. -/
theorem shown_statistics_told_loss :
    ∃ log : TestLog, ∃ results : Results, results.nbPacketsLost = 1 ∧
      ∃ told, .happened (.sessionCb (.finished told)) ∈ log ∧ Agree results told := by
  let c := ((startUpload 1000 5001 20 12 10 100).get (by decide +kernel)).1
  let loop := ((startUpload 1000 5001 20 12 10 100).get (by decide +kernel)).2
  let u : UploadArgs := ⟨1000, c, 100, .zero⟩
  let other (id : Int32) (tick : UInt32) : Arrival :=
    ⟨.inet6 6000 1, (UdpDatagram.mk id 0 0).bytes, tick⟩
  let steps : List (ExchangeStep UploadCall Arrival UInt32) :=
    [.left (.turn ⟨100, true⟩ ⟨1, by decide⟩), .left (.turn ⟨110, true⟩ ⟨1, by decide⟩),
      .left (.turn ⟨120, true⟩ ⟨1, by decide⟩), .right (other 0 3), .reachRight 0 5,
      .reachRight 2 6, .right (other 1 6), .left (.clock 120), .right (other (-2) 6),
      .left (.ask 12 0), .reachRight 3 7, .reachLeft 0, .left (.recvFails ⟨-1, by decide⟩)]
  have run := (udpTest u 1000 true (.inet 6000 0x0A000002)).exchange.reaches_of_isSome
    (startTest loop bootRow) steps (by decide +kernel)
  obtain ⟨told, seen, agree⟩ := shown_statistics_told u 1000 (.inet 6000 0x0A000002) loop steps _ _
    ⟨3, 1, 1, 0, 12, 2000, 0, 20000, 12, 0⟩ run (by decide +kernel) (by decide)
  exact ⟨_, _, rfl, told, seen, agree⟩

end Zperf
