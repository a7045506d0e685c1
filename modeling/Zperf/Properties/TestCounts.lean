import Zperf.Properties.LosslessUpload
import Zperf.Properties.TestClient
import Zperf.Properties.TestServer

/-!
The counts of a finished test, conserved across the network.

Whatever is lost, duplicated or reordered on the way, in either direction, what the client
shows at the end fits what it has sent: the packets received and lost, net of those out of
order, are fewer than the packets sent, and the bytes are those of the packets received.
-/

namespace Zperf

open Base

/-- Counts of received and lost packets and of bytes, against `n` packets of `size` bytes
sent and `k` datagrams delivered. The sums are those of 32-bit words; the bytes come as the
lower word of the reply. -/
structure Conserved (n k size : Nat) (received lost outorder bytes : UInt32) : Prop where
  balance : ∃ g, g < max 1 n ∧ lost + received = outorder + UInt32.ofNat g
  delivered : received.toNat ≤ k
  bytes : k < 2 ^ 32 → bytes.toNat = received.toNat * size % 0xFFFFFFFF

/-- The same of the statistics of a session that is open. -/
structure StatsConserved (n k size : Nat) (st : Stats) : Prop where
  balance : st.error + st.counter + 1 = st.outorder + st.nextId
  pos : 1 ≤ st.nextId.toNat
  next : st.nextId.toNat ≤ max 1 n
  delivered : st.counter.toNat ≤ k
  bytes : k < 2 ^ 32 → st.length.toNat = st.counter.toNat * size

def BlockConserved (n k size : Nat) (b : ServerHdr) : Prop :=
  Conserved n k size b.datagrams.toUInt32 b.errorCnt.toUInt32 b.outorderCnt.toUInt32
    b.totalLen2.toUInt32

def Results.Conserved (n k size : Nat) (r : Results) : Prop :=
  Zperf.Conserved n k size r.nbPacketsRcvd r.nbPacketsLost r.nbPacketsOutorder r.totalLen

section Bounds

variable {n n' k k' size : Nat}

theorem Conserved.mono {received lost outorder bytes : UInt32}
    (h : Conserved n k size received lost outorder bytes) (hn : n ≤ n') (hk : k ≤ k') :
    Conserved n' k' size received lost outorder bytes where
  balance := by
    obtain ⟨g, less, eq⟩ := h.balance
    exact ⟨g, by omega, eq⟩
  delivered := h.delivered.trans hk
  bytes few := h.bytes (by omega)

theorem StatsConserved.mono {st : Stats} (h : StatsConserved n k size st) (hn : n ≤ n')
    (hk : k ≤ k') : StatsConserved n' k' size st where
  balance := h.balance
  pos := h.pos
  next := h.next.trans (by omega)
  delivered := h.delivered.trans hk
  bytes few := h.bytes (by omega)

/-- The block before any session. -/
theorem blockConserved_zero : BlockConserved n k size .zero where
  balance := ⟨0, by omega, rfl⟩
  delivered := Nat.zero_le _
  bytes _ := by
    have zero : (ServerHdr.zero.datagrams.toUInt32).toNat = 0 := rfl
    rw [zero, Nat.zero_mul]
    rfl

theorem statsConserved_open (d : Arrival) : StatsConserved n k size (openStats d) where
  balance := rfl
  pos := Nat.le_refl 1
  next := Nat.le_max_left 1 n
  delivered := Nat.zero_le _
  bytes _ := by
    have zero : (openStats d).counter.toNat = 0 := rfl
    rw [zero, Nat.zero_mul]
    rfl

/-- Every id that is checked is paid for once, in 32-bit words. -/
theorem balance_checkId (s : Session) (id : Int32) :
    (checkId s id).error + s.outorder + s.nextId + 1 =
      s.error + (checkId s id).outorder + (checkId s id).nextId := by
  unfold checkId
  split
  · split
    · grind
    · have succ : (id + 1).toUInt32 = id.toUInt32 + 1 := Int32.toUInt32_add _ _
      simp only [succ]
      grind
  · grind

theorem length_recordTransit (s : Session) (t : Int32) :
    (recordTransit s t).length = s.length := rfl

theorem length_updateCounter (s : Session) (n : Nat) :
    (updateCounter s n).length = s.length + UInt64.ofNat n := rfl

theorem toNat_add_one_le (x : UInt32) : (x + 1).toNat ≤ x.toNat + 1 := by
  rw [UInt32.toNat_add]
  exact Nat.mod_le _ _

theorem balance_carried {error error' counter outorder outorder' next next' : UInt32}
    (before : error + counter + 1 = outorder + next)
    (paid : error' + outorder + next + 1 = error + outorder' + next') :
    error' + (counter + 1) + 1 = outorder' + next' := by
  grind

theorem nextId_checkId (s : Session) (id : Int32) (small : id.toUInt32.toNat < 2 ^ 31)
    (pos : 1 ≤ s.nextId.toNat) :
    1 ≤ (checkId s id).nextId.toNat ∧
      (checkId s id).nextId.toNat ≤ max s.nextId.toNat (id.toUInt32.toNat + 1) := by
  have succ : (id + 1).toUInt32.toNat = id.toUInt32.toNat + 1 := by
    rw [Int32.toUInt32_add]
    exact toNat_add_one (by omega)
  unfold checkId
  split
  · split
    · exact ⟨pos, Nat.le_max_left _ _⟩
    · dsimp only
      omega
  · rename_i eq
    have same : id.toUInt32 = s.nextId := by simpa using eq
    have next : (s.nextId + 1).toNat = s.nextId.toNat + 1 := by
      rw [← same]
      exact toNat_add_one (by omega)
    dsimp only
    rw [next, same]
    omega

theorem checkId_counts (s : Session) (id : Int32) :
    (checkId s id).counter = s.counter ∧ (checkId s id).length = s.length := by
  unfold checkId
  split
  · split <;> exact ⟨rfl, rfl⟩
  · exact ⟨rfl, rfl⟩

/-- Data is counted, and its id is checked in what comes of that. -/
theorem dataStats_eq (hz : UInt64) (st : Stats) (d : Arrival) :
    ∃ s : Session, s.nextId = st.nextId ∧ s.outorder = st.outorder ∧ s.error = st.error ∧
      s.counter = st.counter + 1 ∧ s.length = st.length + UInt64.ofNat d.data.length ∧
      dataStats hz st d = (checkId s d.hdr.id).stats := by
  refine ⟨recordTransit (updateCounter st.slot d.data.length) (transitTime hz d), ?_⟩
  obtain ⟨next, outorder, error⟩ :=
    recordTransit_loss (updateCounter st.slot d.data.length) (transitTime hz d)
  obtain ⟨next', outorder', error'⟩ := updateCounter_loss st.slot d.data.length
  rw [next, next', outorder, outorder', error, error', counter_recordTransit,
    counter_updateCounter, length_recordTransit, length_updateCounter]
  exact ⟨rfl, rfl, rfl, rfl, rfl, by rw [dataStats, countData]⟩

/-- One more datagram of `size` bytes, whose number is below `n`, leaves the slot `s`. -/
theorem StatsConserved.counted {st : Stats} (h : StatsConserved n k size st) {s : Session}
    {id : Nat} (sent : id < n) (small : size ≤ 1024)
    (paid : s.error + st.outorder + st.nextId + 1 = st.error + s.outorder + s.nextId)
    (pos : 1 ≤ s.nextId.toNat) (next : s.nextId.toNat ≤ max st.nextId.toNat (id + 1))
    (counter : s.counter = st.counter + 1) (bytes : s.length = st.length + UInt64.ofNat size) :
    StatsConserved n (k + 1) size s.stats := by
  refine ⟨?balance, pos, ?next, ?delivered, fun few => ?bytes⟩
  case balance =>
      rw [Session.stats, counter]
      exact balance_carried h.balance paid
  case next =>
      refine next.trans ?_
      have before := h.next
      omega
  case delivered =>
      rw [Session.stats, counter]
      exact (toNat_add_one_le _).trans (Nat.succ_le_succ h.delivered)
  case bytes =>
      have before := h.bytes (by omega)
      have delivered := h.delivered
      have more : (st.counter + 1).toNat = st.counter.toNat + 1 := toNat_add_one (by omega)
      have bound : st.counter.toNat * size ≤ st.counter.toNat * 1024 :=
        Nat.mul_le_mul_left _ small
      rw [Session.stats, counter, bytes, more, UInt64.toNat_add, UInt64.toNat_ofNat', before,
        Nat.succ_mul, Nat.mod_eq_of_lt (show size < 2 ^ 64 by omega)]
      exact Nat.mod_eq_of_lt (by omega)

/-- One more datagram of an upload, with a number that has been sent. -/
theorem StatsConserved.data (hz : UInt64) {st : Stats} (h : StatsConserved n k size st)
    {d : Arrival} (data : d.isEnd = false) (sent : d.dataId < n) (length : d.data.length = size)
    (small : size ≤ 1024) : StatsConserved n (k + 1) size (dataStats hz st d) := by
  obtain ⟨s, next, outorder, error, counter, bytes, eq⟩ := dataStats_eq hz st d
  have id := dataId_eq data
  obtain ⟨counter', bytes'⟩ := checkId_counts s d.hdr.id
  have paid := balance_checkId s d.hdr.id
  have bounds := nextId_checkId s d.hdr.id (by rw [id]; exact dataId_lt d)
    (by rw [next]; exact h.pos)
  rw [next, outorder, error] at paid
  rw [next, id] at bounds
  rw [eq]
  exact h.counted sent small paid bounds.1 bounds.2 (counter'.trans counter)
    (bytes'.trans (by rw [bytes, length]))

/-- The block of a session that ends. -/
theorem StatsConserved.block (hz : UInt64) {st : Stats} (h : StatsConserved n k size st)
    (d : Arrival) : BlockConserved n k size (st.block hz d) where
  balance := by
    have := h.next
    have pos := h.pos
    refine ⟨st.nextId.toNat - 1, by omega, ?_⟩
    have before := h.balance
    have one : UInt32.ofNat (st.nextId.toNat - 1) + 1 = st.nextId := by
      rw [show (1 : UInt32) = UInt32.ofNat 1 from rfl, ← UInt32.ofNat_add, Nat.sub_add_cancel pos,
        UInt32.ofNat_toNat]
    simp only [Stats.block, fillStat, UInt32.toUInt32_toInt32, Stats.slot]
    grind
  delivered := by
    simpa only [Stats.block, fillStat, UInt32.toUInt32_toInt32, Stats.slot] using h.delivered
  bytes few := by
    simp only [Stats.block, fillStat, UInt32.toUInt32_toInt32, Stats.slot, toNat_totalLen2,
      h.bytes few]

theorem BlockConserved.decoded {b : ServerHdr} (h : BlockConserved n k size b) {hdr : List UInt8}
    (header : hdr.length = sizeofUdpDatagram) (before : Results) :
    (zperfUploadDecodeStat (buildReply hdr b) before).Conserved n k size := by
  rw [decode_buildReply header]
  exact h

end Bounds

/-- The number of data datagrams sent, unless the upload has failed. -/
def UploadPc.nbPackets : UploadPc → Option UInt32
  | .sending s => some s.nbPackets
  | .sent nbPackets | .asking nbPackets _ _ _ | .receiving nbPackets _ _ _ |
      .draining nbPackets _ _ => some nbPackets
  | .returned ret results => if ret < 0 then none else some results.nbPacketsSent

/-- What the uploader knows after it has sent all its data, `k` datagrams delivered. -/
def UploadPc.Conserved (k size : Nat) : UploadPc → Prop
  | .sending _ => True
  | .sent nbPackets => 0 < nbPackets.toNat
  | .asking nbPackets _ _ s | .receiving nbPackets _ _ s =>
      0 < nbPackets.toNat ∧ s.stats.length = sizeofStats
  | .draining nbPackets _ results =>
      0 < nbPackets.toNat ∧ results.Conserved nbPackets.toNat k size
  | .returned ret results => 0 ≤ ret → 0 < results.nbPacketsSent.toNat ∧
      results.packetSize.toNat = size ∧ results.Conserved results.nbPacketsSent.toNat k size

/-- What is seen of a test. -/
abbrev TestLog := List (ExchangeEvent (List UInt8) (List UInt8) Event)

/-- Fewer datagrams have been sent than an `int32_t` can number. -/
def Few (log : TestLog) : Prop := sentCount log < 2 ^ 31

/-- Datagrams on their way have numbers that have been reached and the one size, replies
carry counts that fit the number reached, and so do all sessions and blocks of the server.
Nothing is said of a test whose upload has failed. -/
def countTerms (size : Nat) : Terms UploadPc (Option Row) (List UInt8) (List UInt8) Event where
  parties log pc server := Few log → ∀ n, pc.nbPackets = some n →
    n.toNat ≤ sentCount log ∧ pc.Conserved (reachedCount log) size ∧
    ∀ row, server = some row → RowOk row ∧
      SlotsFit (StatsConserved n.toNat (reachedCount log) size)
        (BlockConserved n.toNat (reachedCount log) size) row
  request log pc m := Few log → ∀ n, pc.nbPackets = some n → 0 ≤ (UdpDatagram.read m).id →
    (UdpDatagram.read m).id.toNatClampNeg < n.toNat ∧ m.length = size
  reply log pc r := Few log → ∀ n, pc.nbPackets = some n → ∃ hdr b,
    hdr.length = sizeofUdpDatagram ∧ BlockConserved n.toNat (reachedCount log) size b ∧
    r = buildReply hdr b

section Client

variable {size : Nat} {log log' : TestLog} {pc pc' : UploadPc} {server : Option Row}

/-- A step of the uploader that does not lower the number of datagrams. -/
theorem countTerms_left (hold : (countTerms size).parties log pc server)
    (reached : reachedCount log' = reachedCount log) (more : sentCount log ≤ sentCount log')
    (advance : Few log' → ∀ n', pc'.nbPackets = some n' → ∃ n, pc.nbPackets = some n ∧
      n.toNat ≤ n'.toNat ∧ (n.toNat ≤ sentCount log → pc.Conserved (reachedCount log) size →
        n'.toNat ≤ sentCount log' ∧ pc'.Conserved (reachedCount log) size)) :
    (countTerms size).parties log' pc' server ∧ (countTerms size).Stable log log' pc pc' := by
  have few (h : Few log') : Few log := Nat.lt_of_le_of_lt more h
  refine ⟨fun h n' here => ?parties, ⟨fun m request h n' here => ?request,
    fun r reply h n' here => ?reply⟩⟩
  case parties =>
      obtain ⟨n, was, le, next⟩ := advance h n' here
      obtain ⟨below, client, rows⟩ := hold (few h) n was
      obtain ⟨below', client'⟩ := next below client
      rw [reached]
      refine ⟨below', client', fun row serving => ?_⟩
      obtain ⟨ok, fits⟩ := rows row serving
      refine ⟨ok, fun i => ⟨fun st isOpen => ((fits i).session st isOpen).mono le le_rfl,
        (fits i).block.mono le le_rfl⟩⟩
  case request =>
      obtain ⟨n, was, le, -⟩ := advance h n' here
      intro nonneg
      obtain ⟨below, length⟩ := request (few h) n was nonneg
      exact ⟨Nat.lt_of_lt_of_le below le, length⟩
  case reply =>
      obtain ⟨n, was, le, -⟩ := advance h n' here
      obtain ⟨hdr, b, header, fits, eq⟩ := reply (few h) n was
      rw [reached]
      exact ⟨hdr, b, header, fits.mono le le_rfl, eq⟩

/-- A data datagram of the uploader is one that may be on its way. -/
theorem request_turnPacket {u : UploadArgs} (low : 12 ≤ u.config.packetSize.toNat)
    (high : u.config.packetSize.toNat ≤ 1024) (s : UploadLoop) (tick : UInt32)
    (small : s.nbPackets.toNat < 2 ^ 31) :
    (UdpDatagram.read (turnPacket u.hz u.config s tick)).id.toNatClampNeg < s.nbPackets.toNat + 1 ∧
      (turnPacket u.hz u.config s tick).length = u.config.packetSize.toNat := by
  refine ⟨?_, length_samplePacket _ _ _ high⟩
  have id : (UdpDatagram.read (turnPacket u.hz u.config s tick)).id = s.nbPackets.toInt32 :=
    congrArg UdpDatagram.id (read_samplePacket _ _ _ low)
  have nonneg := (toInt32_nonneg_iff s.nbPackets).mpr small
  have same := Int32.toNat_toUInt32_of_le nonneg
  rw [UInt32.toUInt32_toInt32] at same
  rw [id, ← same]
  exact Nat.lt_succ_self _

theorem endPacket_negative {u : UploadArgs} (low : 12 ≤ u.config.packetSize.toNat)
    {n : UInt32} (pos : 0 < n.toNat) (small : n.toNat < 2 ^ 31) (endTick : UInt32) :
    ¬ 0 ≤ (UdpDatagram.read (u.endPacket n endTick)).id := by
  have ends := finPacket_isEnd u.hz pos small (kUptimeTicks endTick).toUInt64 low
    (.inet 0 0) 0
  exact Int32.not_le.mpr (of_decide_eq_true ends)

theorem nbPackets_failed {ret : Int} {results : Results} (failed : ret < 0) :
    (UploadPc.returned ret results).nbPackets = none :=
  if_pos failed

/-- The uploader keeps the terms. -/
theorem count_left {u : UploadArgs} (low : 12 ≤ u.config.packetSize.toNat)
    (high : u.config.packetSize.toNat ≤ 1024) {x : UploadCall ⊕ List UInt8}
    {out : List (List UInt8)} (move : UploadMove u pc x out pc')
    (size_eq : size = u.config.packetSize.toNat)
    (hold : (countTerms size).parties log pc server)
    (received : ∀ r, x = .inr r → (countTerms size).reply log pc r)
    (reached : reachedCount log' = reachedCount log)
    (more : sentCount log' = sentCount log + out.length) :
    (countTerms size).parties log' pc' server ∧ (countTerms size).Stable log log' pc pc' ∧
      ∀ m ∈ out, (countTerms size).request log' pc' m := by
  have few (h : Few log') : Few log := Nat.lt_of_le_of_lt (by omega) h
  -- one end datagram of an upload whose number is positive
  have asked {n endTick : UInt32} (before : ∀ h : Few log, 0 < n.toNat ∧ n.toNat ≤ sentCount log)
      (pc' : UploadPc) : (countTerms size).request log' pc' (u.endPacket n endTick) := by
    intro h n' here nonneg
    obtain ⟨pos, below⟩ := before (few h)
    have small : sentCount log < 2 ^ 31 := few h
    exact absurd nonneg (endPacket_negative low pos (by omega) endTick)
  -- an attempt that failed with `ret`
  have again {n endTick : UInt32} {left : Nat} {s : FinLoop} {ret : Int} (failed : ret < 0)
      (was : pc.nbPackets = some n)
      (client : pc.Conserved (reachedCount log) size →
        0 < n.toNat ∧ s.stats.length = sizeofStats) (h : Few log') (n' : UInt32)
      (here : (u.askAgain n endTick left { s with ret := ret }).nbPackets = some n') :
      ∃ m, pc.nbPackets = some m ∧ m.toNat ≤ n'.toNat ∧
        (m.toNat ≤ sentCount log → pc.Conserved (reachedCount log) size →
          n'.toNat ≤ sentCount log' ∧
            (u.askAgain n endTick left { s with ret := ret }).Conserved (reachedCount log) size) := by
    rcases askAgain_failed u n endTick left (s := { s with ret := ret }) failed with
      eq | ⟨left', eq⟩
    · rw [eq, nbPackets_failed failed] at here
      cases here
    · rw [eq] at here ⊢
      obtain rfl := Option.some.inj here
      exact ⟨n, was, le_rfl, fun below before => ⟨by omega, client before⟩⟩
  rw [← and_assoc]
  cases move with
  | stay =>
      exact ⟨countTerms_left hold reached (by omega) fun h n' here =>
        ⟨n', here, le_rfl, fun below client => ⟨by omega, client⟩⟩, by simp⟩
  | send s t errno =>
      have count : (if (nextLoop u.config s t.tick).again then
            UploadPc.sending (nextLoop u.config s t.tick)
          else .sent (s.nbPackets + 1)).nbPackets = some (s.nbPackets + 1) := by
        split <;> rfl
      have one (h : Few log') : s.nbPackets.toNat ≤ sentCount log ∧
          (s.nbPackets + 1).toNat = s.nbPackets.toNat + 1 := by
        have below := (hold (few h) s.nbPackets rfl).1
        have small : sentCount log < 2 ^ 31 := few h
        exact ⟨below, toNat_add_one (by omega)⟩
      rw [List.length_singleton] at more
      refine ⟨countTerms_left hold reached (by omega) fun h n' here => ?_, fun m hm h n' here _ => ?_⟩
      · obtain ⟨below, next⟩ := one h
        obtain rfl := Option.some.inj (count.symm.trans here)
        refine ⟨s.nbPackets, rfl, by omega, fun _ _ => ⟨by omega, ?_⟩⟩
        split
        · trivial
        · exact Nat.lt_of_lt_of_eq (Nat.succ_pos _) next.symm
      · obtain ⟨below, next⟩ := one h
        obtain rfl := Option.some.inj (count.symm.trans here)
        have small : sentCount log < 2 ^ 31 := few h
        rw [List.mem_singleton.mp hm, next, size_eq]
        exact request_turnPacket low high s t.tick (by omega)
  | fail s t errno =>
      have failed : -(errno : Int) < 0 := Int.neg_neg_of_pos errno.property
      refine ⟨countTerms_left hold reached (by omega) fun h n' here => ?_, by simp⟩
      rw [nbPackets_failed failed] at here
      cases here
  | clock n tick =>
      refine ⟨countTerms_left hold reached (by omega) fun h n' here => ?_, by simp⟩
      exact ⟨n', here, le_rfl, fun below client =>
        ⟨by omega, client, List.length_replicate⟩⟩
  | ask n endTick left s send setsockopt =>
      refine ⟨countTerms_left hold reached (by omega) fun h n' here => ?_, fun m hm => ?_⟩
      · exact ⟨n', here, le_rfl, fun below client => ⟨by omega, client⟩⟩
      · rw [List.mem_singleton.mp hm]
        refine asked (fun h => ?_) _
        obtain ⟨below, client, -⟩ := hold h n rfl
        exact ⟨client.1, below⟩
  | askFails n endTick left s send setsockopt ret out failed sent =>
      refine ⟨countTerms_left hold reached (by omega) 
        (again failed rfl id), fun m hm => ?_⟩
      rw [sent m hm]
      refine asked (fun h => ?_) _
      obtain ⟨below, client, -⟩ := hold h n rfl
      exact ⟨client.1, below⟩
  | recvFails n endTick left s ret =>
      exact ⟨countTerms_left hold reached (by omega) (again ret.property rfl id), by simp⟩
  | recv n endTick left s data =>
      refine ⟨countTerms_left hold reached (by omega) fun h n' here => ?_, by simp⟩
      obtain ⟨-, ⟨pos, buffer⟩, -⟩ := hold (few h) n rfl
      obtain ⟨hdr, b, header, fits, rfl⟩ := received data rfl (few h) n rfl
      rw [answered_whole u n endTick left buffer (length_buildReply header b)] at here ⊢
      obtain rfl := Option.some.inj here
      exact ⟨n, rfl, le_rfl, fun below _ => ⟨by omega, pos, fits.decoded header u.before⟩⟩
  | drained n endTick results ret =>
      refine ⟨countTerms_left hold reached (by omega) fun h n' here => ?_, by simp⟩
      refine ⟨n', here, le_rfl, fun below client => ⟨by omega, fun _ => ?_⟩⟩
      exact ⟨client.1, size_eq.symm, client.2⟩

theorem UploadPc.Conserved.mono {k k' : Nat} (h : pc.Conserved k size) (hk : k ≤ k') :
    pc.Conserved k' size := by
  cases pc with
  | sending | sent | asking | receiving => exact h
  | draining => exact ⟨h.1, h.2.mono le_rfl hk⟩
  | returned ret results =>
      intro succeeded
      obtain ⟨pos, same, fits⟩ := h succeeded
      exact ⟨pos, same, fits.mono le_rfl hk⟩

end Client

section Server

variable {size n k : Nat}

/-- What a datagram on its way does to the sessions and blocks of the server. -/
theorem count_rule (hz : UInt64) (cb : Bool) {d : Arrival} {out : List Event} {trapped : Prop}
    (small : size ≤ 1024)
    (sent : 0 ≤ d.hdr.id → d.hdr.id.toNatClampNeg < n ∧ d.data.length = size) :
    ServerRule hz cb (StatsConserved n k size) (StatsConserved n (k + 1) size)
      (BlockConserved n k size) (BlockConserved n (k + 1) size) d out trapped where
  session st h := h.mono le_rfl (Nat.le_succ k)
  block b h := h.mono le_rfl (Nat.le_succ k)
  start _ := statsConserved_open d
  next st h data := by
    obtain ⟨below, length⟩ := sent (by simpa [Arrival.isEnd] using data)
    exact h.data hz data below length small
  close st h _ _ := (h.mono le_rfl (Nat.le_succ k)).block hz d

theorem replyTo_eq {client : Peer} {w : Event} {r : List UInt8} (h : replyTo client w = some r) :
    w = .sendto client r := by
  cases w with
  | sendto addr reply =>
      by_cases same : addr = client
      · rw [replyTo, if_pos same] at h
        rw [same, Option.some.inj h]
      · rw [replyTo, if_neg same] at h
        cases h
  | sessionCb status => cases h

/-- The server keeps the terms, as long as no other peer is active. -/
theorem count_right {hz : UInt64} {cb : Bool} {client : Peer} (small : size ≤ 1024)
    {log log' : TestLog} {pc : UploadPc} {server : Option Row} {m : List UInt8} {tick : UInt32}
    (hold : (countTerms size).parties log pc server)
    (received : (countTerms size).request log pc m)
    (reached : reachedCount log' = reachedCount log + 1)
    (more : sentCount log' = sentCount log) :
    (countTerms size).parties log' pc (serverStep hz cb client server (.inr (m, tick))).2 ∧
      (countTerms size).Stable log log' pc pc ∧
      ∀ w ∈ (serverStep hz cb client server (.inr (m, tick))).1, ∀ r,
        replyTo client w = some r → (countTerms size).reply log' pc r := by
  have few (h : Few log') : Few log := by rwa [Few, more] at h
  have next (h : Few log') (n : UInt32) (here : pc.nbPackets = some n) :
      RepliesFit (BlockConserved n.toNat (reachedCount log + 1) size) ⟨client, m, tick⟩
        (serverStep hz cb client server (.inr (m, tick))).1 ∧
      ∀ row, (serverStep hz cb client server (.inr (m, tick))).2 = some row → RowOk row ∧
        SlotsFit (StatsConserved n.toNat (reachedCount log + 1) size)
          (BlockConserved n.toNat (reachedCount log + 1) size) row := by
    obtain ⟨-, -, rows⟩ := hold (few h) n here
    cases server with
    | none => exact ⟨.nil, fun row serving => by cases serving⟩
    | some row =>
        obtain ⟨ok, fits⟩ := rows row rfl
        exact udpReceived_fits ok fits (count_rule hz cb small (received (few h) n here))
  refine ⟨fun h n here => ?parties, ⟨fun r request => ?request, fun r reply h n here => ?reply⟩,
    fun w seen r message h n here => ?sends⟩
  case parties =>
      obtain ⟨below, client', -⟩ := hold (few h) n here
      rw [reached, more]
      exact ⟨below, client'.mono (Nat.le_succ _), (next h n here).2⟩
  case request =>
      exact fun h => request (few h)
  case reply =>
      obtain ⟨hdr, b, header, fits, eq⟩ := reply (few h) n here
      rw [reached]
      exact ⟨hdr, b, header, fits.mono le_rfl (Nat.le_succ _), eq⟩
  case sends =>
      obtain rfl := replyTo_eq message
      obtain ⟨hdr, b, header, fits, eq, -⟩ := (next h n here).1 client r seen
      rw [reached]
      exact ⟨hdr, b, header, fits, eq⟩

end Server

/-- No other peer takes part. -/
def Alone (x : ExchangeStep UploadCall Arrival UInt32) : Prop := ∀ d, x ≠ .right d

theorem count_contract {u : UploadArgs} (low : 12 ≤ u.config.packetSize.toNat)
    (high : u.config.packetSize.toNat ≤ 1024) (hz : UInt64) (cb : Bool) (client : Peer) :
    Contract (udpTest u hz cb client) Alone (countTerms u.config.packetSize.toNat) where
  left log pc server x hold received :=
    count_left low high (uploadMove_step u pc x) rfl hold received
      (by rw [reachedCount_append, Parties.reachedCount_leftEvents, Nat.add_zero])
      (by rw [sentCount_append, Parties.sentCount_leftEvents])
  right log pc server x hold received alone := by
    cases x with
    | inl d => exact absurd rfl (alone d rfl d)
    | inr delivered =>
        obtain ⟨m, tick⟩ := delivered
        exact count_right high hold (received m tick rfl)
          (by rw [reachedCount_append, Parties.reachedCount_rightEvents_inr])
          (by rw [sentCount_append, Parties.sentCount_rightEvents, Nat.add_zero])

/-- The counts of a test in which no other peer takes part: what `udp_upload` returns with
success is conserved, whatever the network does to the datagrams of either side. -/
theorem upload_counts_conserved (u : UploadArgs) (hz : UInt64) (cb : Bool) (client : Peer)
    (port durationInMs packetSize rateInKbps : UInt32) (loop : UploadLoop)
    (steps : List (ExchangeStep UploadCall Arrival UInt32)) (log : TestLog)
    (e : Exchange UploadPc (Option Row) (List UInt8) (List UInt8)) (results : Results)
    (started : startUpload u.hz port durationInMs packetSize rateInKbps u.startTick =
      some (u.config, loop))
    (run : (udpTest u hz cb client).exchange.Reaches (startTest loop bootRow) steps log e)
    (alone : ∀ x ∈ steps, Alone x) (few : sentCount log < 2 ^ 31)
    (returned : e.left = .returned 0 results) :
    (∃ calls, calls.startTick = u.startTick ∧
      udpUpload u.hz port durationInMs packetSize rateInKbps calls u.before =
        some (0, results)) ∧
    (∃ g, g < results.nbPacketsSent.toNat ∧ results.nbPacketsLost + results.nbPacketsRcvd =
      results.nbPacketsOutorder + UInt32.ofNat g) ∧
    results.nbPacketsRcvd.toNat ≤ reachedCount log ∧
    (reachedCount log < 2 ^ 32 → results.totalLen.toNat =
      results.nbPacketsRcvd.toNat * results.packetSize.toNat % 0xFFFFFFFF) := by
  obtain ⟨size, -, starts⟩ := startUpload_started started
  have bounds := clampPacketSize_bounds packetSize
  rw [← size] at bounds
  have begun : (countTerms u.config.packetSize.toNat).Hold [] (startTest loop bootRow) := by
    refine ⟨fun _ n here => ?_, fun m hm => ?_, fun r hr => ?_⟩
    · obtain rfl := Option.some.inj here
      refine ⟨?_, trivial, fun row serving => ?_⟩
      · rw [starts]
        exact Nat.zero_le _
      · obtain rfl := Option.some.inj serving
        exact ⟨bootRow_ok, bootRow_fits blockConserved_zero⟩
    · cases hm
    · cases hr
  have hold := (count_contract bounds.1 bounds.2 hz cb client).reaches begun alone run
  have parties := hold.parties few results.nbPacketsSent (by rw [returned]; rfl)
  rw [returned] at parties
  obtain ⟨pos, same, fits⟩ := parties.2.1 le_rfl
  refine ⟨udpTest_returned started run returned, ?_, fits.delivered, fun k => ?_⟩
  · obtain ⟨g, less, eq⟩ := fits.balance
    exact ⟨g, by omega, eq⟩
  · rw [same]
    exact fits.bytes k

/-- Two datagrams, the second of which arrives twice. -/
theorem upload_counts_conserved_duplicate :
    ∃ results : Results, ∃ g, g < results.nbPacketsSent.toNat ∧
      results.nbPacketsLost + results.nbPacketsRcvd =
        results.nbPacketsOutorder + UInt32.ofNat g := by
  let c := ((startUpload 1000 5001 10 12 10 100).get (by decide +kernel)).1
  let loop := ((startUpload 1000 5001 10 12 10 100).get (by decide +kernel)).2
  let u : UploadArgs := ⟨1000, c, 100, .zero⟩
  let steps : List (ExchangeStep UploadCall Arrival UInt32) :=
    [.left (.turn ⟨100, true⟩ ⟨1, by decide⟩), .left (.turn ⟨110, true⟩ ⟨1, by decide⟩),
      .reachRight 0 5, .reachRight 1 6, .reachRight 1 6, .left (.clock 110), .left (.ask 12 0),
      .reachRight 2 7, .reachLeft 0, .left (.recvFails ⟨-1, by decide⟩)]
  have run := (udpTest u 1000 true (.inet 6000 0x0A000002)).exchange.reaches_of_isSome
    (startTest loop bootRow) steps (by decide +kernel)
  obtain ⟨-, balance, -⟩ := upload_counts_conserved u 1000 true (.inet 6000 0x0A000002)
    5001 10 12 10 loop steps _ _
    ⟨2, 2, 0, 1, 24, 2000, 0, 10000, 12, 0⟩ (by decide +kernel) run
    (by intro x hx d same; subst same; simp [steps] at hx) (by decide +kernel)
    (by decide +kernel)
  exact ⟨_, balance⟩

end Zperf
