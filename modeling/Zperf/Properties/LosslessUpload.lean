import Zperf.Base.Wrap
import Zperf.Properties.EndExchange
import Zperf.Properties.LossCounters
import Zperf.Properties.StatsBlock

/-!
An upload that loses nothing, from the uploader's loop to the decoded reply.

The uploader numbers its datagrams from zero; the receiver opens the session with
number zero and counts from number one on. The reply is therefore one datagram
short, for every upload.
-/

namespace Zperf

open Base

def UploadEvent.packet : UploadEvent → Option (List UInt8)
  | .send packet => some packet
  | .sleep _ => none

/-- The datagrams of a run of the uploader, in order. -/
def sentPackets (out : List UploadEvent) : List (List UInt8) :=
  out.filterMap UploadEvent.packet

/-- The datagrams as they reach `udp_received`, at the given ticks. -/
def arrivals (p : Peer) (packets : List (List UInt8)) (ticks : List UInt32) : List Arrival :=
  List.zipWith (fun data tick => ⟨p, data, tick⟩) packets ticks

/-- Some reply to `p` tells the client that all of its `n` datagrams of `size` bytes
have been received, once and in order. -/
def ReportedLossless (p : Peer) (out : List Event) (n size : Nat) : Prop :=
  ∃ reply, Event.sendto p reply ∈ out ∧
    (zperfUploadDecodeStat reply Results.zero).nbPacketsRcvd.toNat = n ∧
    (zperfUploadDecodeStat reply Results.zero).nbPacketsLost = 0 ∧
    (zperfUploadDecodeStat reply Results.zero).nbPacketsOutorder = 0 ∧
    (zperfUploadDecodeStat reply Results.zero).totalLen.toNat = n * size

theorem read_samplePacket (hdr : UdpDatagram) (port rate : UInt32) {size : UInt32}
    (h : 12 ≤ size.toNat) : UdpDatagram.read (samplePacket hdr port rate size) = hdr := by
  have words (rest : List UInt8) : UdpDatagram.read (hdr.bytes ++ rest) = hdr := by
    simp only [UdpDatagram.read, UdpDatagram.bytes, List.append_assoc, word_putWord,
      Int32.toInt32_toUInt32, drop_putWord]
    rw [show (8 : Nat) = 4 + 4 from rfl, drop_putWord_add, drop_putWord, word_putWord]
  rw [samplePacket, List.take_append, List.take_of_length_le (by rw [hdr.length_bytes]; exact h)]
  exact words _

/-- Data datagrams of `p` with `size` bytes each, numbered from `k` on. -/
def IsUpload (p : Peer) (size : Nat) : UInt32 → List Arrival → Prop
  | _, [] => True
  | k, d :: ds =>
      d.addr = p ∧ d.data.length = size ∧ d.hdr.id = k.toInt32 ∧ IsUpload p size (k + 1) ds

theorem udpUploader_step {hz : UInt64} {c : UploadConfig} {s s' : UploadLoop} {t : Turn}
    {out : List UploadEvent} (h : (udpUploader hz c).step s t = (out, some s')) :
    sentPackets out = [turnPacket hz c s t.tick] ∧ s' = nextLoop c s t.tick := by
  refine ⟨?_, udpUploader_next h⟩
  simp only [udpUploader] at h
  split at h
  · simp at h
  · split at h
    · simp at h
    · obtain ⟨rfl, -⟩ := Prod.mk.inj h
      split <;> rfl

theorem arrivals_isUpload {hz : UInt64} {c : UploadConfig} {s s' : UploadLoop}
    {turns : List Turn} {out : List UploadEvent} (low : 12 ≤ c.packetSize.toNat)
    (high : c.packetSize.toNat ≤ 1024) (run : (udpUploader hz c).Reaches s turns out s')
    (p : Peer) (ticks : List UInt32) (all : ticks.length = turns.length) :
    IsUpload p c.packetSize.toNat s.nbPackets (arrivals p (sentPackets out) ticks) ∧
      (arrivals p (sentPackets out) ticks).length = turns.length ∧
      s'.nbPackets = s.nbPackets + UInt32.ofNat turns.length := by
  induction turns generalizing s out ticks with
  | nil =>
      obtain ⟨rfl, rfl⟩ := (Machine.reaches_nil _ _ _ _).mp run
      exact ⟨trivial, rfl, by simp⟩
  | cons t turns ih =>
      obtain ⟨first, mid, later, step, rest, rfl⟩ := (Machine.reaches_cons _ _ _ _ _ _).mp run
      cases ticks with
      | nil => simp at all
      | cons tick ticks =>
          obtain ⟨packets, rfl⟩ := udpUploader_step step
          obtain ⟨isUpload, length, count⟩ := ih rest ticks (by simpa using all)
          have sent : sentPackets (first ++ later) =
              turnPacket hz c s t.tick :: sentPackets later := by
            rw [sentPackets, List.filterMap_append, show first.filterMap _ = _ from packets]
            rfl
          rw [sent]
          refine ⟨⟨rfl, length_samplePacket _ _ _ high, ?_, isUpload⟩, ?_, ?_⟩
          · exact congrArg UdpDatagram.id (read_samplePacket _ _ _ low)
          · exact congrArg (· + 1) length
          · have one : (nextLoop c s t.tick).nbPackets = s.nbPackets + 1 := rfl
            rw [count, one, List.length_cons, UInt32.ofNat_add, UInt32.add_assoc,
              UInt32.add_comm (UInt32.ofNat turns.length)]
            rfl

/-- As long as the numbers fit an `int32_t`, none of the datagrams looks like an end. -/
theorem IsUpload.isEnd {p : Peer} {size : Nat} {k : UInt32} {ds : List Arrival}
    (h : IsUpload p size k ds) (small : k.toNat + ds.length ≤ 2 ^ 31) :
    ∀ d ∈ ds, d.isEnd = false := by
  induction ds generalizing k with
  | nil => simp
  | cons d ds ih =>
      obtain ⟨-, -, id, rest⟩ := h
      rw [List.length_cons] at small
      have here : d.isEnd = false := by
        simpa [Arrival.isEnd, id] using (toInt32_nonneg_iff k).mpr (by omega)
      refine List.forall_mem_cons.mpr ⟨here, ih rest ?_⟩
      rw [toNat_add_one (by omega)]
      omega

theorem IsUpload.sender {p : Peer} {size : Nat} {k : UInt32} {ds : List Arrival}
    (h : IsUpload p size k ds) (low : sizeofUdpDatagram ≤ size) :
    ∀ d ∈ ds, d.sender = some p := by
  induction ds generalizing k with
  | nil => simp
  | cons d ds ih =>
      obtain ⟨rfl, length, -, rest⟩ := h
      refine List.forall_mem_cons.mpr ⟨?_, ih rest⟩
      simp [Arrival.sender, Arrival.short, length, low]

theorem run_data (hz : UInt64) (cb : Bool) {s : Session} {st : Stats}
    (ongoing : s.open? = some st) (ds tail : List Arrival) (data : ∀ d ∈ ds, d.isEnd = false) :
    ∃ s', s'.open? = some (ds.foldl (dataStats hz) st) ∧
      (slotServer hz cb).run s (ds ++ tail) = (slotServer hz cb).run s' tail := by
  induction ds generalizing s st with
  | nil => exact ⟨s, ongoing, rfl⟩
  | cons d ds ih =>
      have here : sessionReceived hz cb s d = ([], some (countData hz s d)) := by
        simp [sessionReceived, (Session.open_eq_some.mp ongoing).1, data d List.mem_cons_self]
      obtain ⟨s', open', run⟩ := ih (open_countData hz ongoing d)
        fun e he => data e (List.mem_cons_of_mem d he)
      refine ⟨s', open', ?_⟩
      rw [List.cons_append, run_cons_of_step here, run]
      rfl

/-- The one reply to a whole upload carries the count of all datagrams but the first. -/
theorem replies_to_upload {hz : UInt64} {cb : Bool} {s : Session} {p : Peer}
    (idle : s.state ≠ .ongoing) (settled : s.state ≠ .lastPacketReceived) (o : Arrival)
    (rest : List Arrival) (data : ∀ d ∈ o :: rest, d.isEnd = false)
    (few : rest.length < 2 ^ 31) (e : Arrival) (he : e.isEnd = true) (long : e.short = false)
    {reply : List UInt8}
    (sent : .sendto p reply ∈ ((slotServer hz cb).run s (o :: (rest ++ [e]))).1) :
    (zperfUploadDecodeStat reply Results.zero).nbPacketsRcvd.toNat = rest.length := by
  have opens : sessionReceived hz cb s o = (callSessionCb cb .started, some (startSession s o)) := by
    rcases sessionReceived_cases hz cb s o settled with
      ⟨-, isEnd, -⟩ | ⟨-, -, eq⟩ | ⟨busy, -, -⟩ | ⟨busy, -, -⟩
    · simp [data o List.mem_cons_self] at isEnd
    · exact eq
    · exact absurd busy idle
    · exact absurd busy idle
  obtain ⟨s', open', run⟩ := run_data hz cb (open_startSession s o) rest [e]
    fun d hd => data d (List.mem_cons_of_mem o hd)
  obtain ⟨state, stats⟩ := Session.open_eq_some.mp open'
  have counter : s'.counter.toNat = rest.length := by
    have tallied := tallied_foldl hz o rest (fun d hd => data d (List.mem_cons_of_mem o hd)) few
    rw [← stats] at tallied
    exact tallied.counter
  have ends : sessionReceived hz cb s' e = finishSession hz cb s' e := by
    simp [sessionReceived, state, he]
  have block : Event.sendto p reply =
      zperfReceiverSendStat e.addr (e.data.take sizeofUdpDatagram)
        (fillStat s' (sessionDuration hz s' e.tick)) := by
    rw [run_cons_of_step opens, run, List.mem_append] at sent
    cases sent with
    | inl sent => cases cb <;> simp [callSessionCb] at sent
    | inr sent =>
        rcases finishSession_eq hz cb s' e with ⟨-, trap⟩ | ⟨-, results, -, fin⟩
        · rw [run_cons_of_trap (ends.trans trap)] at sent
          simpa using sent
        · rw [run_cons_of_step (ends.trans fin)] at sent
          cases cb <;> simpa [callSessionCb, Machine.run] using sent
  obtain ⟨-, rfl⟩ := Event.sendto.inj block
  rw [decode_fillStat (length_take_header long)]
  exact counter

theorem finPacket_isEnd (hz : UInt64) {n : UInt32} (pos : 0 < n.toNat) (small : n.toNat < 2 ^ 31)
    (endTime : UInt64) {size : UInt32} (low : 12 ≤ size.toNat) (p : Peer) (tick : UInt32) :
    (Arrival.mk p (finPacket hz n endTime size) tick).isEnd = true := by
  have id : (Arrival.mk p (finPacket hz n endTime size) tick).hdr.id = (-n).toInt32 :=
    congrArg UdpDatagram.id (read_samplePacket _ _ _ low)
  rw [Arrival.isEnd, id, decide_eq_true_eq, ← Int32.not_le, toInt32_nonneg_iff, UInt32.toNat_neg,
    show UInt32.size = 2 ^ 32 from rfl]
  omega

/-- The data datagrams of an upload and its end datagram, all delivered in order. -/
def deliveredUpload (hz : UInt64) (p : Peer) (out : List UploadEvent) (ticks : List UInt32)
    (nbPackets : UInt32) (endTime : UInt64) (packetSize : UInt32) (endTick : UInt32) :
    List Arrival :=
  arrivals p (sentPackets out) ticks ++ [⟨p, finPacket hz nbPackets endTime packetSize, endTick⟩]

/-- No upload is reported as lossless, however it is sent and whatever the server has
received before: the datagram that opens the session is not counted. -/
theorem upload_never_reported_lossless (hz hz' : UInt64) (cb : Bool)
    (port durationInMs packetSize rateInKbps start : UInt32) (c : UploadConfig)
    (loop loop' : UploadLoop) (turns : List Turn) (sent : List UploadEvent)
    (past : List Arrival) (out : List Event) (row : Row) (p : Peer) (i : Fin sessionMax)
    (ticks : List UInt32) (endTime : UInt64) (endTick : UInt32)
    (started : startUpload hz port durationInMs packetSize rateInKbps start = some (c, loop))
    (run : (udpUploader hz c).Reaches loop turns sent loop')
    (many : 1 ≤ turns.length) (few : turns.length < 2 ^ 31)
    (before : (udpReceiver hz' cb).Reaches bootRow past out row)
    (found : (getSession row (some p)).1 = some i) (idle : ∀ j, ¬ OngoingFor row p j)
    (all : ticks.length = turns.length) :
    ¬ ReportedLossless p
      ((udpReceiver hz' cb).run row
        (deliveredUpload hz p sent ticks loop'.nbPackets endTime c.packetSize endTick)).1
      turns.length c.packetSize.toNat := by
  have ok := bootRow_ok.reaches before
  obtain ⟨size, -, starts⟩ := startUpload_started started
  have bounds := clampPacketSize_bounds packetSize
  rw [← size] at bounds
  have zero : loop.nbPackets = 0 := by rw [starts]
  obtain ⟨isUpload, length, count⟩ := arrivals_isUpload bounds.1 bounds.2 run p ticks all
  rw [zero] at isUpload count
  have number : loop'.nbPackets.toNat = turns.length := by
    rw [count, UInt32.zero_add, UInt32.toNat_ofNat']
    exact Nat.mod_eq_of_lt (by omega)
  have isEnd := finPacket_isEnd hz (n := loop'.nbPackets) (by omega) (by omega) endTime bounds.1 p
    endTick
  have endLength := length_samplePacket (finHdr hz loop'.nbPackets endTime) 0 0 bounds.2
  have long : (Arrival.mk p (finPacket hz loop'.nbPackets endTime c.packetSize) endTick).short =
      false := by
    simpa [Arrival.short, finPacket, endLength, sizeofUdpDatagram] using bounds.1
  rintro ⟨reply, replied, rcvd, -⟩
  cases split : arrivals p (sentPackets sent) ticks with
  | nil =>
      rw [split, List.length_nil] at length
      omega
  | cons o rest =>
      rw [split] at isUpload length
      have data := isUpload.isEnd (by rw [length, UInt32.toNat_zero]; omega)
      have own : ∀ d ∈ o :: (rest ++ [⟨p, finPacket hz loop'.nbPackets endTime c.packetSize,
          endTick⟩]), d.sender = some p := by
        intro d hd
        rw [← List.cons_append, List.mem_append, List.mem_singleton] at hd
        rcases hd with hd | rfl
        · exact isUpload.sender bounds.1 d hd
        · simp [Arrival.sender, long]
      rw [deliveredUpload, split, List.cons_append, run_eq_slotServer ok found o _ own] at replied
      have counted := replies_to_upload (state_of_found ok idle found)
        (by simpa using ok.settled i) o rest data (by rw [List.length_cons] at length; omega)
        _ isEnd long replied
      rw [List.length_cons] at length
      omega

/-- A reply, if it is one, tells the client of `n` datagrams. -/
def Event.reportsRcvd (n : UInt32) : Event → Bool
  | .sendto _ reply => (zperfUploadDecodeStat reply Results.zero).nbPacketsRcvd = n
  | .sessionCb _ => true

/-- Two datagrams of twelve bytes, at ten milliseconds from each other. -/
def twoDatagrams : List Turn := [⟨100, true⟩, ⟨110, true⟩]

theorem two_datagrams_reported_as_one :
    ∃ c loop sent loop', startUpload 1000 5001 10 12 10 100 = some (c, loop) ∧
      (udpUploader 1000 c).Reaches loop twoDatagrams sent loop' ∧
      ¬ ReportedLossless (.inet 6000 0x0A000002)
        ((udpReceiver 1000 true).run bootRow
          (deliveredUpload 1000 (.inet 6000 0x0A000002) sent [101, 111] loop'.nbPackets 110
            c.packetSize 112)).1 2 12 := by
  let c := ((startUpload 1000 5001 10 12 10 100).get (by decide +kernel)).1
  let loop := ((startUpload 1000 5001 10 12 10 100).get (by decide +kernel)).2
  have run := (udpUploader 1000 c).reaches_of_isSome loop twoDatagrams (by decide +kernel)
  refine ⟨c, loop, _, _, by decide +kernel, run, ?_⟩
  rintro ⟨reply, replied, rcvd, -⟩
  have one : ∀ e ∈ ((udpReceiver 1000 true).run bootRow
      (deliveredUpload 1000 (.inet 6000 0x0A000002)
        ((udpUploader 1000 c).run loop twoDatagrams).1 [101, 111]
        (((udpUploader 1000 c).run loop twoDatagrams).2.get (by decide +kernel)).nbPackets 110
        c.packetSize 112)).1, e.reportsRcvd 1 = true := by decide +kernel
  have reported := of_decide_eq_true (one _ replied)
  simp [reported] at rcvd

theorem upload_never_reported_lossless_two :
    ∃ c loop sent loop', startUpload 1000 5001 10 12 10 100 = some (c, loop) ∧
      (udpUploader 1000 c).Reaches loop twoDatagrams sent loop' ∧
      ¬ ReportedLossless (.inet6 6000 1)
        ((udpReceiver 1000 true).run bootRow
          (deliveredUpload 1000 (.inet6 6000 1) sent [101, 111] loop'.nbPackets 110
            c.packetSize 112)).1 2 c.packetSize.toNat := by
  let c := ((startUpload 1000 5001 10 12 10 100).get (by decide +kernel)).1
  let loop := ((startUpload 1000 5001 10 12 10 100).get (by decide +kernel)).2
  have run := (udpUploader 1000 c).reaches_of_isSome loop twoDatagrams (by decide +kernel)
  have started : startUpload 1000 5001 10 12 10 100 = some (c, loop) := by decide +kernel
  exact ⟨c, loop, _, _, started, run,
    upload_never_reported_lossless 1000 1000 true 5001 10 12 10 100 c loop _ twoDatagrams _ [] []
      bootRow (.inet6 6000 1) ⟨0, by decide⟩ [101, 111] 110 112 started run (by decide)
      (by decide) ((Machine.reaches_nil _ _ _ _).mpr ⟨rfl, rfl⟩) (by decide +kernel) (by decide)
      rfl⟩

end Zperf
