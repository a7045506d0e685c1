import Zperf.Core.TcpUploader

/-!
The bytes that a TCP upload has given to its socket.

`sendall` splits a packet as the socket accepts it. What is accepted of a packet is the
packet or, before an error, a beginning of it. The two counters of `tcp_upload` tell the
iterations apart by that, modulo `2 ^ 32`.
-/

namespace Zperf

open Base

/-- Every call of `zsock_send` for the rest of a packet returns an error or accepts some
of it. -/
def SendsWithin : Nat → List Int → Prop
  | 0, _ | _, [] => True
  | len + 1, out :: outs =>
      out < 0 ∨ (1 ≤ out ∧ out ≤ (len + 1 : Nat) ∧ SendsWithin (len + 1 - out.toNat) outs)

/-- What an iteration's `zsock_send` accepts. -/
def TcpTurn.accepted (packet : List UInt8) (t : TcpTurn) : List (List UInt8) :=
  ((sendall packet t.sends).map Prod.snd).getD []

/-- What `tcp_upload` has counted, and what the socket has accepted of `packet` in these
iterations. -/
structure TcpAccounted (packet : List UInt8) (turns : List TcpTurn)
    (accepted : List (List UInt8)) (s : TcpUploadLoop) : Prop where
  log : accepted = turns.flatMap (TcpTurn.accepted packet)
  whole : ∀ t ∈ turns, ∀ ret sent, sendall packet t.sends = some (ret, sent) → 0 ≤ ret →
    sent.flatten = packet
  results : ∀ t ∈ turns, ∀ ret sent, sendall packet t.sends = some (ret, sent) →
    sent.map (fun piece => (piece.length : Int)) = t.sends.take sent.length
  counted : s.nbPackets + s.nbErrors = UInt32.ofNat turns.length
  bounded : turns.length < 2 ^ 32 →
    s.nbPackets.toNat + s.nbErrors.toNat = turns.length ∧
    s.nbPackets.toNat * packet.length ≤ accepted.flatten.length ∧
    accepted.flatten.length ≤ (s.nbPackets.toNat + s.nbErrors.toNat) * packet.length

/-- A call of `sendall` that returns: with nothing left to send, with an error, or after a
piece that the socket has accepted. -/
theorem sendall_induction {motive : List UInt8 → List Int → Int → List (List UInt8) → Prop}
    (done : ∀ outs, motive [] outs 0 [])
    (failed : ∀ b buf out outs, out < 0 → motive (b :: buf) (out :: outs) out [])
    (piece : ∀ b buf out outs ret sent, ¬ out < 0 →
      motive ((b :: buf).drop out.toNat) outs ret sent →
      motive (b :: buf) (out :: outs) ret ((b :: buf).take out.toNat :: sent))
    {buf : List UInt8} {outs : List Int} {ret : Int} {sent : List (List UInt8)}
    (h : sendall buf outs = some (ret, sent)) : motive buf outs ret sent := by
  induction outs generalizing buf ret sent with
  | nil =>
      cases buf with
      | nil =>
          obtain ⟨rfl, rfl⟩ := Prod.mk.inj (Option.some.inj h)
          exact done []
      | cons b buf => simp [sendall] at h
  | cons out outs ih =>
      cases buf with
      | nil =>
          obtain ⟨rfl, rfl⟩ := Prod.mk.inj (Option.some.inj h)
          exact done (out :: outs)
      | cons b buf =>
          rw [sendall] at h
          split at h
          · rename_i negative
            obtain ⟨rfl, rfl⟩ := Prod.mk.inj (Option.some.inj h)
            exact failed b buf out outs negative
          · rename_i accepts
            obtain ⟨⟨ret', sent'⟩, later, same⟩ := Option.map_eq_some_iff.mp h
            obtain ⟨rfl, rfl⟩ := Prod.mk.inj same
            exact piece b buf out outs ret' sent' accepts (ih later)

/-- What has been accepted is a beginning of the packet, and all of it without an error. -/
theorem sendall_prefix {buf : List UInt8} {outs : List Int} {ret : Int}
    {sent : List (List UInt8)} (h : sendall buf outs = some (ret, sent)) :
    ∃ rest, sent.flatten ++ rest = buf ∧ (ret < 0 ∨ ret = 0 ∧ rest = []) := by
  refine @sendall_induction (fun buf _ ret sent =>
    ∃ rest, sent.flatten ++ rest = buf ∧ (ret < 0 ∨ ret = 0 ∧ rest = [])) ?_ ?_ ?_ _ _ _ _ h
  · intro outs
    exact ⟨[], rfl, .inr ⟨rfl, rfl⟩⟩
  · intro b buf out outs negative
    exact ⟨b :: buf, rfl, .inl negative⟩
  · intro b buf out outs ret sent _ later
    obtain ⟨rest, split, value⟩ := later
    refine ⟨rest, ?_, value⟩
    rw [List.flatten_cons, List.append_assoc, split, List.take_append_drop]

theorem sendall_results {buf : List UInt8} {outs : List Int} {ret : Int}
    {sent : List (List UInt8)} (h : sendall buf outs = some (ret, sent))
    (within : SendsWithin buf.length outs) :
    sent.map (fun piece => (piece.length : Int)) = outs.take sent.length := by
  refine @sendall_induction (fun buf outs _ sent => SendsWithin buf.length outs →
    sent.map (fun piece => (piece.length : Int)) = outs.take sent.length) ?_ ?_ ?_ _ _ _ _ h
    within
  · intro outs _
    rfl
  · intro b buf out outs _ _
    rfl
  · intro b buf out outs ret sent accepts later within
    obtain ⟨positive, le, rest⟩ := within.resolve_left accepts
    have tail := later (by rw [List.length_drop]; exact rest)
    have taken : (((b :: buf).take out.toNat).length : Int) = out := by
      rw [List.length_take, List.length_cons]
      omega
    rw [List.map_cons, tail, taken, List.length_cons, List.take_succ_cons]

theorem nextTcpLoop_counts (timepoint : UInt64) (s : TcpUploadLoop) (t : TcpTurn) (ret : Int) :
    (nextTcpLoop timepoint s t ret).nbPackets = (if ret < 0 then s.nbPackets else s.nbPackets + 1) ∧
      (nextTcpLoop timepoint s t ret).nbErrors =
        (if ret < 0 then s.nbErrors + 1 else s.nbErrors) := by
  unfold nextTcpLoop
  dsimp only
  split
  · split <;> exact ⟨rfl, rfl⟩
  · exact ⟨rfl, rfl⟩

/-- The iterations so far: `sent` that sent their packet and `failed` that did not. -/
structure TcpCounts (packet : List UInt8) (turns : List TcpTurn) (accepted : List (List UInt8))
    (s : TcpUploadLoop) (sent failed : Nat) : Prop where
  log : accepted = turns.flatMap (TcpTurn.accepted packet)
  packets : s.nbPackets = UInt32.ofNat sent
  errors : s.nbErrors = UInt32.ofNat failed
  all : sent + failed = turns.length
  low : sent * packet.length ≤ accepted.flatten.length
  high : accepted.flatten.length ≤ (sent + failed) * packet.length

theorem TcpCounts.step {packet : List UInt8} {turns : List TcpTurn}
    {accepted out : List (List UInt8)} {s : TcpUploadLoop} {sent failed : Nat} {t : TcpTurn}
    {ret : Int} (h : TcpCounts packet turns accepted s sent failed) (timepoint : UInt64)
    (answer : sendall packet t.sends = some (ret, out)) :
    ∃ sent' failed', TcpCounts packet (turns ++ [t]) (accepted ++ out)
      (nextTcpLoop timepoint s t ret) sent' failed' := by
  obtain ⟨rest, split, value⟩ := sendall_prefix answer
  obtain ⟨packets, errors⟩ := nextTcpLoop_counts timepoint s t ret
  have length : out.flatten.length + rest.length = packet.length := by
    rw [← split, List.length_append]
  have log : accepted ++ out = (turns ++ [t]).flatMap (TcpTurn.accepted packet) := by
    simp [h.log, TcpTurn.accepted, answer]
  have all := h.all
  have low := h.low
  have high := h.high
  by_cases fails : ret < 0
  · rw [if_pos fails] at packets errors
    refine ⟨sent, failed + 1, log, packets.trans h.packets, ?_, ?_, ?_, ?_⟩
    · rw [errors, h.errors, UInt32.ofNat_add]
      rfl
    · rw [List.length_append, List.length_singleton]
      omega
    · rw [List.flatten_append, List.length_append]
      omega
    · rw [List.flatten_append, List.length_append, ← Nat.add_assoc, Nat.add_mul _ 1]
      omega
  · rw [if_neg fails] at packets errors
    obtain rfl := (value.resolve_left fails).2
    rw [List.length_nil, Nat.add_zero] at length
    refine ⟨sent + 1, failed, log, ?_, errors.trans h.errors, ?_, ?_, ?_⟩
    · rw [packets, h.packets, UInt32.ofNat_add]
      rfl
    · rw [List.length_append, List.length_singleton]
      omega
    · rw [List.flatten_append, List.length_append, Nat.add_mul]
      omega
    · rw [List.flatten_append, List.length_append, Nat.add_right_comm, Nat.add_mul _ 1]
      omega

/-- The accounts of a TCP upload, for every size asked for. -/
theorem tcp_upload_accounted (packetSize : UInt32) (timepoint : UInt64) (turns : List TcpTurn)
    (accepted : List (List UInt8)) (s : TcpUploadLoop)
    (run : (tcpUploader (clampTcpPacketSize packetSize) timepoint).Reaches .start turns accepted s)
    (within : ∀ t ∈ turns, SendsWithin (clampTcpPacketSize packetSize).toNat t.sends) :
    (tcpSamplePacket (clampTcpPacketSize packetSize)).length =
        (clampTcpPacketSize packetSize).toNat ∧
      TcpAccounted (tcpSamplePacket (clampTcpPacketSize packetSize)) turns accepted s := by
  have size := length_tcpSamplePacket (clampTcpPacketSize_le packetSize)
  have counts : ∃ sent failed, TcpCounts (tcpSamplePacket (clampTcpPacketSize packetSize)) turns
      accepted s sent failed := by
    refine @Machine.Reaches.invariant _ _ _ _ (fun past emitted s =>
      ∃ sent failed, TcpCounts (tcpSamplePacket (clampTcpPacketSize packetSize)) past emitted s
        sent failed) ?_ _ _ [] _ [] _ ?_ run
    · intro past emitted s t out s' counts step
      obtain ⟨sent, failed, counts⟩ := counts
      obtain ⟨-, ret, answer, rfl⟩ := tcpUploader_step step
      exact counts.step timepoint answer
    · exact ⟨0, 0, rfl, rfl, rfl, rfl, by simp, by simp⟩
  obtain ⟨sent, failed, counts⟩ := counts
  refine ⟨size, counts.log, ?_, ?_, ?_, ?_⟩
  · intro t _ ret out answer success
    obtain ⟨rest, split, value⟩ := sendall_prefix answer
    obtain ⟨-, rfl⟩ := value.resolve_left (by omega)
    rw [← split, List.append_nil]
  · intro t member ret out answer
    exact sendall_results answer (by rw [size]; exact within t member)
  · rw [counts.packets, counts.errors, ← UInt32.ofNat_add, counts.all]
  · intro short
    have all := counts.all
    have packets : s.nbPackets.toNat = sent := by
      rw [counts.packets, UInt32.toNat_ofNat', Nat.mod_eq_of_lt (by omega)]
    have errors : s.nbErrors.toNat = failed := by
      rw [counts.errors, UInt32.toNat_ofNat', Nat.mod_eq_of_lt (by omega)]
    rw [packets, errors]
    exact ⟨all, counts.low, counts.high⟩

/-- A packet in two pieces, and one that fails after its first byte. -/
theorem tcp_upload_accounted_twice :
    ∃ accepted s, (tcpUploader (clampTcpPacketSize 2) 5).Reaches .start
        [⟨[1, 1], 0, 1⟩, ⟨[1, -1], 12, 2⟩] accepted s ∧
      TcpAccounted (tcpSamplePacket (clampTcpPacketSize 2)) [⟨[1, 1], 0, 1⟩, ⟨[1, -1], 12, 2⟩]
        accepted s := by
  have run := (tcpUploader (clampTcpPacketSize 2) 5).reaches_of_isSome .start
    [⟨[1, 1], 0, 1⟩, ⟨[1, -1], 12, 2⟩] (by decide +kernel)
  refine ⟨_, _, run, (tcp_upload_accounted 2 5 _ _ _ run ?_).2⟩
  simp [SendsWithin, show (clampTcpPacketSize 2).toNat = 2 from rfl]

/-- An iteration that sends a packet of one byte, at the given tick. -/
def oneByteTurn (tick : UInt32) : TcpTurn := ⟨[1], 0, tick⟩

theorem one_byte_iterations (n : Nat) :
    (tcpUploader (clampTcpPacketSize 1) 1).Reaches .start (List.replicate n (oneByteTurn 0))
      (List.replicate n [0]) { TcpUploadLoop.start with nbPackets := UInt32.ofNat n } := by
  induction n with
  | zero => exact (Machine.reaches_nil _ _ _ _).mpr ⟨rfl, rfl⟩
  | succ n ih =>
      have answer : sendall (tcpSamplePacket (clampTcpPacketSize 1)) [1] = some (0, [[0]]) := by
        decide
      rw [List.replicate_succ', List.replicate_succ', UInt32.ofNat_add]
      apply ih.append
      apply Machine.Reaches.single
      simp [tcpUploader, TcpUploadLoop.start, oneByteTurn, answer, nextTcpLoop,
        sysTimepointExpired]

theorem one_byte_upload (n : Nat) :
    (tcpUploader (clampTcpPacketSize 1) 1).Reaches .start
      (List.replicate n (oneByteTurn 0) ++ [oneByteTurn 1])
      (List.replicate n [0] ++ [[0]])
      { TcpUploadLoop.start with nbPackets := UInt32.ofNat (n + 1), again := false } := by
  have answer : sendall (tcpSamplePacket (clampTcpPacketSize 1)) [1] = some (0, [[0]]) := by
    decide
  rw [UInt32.ofNat_add]
  apply (one_byte_iterations n).append
  apply Machine.Reaches.single
  simp [tcpUploader, TcpUploadLoop.start, oneByteTurn, answer, nextTcpLoop, sysTimepointExpired]

/-- After `2 ^ 32` iterations within one tick the counter of packets is zero again. -/
theorem tcp_counters_wrap :
    ∃ turns accepted s, (tcpUploader (clampTcpPacketSize 1) 1).Reaches .start turns accepted s ∧
      s.again = false ∧ (∀ t ∈ turns, SendsWithin (clampTcpPacketSize 1).toNat t.sends) ∧
      s.nbPackets.toNat + s.nbErrors.toNat ≠ turns.length ∧
      ¬ accepted.flatten.length ≤ (s.nbPackets.toNat + s.nbErrors.toNat) * 1 := by
  have wraps {n : Nat} (h : n + 1 = 2 ^ 32) : (UInt32.ofNat (n + 1)).toNat = 0 := by
    rw [UInt32.toNat_ofNat', h, Nat.mod_self]
  have size : (clampTcpPacketSize 1).toNat = 1 := rfl
  obtain ⟨n, h⟩ : ∃ n, n + 1 = 2 ^ 32 := ⟨2 ^ 32 - 1, by decide⟩
  refine ⟨_, _, _, one_byte_upload n, rfl, ?_, ?_, ?_⟩
  · intro t member
    have same : t.sends = [1] := by
      cases List.mem_append.mp member with
      | inl early => rw [List.eq_of_mem_replicate early, oneByteTurn]
      | inr last => rw [List.mem_singleton.mp last, oneByteTurn]
    rw [same, size]
    simp [SendsWithin]
  · rw [wraps h]
    simp [TcpUploadLoop.start]
  · rw [wraps h]
    simp [TcpUploadLoop.start]

end Zperf
