import Zperf.Properties.TcpAccounting

/-!
A TCP upload that runs out of buffers.

The loop compares `errno` with `-ENOMEM`, a value that the positive `errno` never has.
The branch that goes on is never taken, and the first packet that fails ends the upload.
-/

namespace Zperf

open Base

/-- Some call of `zsock_send` for the rest of a packet returns an error. -/
def sendFails : Nat → List Int → Bool
  | 0, _ | _, [] => false
  | len + 1, out :: outs => out < 0 || sendFails (len + 1 - out.toNat) outs

/-- The upload goes on until its time is over, counts every packet that fails, and
succeeds. -/
structure FailuresIgnored (packetSize : UInt32) (timepoint : UInt64) (turns : List TcpTurn)
    (s : TcpUploadLoop) : Prop where
  timedOut : ∃ last ∈ turns.getLast?, sysTimepointExpired timepoint last.tick = true
  counted : s.nbErrors =
    UInt32.ofNat (turns.countP fun t => sendFails packetSize.toNat t.sends)
  succeeds : s.value = 0

theorem sendall_negative_iff {buf : List UInt8} {outs : List Int} {ret : Int}
    {sent : List (List UInt8)} (h : sendall buf outs = some (ret, sent)) :
    ret < 0 ↔ sendFails buf.length outs = true := by
  refine @sendall_induction (fun buf outs ret _ => ret < 0 ↔ sendFails buf.length outs = true)
    ?_ ?_ ?_ _ _ _ _ h
  · intro outs
    simp [sendFails]
  · intro b buf out outs negative
    simp [sendFails, negative]
  · intro b buf out outs ret sent accepts later
    rw [later, List.length_drop]
    simp [sendFails, accepts]

/-- No packet has failed so far, and the loop is left only when its time is over. -/
structure ErrorFree (timepoint : UInt64) (turns : List TcpTurn) (s : TcpUploadLoop) : Prop where
  errors : s.nbErrors = 0
  value : s.ret = 0
  again : ∀ last ∈ turns.getLast?, s.again = !sysTimepointExpired timepoint last.tick

theorem ErrorFree.step {timepoint : UInt64} {turns : List TcpTurn} {s : TcpUploadLoop}
    (h : ErrorFree timepoint turns s) (t : TcpTurn) :
    ErrorFree timepoint (turns ++ [t]) (nextTcpLoop timepoint s t 0) where
  errors := h.errors
  value := rfl
  again last hlast := by
    obtain rfl : t = last := by simpa using hlast
    rfl

theorem reaches_errorFree {packetSize : UInt32} {timepoint : UInt64} {turns : List TcpTurn}
    {accepted : List (List UInt8)} {s : TcpUploadLoop} (size : packetSize.toNat ≤ 1024)
    (run : (tcpUploader packetSize timepoint).Reaches .start turns accepted s)
    (none : ∀ t ∈ turns, sendFails packetSize.toNat t.sends = false) :
    ErrorFree timepoint turns s := by
  refine @Machine.Reaches.invariant _ _ _ _ (fun (past : List TcpTurn) _ s =>
    (∀ t ∈ past, sendFails packetSize.toNat t.sends = false) → ErrorFree timepoint past s)
    ?_ _ _ [] _ [] _ ?_ run none
  · intro past _ s t out s' before step none
    obtain ⟨-, ret, answer, rfl⟩ := tcpUploader_step step
    have free := before fun u member => none u (List.mem_append_left _ member)
    have passes := none t (by simp)
    have positive := sendall_negative_iff answer
    rw [length_tcpSamplePacket size, passes] at positive
    obtain ⟨rest, -, value⟩ := sendall_prefix answer
    obtain ⟨rfl, -⟩ := value.resolve_left (by simpa using positive)
    exact free.step t
  · intro _
    exact ⟨rfl, rfl, fun last hlast => by simp at hlast⟩

/-- A packet that fails ends the loop, with `errno` negated. -/
theorem nextTcpLoop_failed {timepoint : UInt64} {s : TcpUploadLoop} {t : TcpTurn} {ret : Int}
    (failed : ret < 0) (errno : t.errno = enomem) :
    (nextTcpLoop timepoint s t ret).again = false ∧
      (nextTcpLoop timepoint s t ret).value = -enomem := by
  unfold nextTcpLoop
  dsimp only
  rw [if_pos failed, if_neg (by rw [errno]; decide), errno]
  exact ⟨rfl, rfl⟩

theorem stopped_reaches {packetSize : UInt32} {timepoint : UInt64} {turns : List TcpTurn}
    {accepted : List (List UInt8)} {s s' : TcpUploadLoop} (stopped : s.again = false)
    (run : (tcpUploader packetSize timepoint).Reaches s turns accepted s') : s' = s := by
  cases turns with
  | nil => exact ((Machine.reaches_nil _ _ _ _).mp run).2.symm
  | cons t turns =>
      obtain ⟨first, mid, rest, step, -, -⟩ := (Machine.reaches_cons _ _ _ _ _ _).mp run
      have again := (tcpUploader_step step).1
      rw [stopped] at again
      exact absurd again (by decide)

/-- Uploads whose every failure is for lack of memory ignore them exactly when there is
none. -/
theorem failuresIgnored_iff (packetSize : UInt32) (timepoint : UInt64) (turns : List TcpTurn)
    (accepted : List (List UInt8)) (s : TcpUploadLoop)
    (run : (tcpUploader (clampTcpPacketSize packetSize) timepoint).Reaches .start turns accepted s)
    (returned : s.again = false)
    (outOfBuffers : ∀ t ∈ turns, sendFails (clampTcpPacketSize packetSize).toNat t.sends = true →
      t.errno = enomem) :
    FailuresIgnored (clampTcpPacketSize packetSize) timepoint turns s ↔
      ∀ t ∈ turns, sendFails (clampTcpPacketSize packetSize).toNat t.sends = false := by
  have size := clampTcpPacketSize_le packetSize
  constructor
  · intro ignored t member
    cases fails : sendFails (clampTcpPacketSize packetSize).toNat t.sends with
    | false => rfl
    | true =>
        obtain ⟨pre, post, rfl⟩ := List.append_of_mem member
        obtain ⟨_, mid, _, -, after, -⟩ := (Machine.reaches_append _ _ _ _ _ _).mp run
        obtain ⟨_, next, _, step, later, -⟩ := (Machine.reaches_cons _ _ _ _ _ _).mp after
        obtain ⟨-, ret, answer, rfl⟩ := tcpUploader_step step
        have negative : ret < 0 := by
          rw [sendall_negative_iff answer, length_tcpSamplePacket size, fails]
        obtain ⟨stopped, value⟩ :=
          @nextTcpLoop_failed timepoint mid t ret negative (outOfBuffers t member fails)
        have succeeds := ignored.succeeds
        rw [stopped_reaches stopped later, value] at succeeds
        exact absurd succeeds (by decide)
  · intro none
    have free := reaches_errorFree size run none
    refine ⟨?_, ?_, ?_⟩
    · cases last : turns.getLast? with
      | none =>
          obtain rfl := List.getLast?_eq_none_iff.mp last
          obtain ⟨-, rfl⟩ := (Machine.reaches_nil _ _ _ _).mp run
          exact absurd returned (by decide)
      | some t =>
          have again := free.again t last
          rw [returned] at again
          exact ⟨t, rfl, by simpa using again⟩
    · have zero : turns.countP
          (fun t => sendFails (clampTcpPacketSize packetSize).toNat t.sends) = 0 := by
        rw [List.countP_eq_zero]
        intro t member
        simp [none t member]
      rw [free.errors, zero]
      rfl
    · simp [TcpUploadLoop.value, free.value]

/-- Two packets sent whole, in pieces of any size. -/
theorem failuresIgnored_two :
    ∃ accepted s, (tcpUploader (clampTcpPacketSize 2) 2).Reaches .start
        [⟨[1, 1], 0, 1⟩, ⟨[2], 0, 2⟩] accepted s ∧
      FailuresIgnored (clampTcpPacketSize 2) 2 [⟨[1, 1], 0, 1⟩, ⟨[2], 0, 2⟩] s := by
  have run := (tcpUploader (clampTcpPacketSize 2) 2).reaches_of_isSome .start
    [⟨[1, 1], 0, 1⟩, ⟨[2], 0, 2⟩] (by decide +kernel)
  exact ⟨_, _, run, (failuresIgnored_iff 2 2 _ _ _ run (by decide +kernel)
    (by decide +kernel)).mpr (by decide +kernel)⟩

/-- One packet fails for lack of memory: the upload ends before its time is over. -/
theorem first_failure_ends_upload :
    ∃ accepted s, (tcpUploader (clampTcpPacketSize 2) 2).Reaches .start [⟨[-1], enomem, 1⟩]
        accepted s ∧ s.again = false ∧ s.value = -enomem ∧
      ¬ FailuresIgnored (clampTcpPacketSize 2) 2 [⟨[-1], enomem, 1⟩] s := by
  have run := (tcpUploader (clampTcpPacketSize 2) 2).reaches_of_isSome .start
    [⟨[-1], enomem, 1⟩] (by decide +kernel)
  refine ⟨_, _, run, by decide +kernel, by decide +kernel, fun ignored => ?_⟩
  exact absurd ignored.succeeds (by decide +kernel)

end Zperf
