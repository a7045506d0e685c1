import Zperf.Base.Progress
import Zperf.Core.TcpTest
import Zperf.Properties.TcpAccounting
import Zperf.Properties.StopProgress
import Zperf.Properties.TcpConnections
import Zperf.Properties.TcpReport

/-!
What a TCP test counts at its two ends.

Every byte that the client's socket has accepted is on its way or counted in the session of
its connection, until the connection is closed. The uploader counts packets and errors, which
bound the bytes; what it returns is what `tcp_upload` returns.
-/

namespace Zperf

open Base

/-! ### The uploader -/

namespace TcpUploadArgs

variable {u : TcpUploadArgs}

theorem length_packet (u : TcpUploadArgs) : u.packet.length = u.size.toNat :=
  length_tcpSamplePacket (clampTcpPacketSize_le _)

/-- `total` bytes are those of `sent` whole packets, of `failed` others at most, and
`part` of the one under way. -/
structure Totals (u : TcpUploadArgs) (s : TcpUploadLoop) (part total : Nat) : Prop where
  counts : ∃ sent failed, s.nbPackets = UInt32.ofNat sent ∧ s.nbErrors = UInt32.ofNat failed ∧
    sent * u.size.toNat + part ≤ total ∧ total ≤ (sent + failed) * u.size.toNat + part

/-- The bytes that the socket has accepted, by what the uploader has counted. -/
def Sent (u : TcpUploadArgs) (total : Nat) : TcpUploadPc → Prop
  | .sending s buf => ∃ part, part + buf.length = u.size.toNat ∧ u.Totals s part total
  | .leaving s | .closed s => u.Totals s 0 total

theorem Sent.start (u : TcpUploadArgs) : u.Sent 0 (.sending .start u.packet) :=
  ⟨0, by rw [length_packet, Nat.zero_add], ⟨0, 0, rfl, rfl, by simp, by simp⟩⟩

/-- A packet that is whole is counted as sent, and one that is not as an error. -/
theorem Totals.endIteration {s : TcpUploadLoop} {part total : Nat} (h : u.Totals s part total)
    (r : TcpUploadAnswer) {ret : Int} (le : part ≤ u.size.toNat)
    (whole : ¬ ret < 0 → part = u.size.toNat) : u.Sent total (u.endIteration s r ret) := by
  obtain ⟨sent, failed, packets, errors, low, high⟩ := h.counts
  obtain ⟨packets', errors'⟩ := nextTcpLoop_counts u.timepoint s ⟨[], r.errno, r.tick⟩ ret
  have next : u.Totals (nextTcpLoop u.timepoint s ⟨[], r.errno, r.tick⟩ ret) 0 total := by
    by_cases fails : ret < 0
    · rw [if_pos fails] at packets' errors'
      refine ⟨sent, failed + 1, packets'.trans packets, ?_, by omega, ?_⟩
      · rw [errors', errors, UInt32.ofNat_add]
        rfl
      · rw [← Nat.add_assoc, Nat.add_mul _ 1]
        omega
    · have full := whole fails
      rw [if_neg fails] at packets' errors'
      refine ⟨sent + 1, failed, ?_, errors'.trans errors, ?_, ?_⟩
      · rw [packets', packets, UInt32.ofNat_add]
        rfl
      · rw [Nat.add_mul]
        omega
      · rw [Nat.add_right_comm, Nat.add_mul _ 1]
        omega
  unfold TcpUploadArgs.endIteration
  dsimp only
  split
  · exact ⟨0, by rw [length_packet, Nat.zero_add], next⟩
  · exact next

theorem Sent.step {pc : TcpUploadPc} {total : Nat} (h : u.Sent total pc) (r : TcpUploadAnswer) :
    u.Sent (total + (u.step pc r).1.length) (u.step pc r).2 := by
  cases pc with
  | sending s buf =>
      obtain ⟨part, all, totals⟩ := h
      cases buf with
      | nil => exact totals.endIteration r (by simp at all; omega) fun _ => by simpa using all
      | cons b buf =>
          unfold TcpUploadArgs.step
          dsimp only
          split
          · rename_i fails
            exact totals.endIteration r (by omega) fun fine => absurd fails fine
          · obtain ⟨sent, failed, packets, errors, low, high⟩ := totals.counts
            have split := congrArg List.length (List.take_append_drop r.out.toNat (b :: buf))
            rw [List.length_append] at split
            refine ⟨part + ((b :: buf).take r.out.toNat).length, by omega, sent, failed,
              packets, errors, ?_, ?_⟩
            · dsimp only
              omega
            · dsimp only
              omega
  | leaving s => exact h
  | closed s => exact h

/-- The rest of the loop of `tcp_upload` behind an iteration that left the variables `s`. -/
def LoopEnds (u : TcpUploadArgs) (final s : TcpUploadLoop) (turns : List TcpTurn) : Prop :=
  if s.again then tcpUploadLoop u.size u.timepoint s turns = some final else s = final

/-- From `pc` on, some results of the calls that are left make the loop of `tcp_upload` end
with the variables `final`. -/
def Ends (u : TcpUploadArgs) (final : TcpUploadLoop) : TcpUploadPc → Prop
  | .sending s buf => ∃ t ret sent turns, sendall buf t.sends = some (ret, sent) ∧
      u.LoopEnds final (nextTcpLoop u.timepoint s t ret) turns
  | .leaving s | .closed s => s = final

theorem loop_of_ends {final s : TcpUploadLoop} (h : u.Ends final (.sending s u.packet)) :
    ∃ turns, tcpUploadLoop u.size u.timepoint s turns = some final := by
  obtain ⟨t, ret, sent, turns, answer, later⟩ := h
  refine ⟨t :: turns, ?_⟩
  have whole : sendall (tcpSamplePacket u.size) t.sends = some (ret, sent) := answer
  unfold tcpUploadLoop
  rw [whole]
  unfold LoopEnds at later
  dsimp only
  split
  · rename_i again
    rwa [if_pos again] at later
  · rename_i left
    rw [if_neg left] at later
    rw [later]

theorem Ends.endIteration {final s : TcpUploadLoop} {r : TcpUploadAnswer} {ret : Int}
    (h : u.Ends final (u.endIteration s r ret)) :
    ∃ turns, u.LoopEnds final (nextTcpLoop u.timepoint s ⟨[], r.errno, r.tick⟩ ret) turns := by
  unfold TcpUploadArgs.endIteration at h
  unfold LoopEnds
  dsimp only at h
  split at h
  · rename_i again
    obtain ⟨turns, loop⟩ := loop_of_ends h
    exact ⟨turns, by rwa [if_pos again]⟩
  · rename_i left
    exact ⟨[], by rwa [if_neg left]⟩

/-- The calls are gathered backwards, from the end of the loop on. -/
theorem Ends.back {final : TcpUploadLoop} {pc : TcpUploadPc} {r : TcpUploadAnswer}
    (h : u.Ends final (u.step pc r).2) : u.Ends final pc := by
  cases pc with
  | sending s buf =>
      cases buf with
      | nil =>
          obtain ⟨turns, later⟩ := Ends.endIteration h
          exact ⟨⟨[], r.errno, r.tick⟩, 0, [], turns, rfl, later⟩
      | cons b buf =>
          unfold TcpUploadArgs.step at h
          dsimp only at h
          split at h
          · rename_i fails
            obtain ⟨turns, later⟩ := Ends.endIteration h
            exact ⟨⟨[r.out], r.errno, r.tick⟩, r.out, [], turns, by simp [sendall, fails], later⟩
          · rename_i accepts
            obtain ⟨t, ret, sent, turns, answer, later⟩ := h
            refine ⟨{ t with sends := r.out :: t.sends }, ret,
              (b :: buf).take r.out.toNat :: sent, turns, ?_, later⟩
            simp only [sendall, if_neg accepts, answer, Option.map_some]
  | leaving s => exact h
  | closed s => exact h

end TcpUploadArgs

/-! ### The connection -/

/-- Entry `i` holds the connection of `client`. -/
def TcpServer.Carries (s : TcpServer) (client : Peer) (i : Fin tcpSockIdMax) : Prop :=
  s.Connected i ∧ s.sockAddr i = some client

/-- What a step of the server does to the entries, the row and its calls. -/
inductive EntryStep (hz : UInt64) (cb : Bool) (s : TcpServer) (r : TcpOutcome) :
    List (ServerEvent TcpArrival) → TcpServer → Prop where
  | same (events : List (ServerEvent TcpArrival)) (t : TcpServer) (quiet : calls events = [])
      (fd : ∀ i, TcpServer.isListener i = false → t.fd i = s.fd i)
      (addr : t.sockAddr = s.sockAddr) (row : t.row = s.row) : EntryStep hz cb s r events t
  | ended (events : List (ServerEvent TcpArrival)) (t : TcpServer) (quiet : calls events = [])
      (none : ∀ client i, ¬ t.Carries client i) (row : t.row = s.row) :
      EntryStep hz cb s r events t
  | accepted (runs : s.pc ≠ .returned) (made : ¬ r.ret < 0) (j : Fin tcpSockIdMax)
      (free : s.freeEntry = some j) (pc : TcpPc) :
      EntryStep hz cb s r [.accept r.ret] { s with
        fd := Function.update s.fd j r.ret
        sockAddr := Function.update s.sockAddr j (some r.addr)
        pc := pc }
  | received (i : Fin tcpSockIdMax) (pc : s.pc = .entry i)
      (readable : (s.revents i).pollin = true) (data : TcpServer.isListener i = false) :
      EntryStep hz cb s r (s.recv hz cb i r).1 (s.recv hz cb i r).2

theorem cleanup_carries (s : TcpServer) (client : Peer) (i : Fin tcpSockIdMax) :
    ¬ s.cleanup.2.Carries client i := by
  rintro ⟨connected, addr⟩
  have open_ : 0 ≤ s.fd i := connected.2
  simp [TcpServer.cleanup, open_] at addr

theorem tcpServerSession_entryStep (hz : UInt64) (stop cb : Bool) (s : TcpServer)
    (r : TcpOutcome) :
    EntryStep hz cb s r (tcpServerSession hz stop cb s r).1 (tcpServerSession hz stop cb s r).2 := by
  have error (s' : TcpServer) (row : s'.row = s.row) :
      EntryStep hz cb s r (s'.error cb).1 (s'.error cb).2 :=
    .ended _ _ (calls_error cb s') (cleanup_carries s') row
  unfold tcpServerSession
  cases pc : s.pc with
  | socket i =>
      dsimp only
      split
      · exact error _ rfl
      · refine .same _ _ rfl (fun j data => Function.update_of_ne ?_ _ _) rfl rfl
        rintro rfl
        have listens : (TcpServer.listener i).val < 2 := i.isLt
        simp [TcpServer.isListener, listens] at data
  | bind i | listen i =>
      dsimp only
      split
      · exact error s rfl
      · exact .same _ _ rfl (fun _ _ => rfl) rfl rfl
  | poll =>
      dsimp only
      split
      · exact error s rfl
      · split
        · exact .ended _ _ (calls_closeAll _) (cleanup_carries s) rfl
        · split <;> exact .same _ _ rfl (fun _ _ => rfl) rfl rfl
  | entry i =>
      dsimp only
      split
      · exact error s rfl
      · split
        · exact .same _ _ rfl (fun _ _ => rfl) rfl rfl
        · rename_i readable
          rw [Decidable.not_not] at readable
          split
          · unfold TcpServer.accept
            split
            · exact error s rfl
            · rename_i made
              split
              · exact .same _ _ rfl (fun _ _ => rfl) rfl rfl
              · rename_i j free
                exact .accepted (by simp [pc]) made j free _
          · rename_i data
            exact .received i pc readable (by simpa using data)
  | returned => exact .same _ _ rfl (fun _ _ => rfl) rfl rfl

/-- The uploader has closed its socket. -/
def TcpUploadPc.isClosed : TcpUploadPc → Bool
  | .closed _ => true
  | .sending _ _ | .leaving _ => false

/-- What the network keeps to in a step of the server: a poll reports nothing on an entry
without a socket, no second connection has the client's address, nothing is received that was
not sent, and the end of file comes last. A connection may be reset at any time. -/
structure Delivers (hz : UInt64) (client : Peer) (s : TcpTest) (turn : ServerTurn TcpOutcome) :
    Prop where
  polls : SkipsFree s.server turn.outcome
  once : meets client turn.outcome
    (tcpServerSession hz turn.stop turn.cb s.server turn.outcome).1 = true → s.met = false
  sent : ∀ d ∈ calls (tcpServerSession hz turn.stop turn.cb s.server turn.outcome).1,
    d.taken client ≤ s.flight.length
  eof : ∀ d ∈ calls (tcpServerSession hz turn.stop turn.cb s.server turn.outcome).1,
    d.addr = some client → turn.outcome.ret = 0 → s.flight = [] ∧ s.client.isClosed = true

instance (hz : UInt64) (client : Peer) (s : TcpTest) (turn : ServerTurn TcpOutcome) :
    Decidable (Delivers hz client s turn) :=
  decidable_of_iff (_ ∧ _ ∧ _ ∧ _)
    ⟨fun h => ⟨h.1, h.2.1, h.2.2.1, h.2.2.2⟩, fun h => ⟨h.polls, h.once, h.sent, h.eof⟩⟩

def NetworkKeeps (hz : UInt64) (client : Peer)
    (_ : List (TcpUploadAnswer ⊕ ServerTurn TcpOutcome)) (s : TcpTest) :
    TcpUploadAnswer ⊕ ServerTurn TcpOutcome → Prop
  | .inl _ => True
  | .inr turn => Delivers hz client s turn

instance (hz : UInt64) (client : Peer) (past : List (TcpUploadAnswer ⊕ ServerTurn TcpOutcome))
    (s : TcpTest) (a : TcpUploadAnswer ⊕ ServerTurn TcpOutcome) :
    Decidable (NetworkKeeps hz client past s a) :=
  match a with
  | .inl _ => .isTrue trivial
  | .inr turn => inferInstanceAs (Decidable (Delivers hz client s turn))

/-- Of `n` bytes that the server has taken from the connection, as its session has it. -/
def TakenInto (client : Peer) (row : Row) (n : Nat) : Prop :=
  (n = 0 ∧ ∀ j, ¬ OngoingFor row client j) ∨ ∃ start, SessionAt client start n row

theorem OpensFor.of_granted {row : Row} (ok : RowOk row) {client : Peer}
    (none : ∀ j, ¬ OngoingFor row client j) (granted : ¬ sessionReading.Refuses row client) :
    OpensFor row client := by
  refine ⟨none, ?_⟩
  cases getSession_cases row ok.settled client with
  | inl found =>
      obtain ⟨i, -, eq⟩ := found
      simp [eq]
  | inr refused => exact absurd refused.1 granted

theorem TakenInto.own {hz : UInt64} {cb : Bool} {client : Peer} {row : Row} {n : Nat}
    {d : TcpArrival} (h : TakenInto client row n) (ok : RowOk row)
    (granted : ¬ sessionReading.Refuses row client) (own : d.addr = some client)
    (data : d.datalen ≠ 0) :
    TakenInto client (tcpReceived hz cb row d).2 (n + d.datalen.toNat) := by
  cases h with
  | inl fresh =>
      obtain ⟨rfl, none⟩ := fresh
      have opens := OpensFor.of_granted ok none granted
      rw [Nat.zero_add]
      exact .inr ⟨_, SessionAt.opened ok.settled opens own data⟩
  | inr ongoing =>
      obtain ⟨start, at'⟩ := ongoing
      exact .inr ⟨start, at'.own ok.keysApart ok.settled own data⟩

theorem TakenInto.other {hz : UInt64} {cb : Bool} {client p : Peer} {row : Row} {n : Nat}
    {d : TcpArrival} (h : TakenInto client row n) (ok : RowOk row) (addr : d.addr = some p)
    (other : p ≠ client) : TakenInto client (tcpReceived hz cb row d).2 n := by
  have apart : d.addr ≠ some client := by simpa [addr] using other
  cases h with
  | inl fresh =>
      refine .inl ⟨fresh.1, ?_⟩
      rintro j ⟨key, ongoing⟩
      cases tcpReceived_ongoing hz cb ok addr ongoing with
      | inl own => exact other (Option.some.inj (own.1.symm.trans key))
      | inr others =>
          rw [others.1] at key ongoing
          exact fresh.2 j ⟨key, ongoing⟩
  | inr ongoing =>
      obtain ⟨start, at'⟩ := ongoing
      exact .inr ⟨start, at'.other ok.settled apart⟩

theorem tcpOngoing_finished {hz : UInt64} {s : Session} {d : TcpArrival} {start : UInt32} {n : Nat}
    (startTime : s.startTime = kUptimeTicks start) (length : s.length = UInt64.ofNat n)
    {results : Results}
    (finished : .sessionCb (.finished results) ∈ (tcpOngoing hz true s d).1) :
    d.datalen = 0 ∧ results.totalLen.toNat = n % 2 ^ 32 := by
  by_cases eof : d.datalen = 0
  · have reported : results ∈ finishedResults (tcpOngoing hz true s d).1 :=
      List.mem_filterMap.mpr ⟨_, finished, rfl⟩
    rw [finishedResults_eof hz startTime length eof, List.mem_singleton] at reported
    exact ⟨eof, by rw [reported, totalLen_tcpReport]⟩
  · rw [tcpOngoing_data hz true s eof] at finished
    exact absurd finished List.not_mem_nil

/-- The results that the end of file hands out. -/
theorem TakenInto.report {hz : UInt64} {cb : Bool} {client : Peer} {row : Row} {n : Nat}
    {d : TcpArrival} (h : TakenInto client row n) (ok : RowOk row)
    (granted : ¬ sessionReading.Refuses row client) (own : d.addr = some client)
    {results : Results} (finished : .sessionCb (.finished results) ∈ (tcpReceived hz cb row d).1) :
    d.datalen = 0 ∧ results.totalLen.toNat = n % 2 ^ 32 := by
  cases cb with
  | false => exact absurd finished (tcpReceived_silent hz row d _)
  | true =>
      cases h with
      | inl fresh =>
          obtain ⟨rfl, none⟩ := fresh
          obtain ⟨i, s, -, eq⟩ :=
            tcpReceived_opening hz true ok.settled (OpensFor.of_granted ok none granted) own
          rw [eq] at finished
          refine @tcpOngoing_finished hz (startTcpSession s d) d d.startTick 0 rfl rfl results ?_
          simpa [callSessionCb] using finished
      | inr ongoing =>
          obtain ⟨start, i, at', startTime, length⟩ := ongoing
          rw [tcpReceived_own hz true ok.keysApart ok.settled at' own] at finished
          exact tcpOngoing_finished startTime length finished

/-- The server's entry for the connection, its session and the bytes on their way, after
`total` bytes that the client's socket has accepted. -/
structure Flow (client : Peer) (s : TcpTest) (total : Nat) : Prop where
  ok : TcpServerOk s.server
  unique : ∀ i j, s.server.Carries client i → s.server.Carries client j → i = j
  unmet : s.met = false → (∀ i, ¬ s.server.Carries client i) ∧ s.flight.length = total
  taken : ∀ i, s.server.Carries client i →
    ∃ n, TakenInto client s.server.row n ∧ n + s.flight.length = total

/-- No session is ongoing for a client without a connection. -/
theorem TcpServerOk.not_ongoing {s : TcpServer} (ok : TcpServerOk s)
    (runs : s.pc ≠ .returned) {client : Peer} (none : ∀ i, ¬ s.Carries client i)
    (j : Fin sessionMax) : ¬ OngoingFor s.row client j := by
  rintro ⟨key, ongoing⟩
  obtain ⟨i, connected, same⟩ := (ok.connections runs).owned j ongoing
  exact none i ⟨connected, same.symm.trans key⟩

theorem datalen_eq_zero {s : TcpServer} {i : Fin tcpSockIdMax} {r : TcpOutcome} :
    (s.arrival i r).datalen = 0 ↔ TcpServer.recvLen r = 0 := by
  constructor
  · intro none
    have back := congrArg UInt32.toInt32 (show (TcpServer.recvLen r).toUInt32 = 0 from none)
    rwa [Int32.toInt32_toUInt32] at back
  · intro none
    rw [TcpServer.arrival, none]
    rfl

/-- Only the entry that met the end of file gives up its connection. -/
theorem recv_carries {hz : UInt64} {cb : Bool} {s : TcpServer} {r : TcpOutcome} {client : Peer}
    {i k : Fin tcpSockIdMax} (h : (s.recv hz cb i r).2.Carries client k) :
    s.Carries client k ∧ (TcpServer.recvLen r = 0 → k ≠ i) := by
  unfold TcpServer.recv at h
  dsimp only at h
  split at h
  · obtain ⟨⟨data, open_⟩, own⟩ := h
    have other : k ≠ i := by
      rintro rfl
      simp [TcpServer.closeEntry] at own
    simp only [TcpServer.closeEntry, TcpServer.deliver, Function.update_of_ne other] at open_ own
    exact ⟨⟨⟨data, open_⟩, own⟩, fun _ => other⟩
  · rename_i goesOn
    exact ⟨h, fun eof => absurd eof goesOn⟩

namespace Flow

variable {u : TcpUploadArgs} {hz : UInt64} {client : Peer} {s : TcpTest} {total : Nat}

theorem start (u : TcpUploadArgs) {server : TcpServer} (ok : RowOk server.row)
    (idle : ∀ j, (server.row j).state ≠ .ongoing) : Flow client (u.start server) 0 := by
  have none (i : Fin tcpSockIdMax) : ¬ (u.start server).server.Carries client i := by
    rintro ⟨⟨-, open_⟩, -⟩
    exact absurd open_ (by simp only [TcpUploadArgs.start, TcpServer.enter]; decide)
  refine ⟨TcpServerOk.enter ok idle, ?_, fun _ => ⟨none, rfl⟩, ?_⟩
  · intro i j carries
    exact absurd carries (none i)
  · intro i carries
    exact absurd carries (none i)

theorem sends (h : Flow client s total) (bytes : List UInt8) (pc : TcpUploadPc) :
    Flow client { s with client := pc, flight := s.flight ++ bytes } (total + bytes.length) := by
  refine ⟨h.ok, h.unique, ?_, ?_⟩
  · intro unmet
    obtain ⟨none, all⟩ := h.unmet unmet
    exact ⟨none, by rw [List.length_append, all]⟩
  · intro i carries
    obtain ⟨n, taken, all⟩ := h.taken i carries
    exact ⟨n, taken, by rw [List.length_append, ← all, Nat.add_assoc]⟩

theorem same (h : Flow client s total) {t : TcpServer} (ok : TcpServerOk t)
    (fd : ∀ i, TcpServer.isListener i = false → t.fd i = s.server.fd i)
    (addr : t.sockAddr = s.server.sockAddr) (row : t.row = s.server.row) (met : Bool) :
    Flow client { s with server := t, met := s.met || met } total := by
  have before (i : Fin tcpSockIdMax) (carries : t.Carries client i) :
      s.server.Carries client i := by
    obtain ⟨⟨data, open_⟩, own⟩ := carries
    exact ⟨⟨data, fd i data ▸ open_⟩, addr ▸ own⟩
  refine ⟨ok, ?_, ?_, ?_⟩
  · intro i j here there
    exact h.unique i j (before i here) (before j there)
  · intro unmet
    obtain ⟨none, all⟩ := h.unmet (Bool.or_eq_false_iff.mp unmet).1
    exact ⟨fun i carries => none i (before i carries), all⟩
  · intro i carries
    dsimp only
    rw [row]
    exact h.taken i (before i carries)

theorem ended (h : Flow client s total) {t : TcpServer} (ok : TcpServerOk t)
    (none : ∀ i, ¬ t.Carries client i) (met : Bool) :
    Flow client { s with server := t, met := s.met || met } total := by
  refine ⟨ok, ?_, ?_, ?_⟩
  · intro i j carries
    exact absurd carries (none i)
  · intro unmet
    exact ⟨none, (h.unmet (Bool.or_eq_false_iff.mp unmet).1).2⟩
  · intro i carries
    exact absurd carries (none i)

theorem accepted (h : Flow client s total) {r : TcpOutcome} {j : Fin tcpSockIdMax} {pc : TcpPc}
    (runs : s.server.pc ≠ .returned) (free : s.server.freeEntry = some j)
    (ok : TcpServerOk { s.server with
      fd := Function.update s.server.fd j r.ret
      sockAddr := Function.update s.server.sockAddr j (some r.addr)
      pc := pc })
    (once : r.addr = client → s.met = false) :
    Flow client { s with
      server := { s.server with
        fd := Function.update s.server.fd j r.ret
        sockAddr := Function.update s.server.sockAddr j (some r.addr)
        pc := pc }
      met := s.met || decide (r.addr = client) } total := by
  have others {i : Fin tcpSockIdMax} (other : i ≠ j)
      (carries : TcpServer.Carries { s.server with
        fd := Function.update s.server.fd j r.ret
        sockAddr := Function.update s.server.sockAddr j (some r.addr)
        pc := pc } client i) : s.server.Carries client i := by
    obtain ⟨⟨data, open_⟩, own⟩ := carries
    dsimp only at open_ own
    rw [Function.update_of_ne other] at open_ own
    exact ⟨⟨data, open_⟩, own⟩
  have new (carries : TcpServer.Carries { s.server with
        fd := Function.update s.server.fd j r.ret
        sockAddr := Function.update s.server.sockAddr j (some r.addr)
        pc := pc } client j) : r.addr = client := by
    have own := carries.2
    dsimp only at own
    rw [Function.update_self] at own
    exact Option.some.inj own
  refine ⟨ok, ?unique, ?unmet, ?taken⟩
  case unique =>
    intro i k here there
    by_cases first : i = j
    · by_cases second : k = j
      · rw [first, second]
      · subst first
        exact absurd (others second there) ((h.unmet (once (new here))).1 k)
    · by_cases second : k = j
      · subst second
        exact absurd (others first here) ((h.unmet (once (new there))).1 i)
      · exact h.unique i k (others first here) (others second there)
  case unmet =>
    intro unmet
    obtain ⟨before, other⟩ := Bool.or_eq_false_iff.mp unmet
    obtain ⟨none, all⟩ := h.unmet before
    refine ⟨?_, all⟩
    intro i carries
    by_cases own : i = j
    · subst own
      exact of_decide_eq_false other (new carries)
    · exact none i (others own carries)
  case taken =>
    intro i carries
    by_cases own : i = j
    · subst own
      obtain ⟨none, all⟩ := h.unmet (once (new carries))
      exact ⟨0, .inl ⟨rfl, h.ok.not_ongoing runs none⟩, by rw [Nat.zero_add]; exact all⟩
    · exact h.taken i (others own carries)

theorem received (h : Flow client s total) {r : TcpOutcome} {i : Fin tcpSockIdMax} {cb : Bool}
    (pc : s.server.pc = .entry i) (connected : s.server.Connected i)
    (ok : TcpServerOk (s.server.recv hz cb i r).2)
    (sent : (s.server.arrival i r).taken client ≤ s.flight.length) (met : Bool) :
    Flow client { s with
      flight := takeBytes client s.flight [s.server.arrival i r]
      met := s.met || met
      server := (s.server.recv hz cb i r).2 } total := by
  have tables := h.ok.connections (by simp [pc])
  obtain ⟨p, addr⟩ := tables.named i connected
  have arrival : (s.server.arrival i r).addr = some p := addr
  obtain ⟨-, row⟩ := calls_recv hz cb s.server i r
  have before := fun k => @recv_carries hz cb s.server r client i k
  have flight : takeBytes client s.flight [s.server.arrival i r] =
      s.flight.drop ((s.server.arrival i r).taken client) := rfl
  refine ⟨ok, ?unique, ?unmet, ?taken⟩
  case unique =>
    intro k l here there
    exact h.unique k l (before k here).1 (before l there).1
  case unmet =>
    intro unmet
    obtain ⟨none, all⟩ := h.unmet (Bool.or_eq_false_iff.mp unmet).1
    have other : p ≠ client := fun own => none i ⟨connected, own ▸ addr⟩
    have nothing : (s.server.arrival i r).taken client = 0 := by
      rw [TcpArrival.taken, arrival, if_neg (by simpa using other)]
    refine ⟨fun k carries => none k (before k carries).1, ?_⟩
    rw [flight, nothing, List.drop_zero, all]
  case taken =>
    intro k carries
    obtain ⟨was, still⟩ := before k carries
    obtain ⟨n, taken, all⟩ := h.taken k was
    dsimp only
    rw [row, flight, List.length_drop]
    by_cases own : p = client
    · subst own
      obtain rfl := h.unique k i was ⟨connected, addr⟩
      have data : (s.server.arrival k r).datalen ≠ 0 := fun eof => still (datalen_eq_zero.mp eof) rfl
      have bytes : (s.server.arrival k r).taken p = (s.server.arrival k r).datalen.toNat := by
        rw [TcpArrival.taken, arrival, if_pos rfl]
      rw [bytes] at sent ⊢
      exact ⟨_, taken.own h.ok.row (tables.finds h.ok.row connected addr) arrival data, by omega⟩
    · have nothing : (s.server.arrival i r).taken client = 0 := by
        rw [TcpArrival.taken, arrival, if_neg (by simpa using own)]
      rw [nothing]
      exact ⟨n, taken.other h.ok.row arrival own, all⟩

theorem server (h : Flow client s total) {turn : ServerTurn TcpOutcome}
    (delivers : Delivers hz client s turn) :
    Flow client { s with
      flight := takeBytes client s.flight
        (calls (tcpServerSession hz turn.stop turn.cb s.server turn.outcome).1)
      met := s.met || meets client turn.outcome
        (tcpServerSession hz turn.stop turn.cb s.server turn.outcome).1
      server := (tcpServerSession hz turn.stop turn.cb s.server turn.outcome).2 } total := by
  have ok := h.ok.step hz turn.stop turn.cb delivers.polls
  have entry := tcpServerSession_entryStep hz turn.stop turn.cb s.server turn.outcome
  have once := delivers.once
  have sent := delivers.sent
  generalize tcpServerSession hz turn.stop turn.cb s.server turn.outcome = next at *
  obtain ⟨events, t⟩ := next
  cases entry with
  | same events t quiet fd addr row =>
      dsimp only
      rw [quiet]
      exact h.same ok fd addr row _
  | ended events t quiet none row =>
      dsimp only
      rw [quiet]
      exact h.ended ok (none client) _
  | accepted runs made j free pc =>
      have meeting : meets client turn.outcome [.accept turn.outcome.ret] =
          decide (turn.outcome.addr = client) := by simp [meets]
      dsimp only at once ⊢
      rw [meeting] at once ⊢
      exact h.accepted runs free ok fun own => once (decide_eq_true own)
  | received i pc readable data =>
      have connected := (h.ok.connections (by simp [pc])).connected pc readable data
      obtain ⟨one, -⟩ := calls_recv hz turn.cb s.server i turn.outcome
      dsimp only at sent ⊢
      rw [one] at sent ⊢
      exact h.received pc connected ok (sent _ List.mem_cons_self) _

end Flow

/-! ### The test -/

/-- The invariant of a test. -/
def TestOk (u : TcpUploadArgs) (client : Peer) (s : TcpTest) : Prop :=
  ∃ total, u.Sent total s.client ∧ Flow client s total

theorem TestOk.step {u : TcpUploadArgs} {hz : UInt64} {client : Peer} {s t : TcpTest}
    {past : List (TcpUploadAnswer ⊕ ServerTurn TcpOutcome)}
    {a : TcpUploadAnswer ⊕ ServerTurn TcpOutcome} {out : List (ServerEvent TcpArrival)}
    (h : TestOk u client s) (keeps : NetworkKeeps hz client past s a)
    (step : (tcpTest u hz client).step s a = (out, some t)) : TestOk u client t := by
  obtain ⟨total, sent, flow⟩ := h
  cases a with
  | inl r =>
      obtain ⟨-, rfl⟩ := goesOn_inj step
      exact ⟨_, sent.step r, flow.sends _ _⟩
  | inr turn =>
      obtain ⟨-, rfl⟩ := goesOn_inj step
      exact ⟨total, sent, flow.server keeps⟩

theorem TcpTest.ends_back {u : TcpUploadArgs} {hz : UInt64} {client : Peer} {s t : TcpTest}
    {a : TcpUploadAnswer ⊕ ServerTurn TcpOutcome} {out : List (ServerEvent TcpArrival)}
    {final : TcpUploadLoop} (step : (tcpTest u hz client).step s a = (out, some t))
    (h : u.Ends final t.client) : u.Ends final s.client := by
  cases a with
  | inl r =>
      obtain ⟨-, rfl⟩ := goesOn_inj step
      exact h.back
  | inr turn =>
      obtain ⟨-, rfl⟩ := goesOn_inj step
      exact h

/-- What the results `results` of the client's session say, handed out in a step of the server
in which `zsock_recv` returned `ret`. -/
structure TotalTold (u : TcpUploadArgs) (s : TcpTest) (ret : Int32) (results : Results) : Prop where
  received : ∃ n total, u.Sent total s.client ∧ n ≤ total ∧
    results.totalLen.toNat = n % 2 ^ 32 ∧ (ret = 0 → n = total)
  uploaded : ret = 0 → ∃ final turns, s.client = .closed final ∧
    tcpUploadLoop u.size u.timepoint .start turns = some final

/-- Whenever the server hands out results of the client's session: they tell a number of bytes
that the client's socket has accepted, and after the end of file all of them, of an upload that
`tcp_upload` returns from. -/
theorem tcp_total_told (u : TcpUploadArgs) (hz : UInt64) (client : Peer) {cb₀ : Bool}
    {ds : List TcpArrival} {out₀ : List Event} {s₀ : TcpServer}
    (past : (tcpReceiver hz cb₀).Reaches bootRow ds out₀ s₀.row)
    (idle : ∀ j, (s₀.row j).state ≠ .ongoing)
    {as : List (TcpUploadAnswer ⊕ ServerTurn TcpOutcome)} {out : List (ServerEvent TcpArrival)}
    {s : TcpTest} (run : (tcpTest u hz client).Reaches (u.start s₀) as out s)
    (keeps : (tcpTest u hz client).Along (NetworkKeeps hz client) [] (u.start s₀) as)
    {turn : ServerTurn TcpOutcome} (delivers : Delivers hz client s turn) {d : TcpArrival}
    (call : d ∈ calls (tcpServerSession hz turn.stop turn.cb s.server turn.outcome).1)
    (own : d.addr = some client) {results : Results}
    (finished : .out (.sessionCb (.finished results)) ∈
      (tcpServerSession hz turn.stop turn.cb s.server turn.outcome).1) :
    TotalTold u s turn.outcome.ret results := by
  have ok : TestOk u client s := run.history_along (fun _ s => TestOk u client s)
    (fun _ _ _ _ _ ok keeps step => ok.step keeps step)
    ⟨0, TcpUploadArgs.Sent.start u, Flow.start u (RowOk.of_tcpReceiver past idle) idle⟩ keeps
  obtain ⟨total, sent, flow⟩ := ok
  have entry := tcpServerSession_entryStep hz turn.stop turn.cb s.server turn.outcome
  have eof := delivers.eof
  generalize tcpServerSession hz turn.stop turn.cb s.server turn.outcome = next at *
  obtain ⟨events, t⟩ := next
  dsimp only at call finished eof
  cases entry with
  | same events t quiet fd addr row => simp [quiet] at call
  | ended events t quiet none row => simp [quiet] at call
  | accepted runs made j free pc => simp [calls, ServerEvent.call] at call
  | received i pc readable data =>
      have tables := flow.ok.connections (by simp [pc])
      have connected := tables.connected pc readable data
      obtain ⟨one, -⟩ := calls_recv hz turn.cb s.server i turn.outcome
      rw [one] at eof call
      obtain rfl := List.mem_singleton.mp call
      have addr : s.server.sockAddr i = some client := own
      obtain ⟨n, taken, all⟩ := flow.taken i ⟨connected, addr⟩
      have handed := (recv_out finished).resolve_left (by simp)
      obtain ⟨-, told⟩ :=
        taken.report flow.ok.row (tables.finds flow.ok.row connected addr) own handed
      refine ⟨⟨n, total, sent, by omega, told, ?_⟩, ?_⟩
      · intro last
        obtain ⟨none, -⟩ := eof _ List.mem_cons_self own last
        rw [none, List.length_nil] at all
        exact all
      · intro last
        obtain ⟨-, closed⟩ := eof _ List.mem_cons_self own last
        obtain ⟨final, at'⟩ : ∃ final, s.client = .closed final := by
          cases pc' : s.client with
          | closed final => exact ⟨final, rfl⟩
          | sending loop buf | leaving loop => simp [pc', TcpUploadPc.isClosed] at closed
        have ends := run.traced (fun s => u.Ends final s.client)
          (fun s a out t step ends => TcpTest.ends_back step ends) (by rw [at']; rfl)
        obtain ⟨turns, loop⟩ := TcpUploadArgs.loop_of_ends ends
        exact ⟨final, turns, at', loop⟩

/-- An upload of one packet of one byte, from the start of the server to the end of file. -/
theorem tcp_total_told_one_byte :
    let u : TcpUploadArgs := ⟨1, 1⟩
    let m := tcpTest u 1000 uploader
    let turn (ret : Int32) (ready : Fin tcpSockIdMax) : ServerTurn TcpOutcome :=
      ⟨false, true, ⟨ret, fun i => ⟨false, false, i = ready⟩, uploader, 5, 5⟩⟩
    let server (ready : Fin tcpSockIdMax) (rets : List Int32) :
        List (TcpUploadAnswer ⊕ ServerTurn TcpOutcome) := rets.map fun ret => .inr (turn ret ready)
    let steps := server 0 [3, 0, 0, 4, 0, 0] ++
      [.inl ⟨1, 0, 1⟩, .inl ⟨0, 0, 1⟩, .inl ⟨0, 0, 1⟩] ++
      server 0 (1 :: List.replicate 6 5) ++ server 2 (List.replicate 7 1) ++ server 2 [1, 0, 0]
    let s := (m.run (u.start TcpServer.boot) steps).2.getD (u.start TcpServer.boot)
    TotalTold u s 0 { Results.zero with totalLen := 1 } := by
  intro u m turn server steps s
  have run : m.Reaches (u.start TcpServer.boot) steps
      (m.run (u.start TcpServer.boot) steps).1 s :=
    m.reaches_of_isSome _ _ (by decide +kernel)
  have past := (Machine.reaches_nil (tcpReceiver 1000 true) bootRow TcpServer.boot.row []).mpr
    ⟨rfl, rfl⟩
  have keeps : m.Along (NetworkKeeps 1000 uploader) [] (u.start TcpServer.boot) steps := by
    decide +kernel
  have delivers : Delivers 1000 uploader s (turn 0 0) := by decide +kernel
  have call : (⟨some uploader, 0, 5, 5⟩ : TcpArrival) ∈
      calls (tcpServerSession 1000 false true s.server (turn 0 0).outcome).1 := by
    decide +kernel
  have finished : .out (.sessionCb (.finished { Results.zero with totalLen := 1 })) ∈
      (tcpServerSession 1000 false true s.server (turn 0 0).outcome).1 := by
    decide +kernel
  exact tcp_total_told u 1000 uploader past (by decide) run keeps delivers call rfl finished

end Zperf
