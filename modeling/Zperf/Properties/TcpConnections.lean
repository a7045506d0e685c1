import Mathlib.Data.Fintype.Card
import Zperf.Properties.SocketOwnership
import Zperf.Properties.TcpSession

/-!
The connections of the TCP receiver against its sessions.

Every ongoing session belongs to the address of a connection that is open: the end of
file ends the session and closes the connection in one step. There is one entry for a
connection for each slot, so an open connection without a session finds a free slot.
-/

namespace Zperf

open Base

/-- `lwip_poll` reports nothing on an entry that holds no socket. -/
def SkipsFree (s : TcpServer) (r : TcpOutcome) : Prop :=
  s.pc = .poll → ∀ i, s.fd i < 0 → r.revents i = .zero

instance (s : TcpServer) (r : TcpOutcome) : Decidable (SkipsFree s r) :=
  inferInstanceAs (Decidable (s.pc = .poll → _))

/-- Every poll of a run does so. -/
def PollSkips (_ : List (ServerTurn TcpOutcome)) (s : TcpServer) (a : ServerTurn TcpOutcome) :
    Prop :=
  SkipsFree s a.outcome

instance (past : List (ServerTurn TcpOutcome)) (s : TcpServer) (a : ServerTurn TcpOutcome) :
    Decidable (PollSkips past s a) :=
  inferInstanceAs (Decidable (SkipsFree s a.outcome))

/-- Entry `i` holds the socket of a connection. -/
def TcpServer.Connected (s : TcpServer) (i : Fin tcpSockIdMax) : Prop :=
  TcpServer.isListener i = false ∧ 0 ≤ s.fd i

/-- The tables of a session that has not returned. -/
structure Connections (s : TcpServer) : Prop where
  named : ∀ i, s.Connected i → ∃ p, s.sockAddr i = some p
  owned : ∀ j, (s.row j).state = .ongoing → ∃ i, s.Connected i ∧ (s.row j).key = s.sockAddr i
  scanned : ∀ k, s.pc = .entry k → ∀ i, k ≤ i → s.fd i < 0 → s.revents i = .zero

/-- The rows and, before the session returns, its tables. -/
structure TcpServerOk (s : TcpServer) : Prop where
  row : RowOk s.row
  connections : s.pc ≠ .returned → Connections s

/-- A connection that is open finds a session: the others cannot fill the table. -/
theorem Connections.finds {s : TcpServer} (h : Connections s) (ok : RowOk s.row)
    {i : Fin tcpSockIdMax} (connected : s.Connected i) {p : Peer} (addr : s.sockAddr i = some p) :
    ¬ sessionReading.Refuses s.row p := by
  intro refused
  have busy (j : Fin sessionMax) : (s.row j).state = .ongoing := by
    obtain ⟨st, hst⟩ := Option.isSome_iff_exists.mp (refused.2 j)
    exact (Session.open_eq_some.mp hst).1
  choose entry holds using fun j => h.owned j (busy j)
  have keys (j : Fin sessionMax) : ∃ q, (s.row j).key = some q := by
    obtain ⟨q, hq⟩ := h.named _ (holds j).1
    exact ⟨q, (holds j).2.trans hq⟩
  have injective : Function.Injective entry := by
    intro j k same
    obtain ⟨q, hq⟩ := keys j
    apply ok.wellKeyed.unique j k q hq
    have there := (holds k).2
    rw [← same, ← (holds j).2, hq] at there
    exact there
  -- neither a listener nor entry `i` is the entry of a session
  have among (j : Fin sessionMax) :
      entry j ∈ (Finset.univ.filter fun e => TcpServer.isListener e = false).erase i := by
    rw [Finset.mem_erase]
    refine ⟨?_, by simpa using (holds j).1.1⟩
    intro same
    apply refused.1 j
    exact (holds j).2.trans (same ▸ addr)
  have few : ((Finset.univ.filter fun e => TcpServer.isListener e = false).erase i).card < 4 := by
    have member : i ∈ Finset.univ.filter fun e => TcpServer.isListener e = false := by
      simpa using connected.1
    rw [Finset.card_erase_of_mem member]
    decide
  have many : Fintype.card (Fin sessionMax) ≤
      ((Finset.univ.filter fun e => TcpServer.isListener e = false).erase i).card := by
    rw [← Finset.card_univ]
    exact Finset.card_le_card_of_injOn entry (fun j _ => among j) injective.injOn
  rw [Fintype.card_fin] at many
  exact absurd few (Nat.not_lt.mpr many)

theorem TcpServerOk.enter {s : TcpServer} (ok : RowOk s.row)
    (idle : ∀ j, (s.row j).state ≠ .ongoing) : TcpServerOk s.enter where
  row := ok
  connections _ :=
    { named := fun i connected => absurd connected.2 (by simp only [TcpServer.enter]; decide)
      owned := fun j ongoing => absurd ongoing (idle j)
      scanned := fun k scan => by simp [TcpServer.enter] at scan }

theorem TcpServerOk.of_cleanup {s : TcpServer} (ok : RowOk s.row) : TcpServerOk s.cleanup.2 where
  row := ok
  connections running := absurd rfl running

theorem TcpServerOk.of_error {s : TcpServer} (cb : Bool) (ok : RowOk s.row) :
    TcpServerOk (s.error cb).2 := TcpServerOk.of_cleanup ok

/-- A step to another place with no change of the tables but, perhaps, of a listener. -/
theorem Connections.of_same {s t : TcpServer} (h : Connections s)
    (fd : ∀ i, TcpServer.isListener i = false → t.fd i = s.fd i) (addr : t.sockAddr = s.sockAddr)
    (row : t.row = s.row)
    (scanned : ∀ k, t.pc = .entry k → ∀ i, k ≤ i → t.fd i < 0 → t.revents i = .zero) :
    Connections t := by
  have connected (i : Fin tcpSockIdMax) : t.Connected i ↔ s.Connected i := by
    unfold TcpServer.Connected
    constructor
    · intro here
      exact ⟨here.1, fd i here.1 ▸ here.2⟩
    · intro here
      exact ⟨here.1, (fd i here.1).symm ▸ here.2⟩
  refine ⟨?named, ?owned, scanned⟩
  case named =>
    intro i here
    rw [addr]
    exact h.named i ((connected i).mp here)
  case owned =>
    intro j ongoing
    rw [row] at ongoing
    obtain ⟨i, here, key⟩ := h.owned j ongoing
    exact ⟨i, (connected i).mpr here, by rw [row, addr, key]⟩

theorem nextEntry_eq {i k : Fin tcpSockIdMax} (h : TcpServer.nextEntry i = .entry k) :
    k.val = i.val + 1 := by
  unfold TcpServer.nextEntry at h
  split at h
  · obtain rfl := TcpPc.entry.inj h
    rfl
  · simp at h

theorem TcpServerOk.accept {s : TcpServer} (ok : TcpServerOk s) (cb : Bool)
    {i : Fin tcpSockIdMax} (pc : s.pc = .entry i) (r : TcpOutcome) :
    TcpServerOk (s.accept cb i r).2 := by
  have h := ok.connections (by simp [pc])
  unfold TcpServer.accept
  by_cases failed : r.ret < 0
  · rw [if_pos failed]
    exact TcpServerOk.of_error cb ok.row
  · rw [if_neg failed]
    cases free : s.freeEntry with
    | none =>
        refine ⟨ok.row, fun _ => h.of_same (fun _ _ => rfl) rfl rfl ?_⟩
        intro k next j later empty
        have after := nextEntry_eq next
        exact h.scanned i pc j (by omega) empty
    | some e =>
        have empty := (freeEntry_free free).2
        have other {j : Fin tcpSockIdMax} (connected : s.Connected j) : j ≠ e := by
          rintro rfl
          exact Int32.not_lt.mpr connected.2 empty
        refine ⟨ok.row, fun _ => ⟨?_, ?_, ?_⟩⟩
        · intro j connected
          by_cases own : j = e
          · exact ⟨r.addr, by rw [own]; exact Function.update_self ..⟩
          · have there := connected.2
            dsimp only at there ⊢
            rw [Function.update_of_ne own] at there ⊢
            exact h.named j ⟨connected.1, there⟩
        · intro j ongoing
          obtain ⟨k, connected, key⟩ := h.owned j ongoing
          have own := other connected
          refine ⟨k, ⟨connected.1, ?_⟩, ?_⟩
          · dsimp only
            rw [Function.update_of_ne own]
            exact connected.2
          · dsimp only
            rw [Function.update_of_ne own]
            exact key
        · intro k next j later vacant
          have after := nextEntry_eq next
          have own : j ≠ e := by
            rintro rfl
            dsimp only at vacant
            rw [Function.update_self] at vacant
            exact failed vacant
          dsimp only at vacant
          rw [Function.update_of_ne own] at vacant
          exact h.scanned i pc j (by omega) vacant

theorem TcpServerOk.recv {s : TcpServer} (ok : TcpServerOk s) (hz : UInt64) (cb : Bool)
    {i : Fin tcpSockIdMax} (pc : s.pc = .entry i) (connected : s.Connected i) (r : TcpOutcome) :
    TcpServerOk (s.recv hz cb i r).2 := by
  have h := ok.connections (by simp [pc])
  obtain ⟨p, addr⟩ := h.named i connected
  have arrival : (s.arrival i r).addr = some p := addr
  have row := ok.row.tcpReceived hz cb arrival
  have ongoing {j : Fin sessionMax} := tcpReceived_ongoing hz cb ok.row arrival (j := j)
  unfold TcpServer.recv
  dsimp only
  split
  · rename_i eof
    have none : (s.arrival i r).datalen = 0 := by
      rw [TcpServer.arrival, eof]
      rfl
    refine ⟨row, fun _ => ⟨?_, ?_, ?_⟩⟩
    · intro e there
      have own : e ≠ i := by
        rintro rfl
        have closed := there.2
        simp only [TcpServer.closeEntry, TcpServer.deliver, Function.update_self] at closed
        exact absurd closed (by decide)
      have still := there.2
      simp only [TcpServer.closeEntry, TcpServer.deliver, Function.update_of_ne own] at still ⊢
      exact h.named e ⟨there.1, still⟩
    · intro j busy
      cases ongoing busy with
      | inl own => exact absurd none own.2
      | inr others =>
          have before : (s.row j).state = .ongoing := others.1 ▸ busy
          obtain ⟨e, there, key⟩ := h.owned j before
          have own : e ≠ i := by
            rintro rfl
            exact others.2 (key.trans addr)
          refine ⟨e, ⟨there.1, ?_⟩, ?_⟩
          · simp only [TcpServer.closeEntry, TcpServer.deliver, Function.update_of_ne own]
            exact there.2
          · simp only [TcpServer.closeEntry, TcpServer.deliver, Function.update_of_ne own]
            rw [others.1, key]
    · intro k next j later vacant
      have after := nextEntry_eq next
      have own : j ≠ i := by
        rintro rfl
        omega
      simp only [TcpServer.closeEntry, TcpServer.deliver, Function.update_of_ne own] at vacant
      exact h.scanned i pc j (by omega) vacant
  · refine ⟨row, fun _ => ⟨h.named, ?_, ?_⟩⟩
    · intro j busy
      cases ongoing busy with
      | inl own => exact ⟨i, connected, own.1.trans addr.symm⟩
      | inr others =>
          have before : (s.row j).state = .ongoing := others.1 ▸ busy
          obtain ⟨e, there, key⟩ := h.owned j before
          exact ⟨e, there, (congrArg Session.key others.1).trans key⟩
    · intro k next j later vacant
      have after := nextEntry_eq next
      exact h.scanned i pc j (by omega) vacant

/-- An entry with something to read is that of an open connection. -/
theorem Connections.connected {s : TcpServer} (h : Connections s) {i : Fin tcpSockIdMax}
    (pc : s.pc = .entry i) (readable : (s.revents i).pollin = true)
    (data : TcpServer.isListener i = false) : s.Connected i := by
  refine ⟨data, Int32.not_lt.mp fun empty => ?_⟩
  rw [h.scanned i pc i (Nat.le_refl _) empty] at readable
  exact Bool.noConfusion readable

theorem TcpServerOk.step {s : TcpServer} (ok : TcpServerOk s) (hz : UInt64) (stop cb : Bool)
    {r : TcpOutcome} (polls : SkipsFree s r) :
    TcpServerOk (tcpServerSession hz stop cb s r).2 := by
  unfold tcpServerSession
  cases pc : s.pc with
  | socket i =>
      have h := ok.connections (by simp [pc])
      dsimp only
      split
      · exact TcpServerOk.of_error cb ok.row
      · refine ⟨ok.row, fun _ => h.of_same ?_ rfl rfl (by simp)⟩
        intro j data
        have ne : j ≠ TcpServer.listener i := by
          rintro rfl
          have small : (TcpServer.listener i).val < 2 := i.isLt
          simp [TcpServer.isListener, small] at data
        exact Function.update_of_ne ne _ _
  | bind i =>
      have h := ok.connections (by simp [pc])
      dsimp only
      split
      · exact TcpServerOk.of_error cb ok.row
      · exact ⟨ok.row, fun _ => h.of_same (fun _ _ => rfl) rfl rfl (by simp)⟩
  | listen i =>
      have h := ok.connections (by simp [pc])
      dsimp only
      split
      · exact TcpServerOk.of_error cb ok.row
      · refine ⟨ok.row, fun _ => h.of_same (fun _ _ => rfl) rfl rfl ?_⟩
        intro k scan
        split at scan <;> simp at scan
  | poll =>
      have h := ok.connections (by simp [pc])
      dsimp only
      split
      · exact TcpServerOk.of_error cb ok.row
      · split
        · exact TcpServerOk.of_cleanup ok.row
        · split
          · exact ok
          · exact ⟨ok.row, fun _ => h.of_same (fun _ _ => rfl) rfl rfl
              fun k _ i _ empty => polls pc i empty⟩
  | entry i =>
      have h := ok.connections (by simp [pc])
      dsimp only
      split
      · exact TcpServerOk.of_error cb ok.row
      · split
        · refine ⟨ok.row, fun _ => h.of_same (fun _ _ => rfl) rfl rfl ?_⟩
          intro k next j later empty
          have after := nextEntry_eq next
          exact h.scanned i pc j (by omega) empty
        · rename_i readable
          rw [Decidable.not_not] at readable
          split
          · exact ok.accept cb pc r
          · rename_i data
            rw [Bool.not_eq_true] at data
            exact ok.recv hz cb pc (h.connected pc readable data) r
  | returned => exact ok

theorem calls_append {δ : Type} (events events' : List (ServerEvent δ)) :
    calls (events ++ events') = calls events ++ calls events' :=
  List.filterMap_append

theorem calls_out {δ : Type} (events : List Event) :
    calls (events.map (ServerEvent.out (δ := δ))) = [] := by
  simp [calls, List.filterMap_map, Function.comp_def, ServerEvent.call]

theorem calls_closeAll {δ : Type} {n : Nat} (fd : Fin n → Int32) :
    calls (closeAll fd : List (ServerEvent δ)) = [] := by
  simp [calls, closeAll, List.filterMap_map, Function.comp_def, ServerEvent.call]

theorem mem_calls {δ : Type} {events : List (ServerEvent δ)} {d : δ}
    (h : .received d ∈ events) : d ∈ calls events :=
  List.mem_filterMap.mpr ⟨_, h, rfl⟩

theorem calls_error (cb : Bool) (s : TcpServer) : calls (s.error cb).1 = [] := by
  rw [TcpServer.error, calls_append, sessionErrorReport, calls_out, TcpServer.cleanup,
    calls_closeAll, List.nil_append]

theorem calls_recv (hz : UInt64) (cb : Bool) (s : TcpServer) (i : Fin tcpSockIdMax)
    (r : TcpOutcome) : calls (s.recv hz cb i r).1 = [s.arrival i r] ∧
      (s.recv hz cb i r).2.row = (tcpReceived hz cb s.row (s.arrival i r)).2 := by
  have report : calls (TcpServer.recvReport cb r) = [] := by
    unfold TcpServer.recvReport
    split
    · exact calls_out _
    · rfl
  have delivered : calls (s.deliver hz cb (s.arrival i r)).1 = [s.arrival i r] :=
    congrArg (List.cons _) (calls_out _)
  unfold TcpServer.recv
  dsimp only
  split
  · rw [calls_append, calls_append, report, delivered]
    exact ⟨rfl, rfl⟩
  · rw [calls_append, report, delivered]
    exact ⟨rfl, rfl⟩

/-- The one step that calls `tcp_received`, and that alone touches the row. -/
theorem tcpServerSession_calls (hz : UInt64) (stop cb : Bool) (s : TcpServer) (r : TcpOutcome) :
    (calls (tcpServerSession hz stop cb s r).1 = [] ∧
      (tcpServerSession hz stop cb s r).2.row = s.row) ∨
    ∃ i, s.pc = .entry i ∧ (s.revents i).pollin = true ∧ TcpServer.isListener i = false ∧
      calls (tcpServerSession hz stop cb s r).1 = [s.arrival i r] ∧
      (tcpServerSession hz stop cb s r).2.row =
        (tcpReceived hz cb s.row (s.arrival i r)).2 := by
  unfold tcpServerSession
  cases s.pc with
  | socket i =>
      dsimp only
      split
      · exact .inl ⟨calls_error .., rfl⟩
      · exact .inl ⟨rfl, rfl⟩
  | bind i | listen i =>
      dsimp only
      split
      · exact .inl ⟨calls_error .., rfl⟩
      · exact .inl ⟨rfl, rfl⟩
  | poll =>
      dsimp only
      split
      · exact .inl ⟨calls_error .., rfl⟩
      · split
        · exact .inl ⟨calls_closeAll _, rfl⟩
        · split
          · exact .inl ⟨rfl, rfl⟩
          · exact .inl ⟨rfl, rfl⟩
  | entry i =>
      dsimp only
      split
      · exact .inl ⟨calls_error .., rfl⟩
      · split
        · exact .inl ⟨rfl, rfl⟩
        · rename_i readable
          rw [Decidable.not_not] at readable
          split
          · unfold TcpServer.accept
            split
            · exact .inl ⟨calls_error .., rfl⟩
            · split
              · exact .inl ⟨rfl, rfl⟩
              · exact .inl ⟨rfl, rfl⟩
          · rename_i data
            rw [Bool.not_eq_true] at data
            exact .inr ⟨i, rfl, readable, data, calls_recv hz cb s i r⟩
  | returned => exact .inl ⟨rfl, rfl⟩

/-- What a call of `tcp_received` does for the open connection `i`: it finds a session,
and adds the bytes to it and to no other. -/
structure BytesCounted (s : TcpServer) (r : TcpOutcome) (d : TcpArrival) (row : Row)
    (i : Fin tcpSockIdMax) (j : Fin sessionMax) : Prop where
  connected : s.Connected i
  call : d = s.arrival i r
  found : (getSession s.row d.addr).1 = some j
  key : (row j).key = d.addr
  length : (row j).length =
    (if (s.row j).state = .ongoing then (s.row j).length else 0) + UInt64.ofNat d.datalen.toNat
  others : ∀ k, k ≠ j → row k = s.row k

theorem Connections.counts {s : TcpServer} (h : Connections s) (ok : RowOk s.row) (hz : UInt64)
    (cb : Bool) {i : Fin tcpSockIdMax} (connected : s.Connected i) (r : TcpOutcome) :
    ∃ j, BytesCounted s r (s.arrival i r) (tcpReceived hz cb s.row (s.arrival i r)).2 i j := by
  obtain ⟨p, addr⟩ := h.named i connected
  have arrival : (s.arrival i r).addr = some p := addr
  cases tcpReceived_cases hz cb ok.settled arrival with
  | inl refused => exact absurd refused.1 (h.finds ok connected addr)
  | inr found =>
      obtain ⟨j, s', grant, found, slot, eq⟩ := found
      rw [eq]
      refine ⟨j, connected, rfl, found, ?_, ?_, ?_⟩
      · rw [Function.update_self, slot.key, Session.key_assign, arrival]
      · rw [Function.update_self, slot.length, Session.state_assign]
        rw [show ((s.row j).assign (some p)).length = (s.row j).length from
          congrArg Stats.length (Session.stats_assign (s.row j) (some p))]
      · intro k other
        exact Function.update_of_ne other _ _

end Zperf
