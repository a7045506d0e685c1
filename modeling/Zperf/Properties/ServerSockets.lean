import Zperf.Properties.ServerRestart
import Zperf.Properties.SocketOwnership

/-!
The sockets of a server in all of its runs.

A run of the session begins with an empty table, when every socket of the runs before it has
been closed. The UDP server owns its two sockets as the TCP server owns its listeners.
-/

namespace Zperf

open Base

/-! ### The UDP server's own run -/

/-- The sockets in the entries of `fds`. -/
def UdpServer.sockets (s : UdpServer) : Fin udpSockIdMax → Option Int32 :=
  openSocket ∘ s.fd

/-- Both sockets are the server's own. -/
def udpEntryKind (_ : Fin udpSockIdMax) : SocketKind := .listener

/-- The entries for which no socket has been asked yet. -/
def UdpPc.unset : UdpPc → Fin udpSockIdMax → Prop
  | .socket i, j => i.val ≤ j.val
  | .bind i, j => i.val < j.val
  | .poll, _ | .entry _, _ | .returned, _ => False

/-- Every socket that was obtained has been closed once. -/
def NoneOpen {δ : Type} (log : List (ServerEvent δ)) : Prop :=
  ∀ fd, leaseOf fd (leases log) = some none

/-- The sockets are those in the entries, until the session returns. -/
structure UdpSocketsOwned (s : UdpServer) (log : List (ServerEvent Arrival)) : Prop where
  table : s.pc ≠ .returned → LeaseTable udpEntryKind s.sockets (leases log)
  closed : s.pc = .returned → NoneOpen log
  unset : ∀ j, s.pc.unset j → s.fd j < 0

theorem NoneOpen.of_closeAll {δ : Type} {n : Nat} {kind : Fin n → SocketKind}
    {fd : Fin n → Int32} {log : List (ServerEvent δ)}
    (h : LeaseTable kind (openSocket ∘ fd) (leases log)) : NoneOpen (log ++ closeAll fd) := by
  intro r
  rw [leases_append, leases_closeAll]
  apply (h.dropAll _ (List.nodup_finRange n)).free
  intro i
  simp

namespace UdpSocketsOwned

variable {hz : UInt64} {stop cb : Bool} {s t : UdpServer} {r : UdpOutcome}
  {log events : List (ServerEvent Arrival)}

theorem enter (s : UdpServer) (closed : NoneOpen log) : UdpSocketsOwned s.enter log where
  table _ := LeaseTable.restart (fun _ => rfl) closed
  closed h := by simp [UdpServer.enter] at h
  unset j _ := by
    simp only [UdpServer.enter]
    decide

theorem cleanup (h : LeaseTable udpEntryKind s.sockets (leases log))
    (step : s.cleanup = (events, some t)) : UdpSocketsOwned t (log ++ events) := by
  obtain ⟨rfl, rfl⟩ := goesOn_inj step
  exact ⟨fun runs => absurd rfl runs, fun _ => NoneOpen.of_closeAll h, fun _ => False.elim⟩

theorem error (h : LeaseTable udpEntryKind s.sockets (leases log))
    (step : s.error cb = (events, some t)) : UdpSocketsOwned t (log ++ events) := by
  obtain ⟨rfl, rfl⟩ := goesOn_inj step
  have report : leases (log ++ sessionErrorReport cb) = leases log := by
    rw [leases_append, sessionErrorReport, leases_out, List.append_nil]
  rw [UdpServer.cleanup, ← List.append_assoc]
  exact cleanup (s := s) (report ▸ h) rfl

/-- A step without sockets that goes on to where none is asked for. -/
theorem scan (h : LeaseTable udpEntryKind t.sockets (leases log)) (quiet : leases events = [])
    (goesOn : t.pc ≠ .returned) (unset : ∀ j, t.pc.unset j → t.fd j < 0) :
    UdpSocketsOwned t (log ++ events) := by
  refine ⟨fun _ => ?_, fun returned => absurd returned goesOn, unset⟩
  rw [leases_append, quiet, List.append_nil]
  exact h

theorem nextEntry_scans (i : Fin udpSockIdMax) :
    UdpServer.nextEntry i ≠ .returned ∧ ∀ j, ¬ (UdpServer.nextEntry i).unset j := by
  unfold UdpServer.nextEntry
  split <;> simp [UdpPc.unset]

theorem socket {i : Fin udpSockIdMax} (h : UdpSocketsOwned s log) (pc : s.pc = .socket i)
    (step : udpServerSession hz stop cb s r = (events, some t))
    (fresh : HandedOutFree (leases (log ++ events))) : UdpSocketsOwned t (log ++ events) := by
  have table := h.table (by simp [pc])
  have empty : s.fd i < 0 := h.unset i (by rw [pc]; exact Nat.le_refl _)
  have entries (fd : Int32) : openSocket ∘ Function.update s.fd i fd =
      Function.update s.sockets i (openSocket fd) := Function.comp_update _ _ _ _
  unfold udpServerSession at step
  rw [pc] at step
  dsimp only at step
  split at step
  · rename_i failed
    apply error _ step
    have same : none = s.sockets i := (openSocket_neg empty).symm
    rw [UdpServer.sockets, entries, openSocket_neg failed, same, Function.update_eq_self]
    exact table
  · rename_i made
    obtain ⟨rfl, rfl⟩ := goesOn_inj step
    have taken : leases (log ++ [.socket r.ret]) =
        leases log ++ [(r.ret, .take (udpEntryKind i))] := leases_append _ _
    refine ⟨?table, ?closed, ?unset⟩
    case table =>
      intro _
      rw [taken] at fresh ⊢
      rw [UdpServer.sockets, entries, openSocket_of_not_neg made]
      exact table.take (openSocket_neg empty) fresh
    case closed =>
      intro returned
      simp at returned
    case unset =>
      intro j later
      have ne : j ≠ i := by
        rintro rfl
        exact Nat.lt_irrefl _ later
      dsimp only
      rw [Function.update_of_ne ne]
      exact h.unset j (by rw [pc]; exact Nat.le_of_lt later)

theorem step (h : UdpSocketsOwned s log)
    (step : udpServerSession hz stop cb s r = (events, some t))
    (fresh : HandedOutFree (leases (log ++ events))) : UdpSocketsOwned t (log ++ events) := by
  cases pc : s.pc with
  | socket i => exact h.socket pc step fresh
  | bind i =>
      have table := h.table (by simp [pc])
      unfold udpServerSession at step
      rw [pc] at step
      dsimp only at step
      split at step
      · exact error table step
      · obtain ⟨rfl, rfl⟩ := goesOn_inj step
        refine scan table rfl (by dsimp only; split <;> simp) fun j later => h.unset j ?_
        rw [pc]
        dsimp only at later
        split at later
        · rename_i first
          subst first
          exact later
        · exact later.elim
  | poll =>
      have table := h.table (by simp [pc])
      unfold udpServerSession at step
      rw [pc] at step
      dsimp only at step
      split at step
      · exact error table step
      · split at step
        · exact cleanup table step
        · split at step
          · obtain ⟨rfl, rfl⟩ := goesOn_inj step
            exact scan table rfl (by simp [pc]) h.unset
          · obtain ⟨rfl, rfl⟩ := goesOn_inj step
            exact scan table rfl (by simp) fun _ => False.elim
  | entry i =>
      have table := h.table (by simp [pc])
      obtain ⟨goesOn, none⟩ := nextEntry_scans i
      unfold udpServerSession at step
      rw [pc] at step
      dsimp only at step
      split at step
      · exact error table step
      · split at step
        · obtain ⟨rfl, rfl⟩ := goesOn_inj step
          exact scan table rfl goesOn fun j later => absurd later (none j)
        · unfold UdpServer.recvfrom at step
          split at step
          · exact error table step
          · obtain ⟨rfl, next⟩ := Prod.mk.inj step
            obtain ⟨row, -, rfl⟩ := Option.map_eq_some_iff.mp next
            exact scan table (leases_out _) goesOn fun j later => absurd later (none j)
  | returned =>
      unfold udpServerSession at step
      rw [pc] at step
      obtain ⟨rfl, rfl⟩ := goesOn_inj step
      rw [List.append_nil]
      exact h

end UdpSocketsOwned

theorem SocketsOwned.reenter (s : TcpServer) {log : List (ServerEvent TcpArrival)}
    (closed : NoneOpen log) : SocketsOwned s.enter log where
  table _ := LeaseTable.restart (fun _ => rfl) closed
  closed h := by simp [TcpServer.enter] at h
  unset j _ := by
    simp only [TcpServer.enter]
    decide

/-! ### All runs -/

section Rule

variable {σ α δ : Type}

def ControlEvent.serverEvent : ControlEvent δ → Option (ServerEvent δ)
  | .session e => some e
  | .accepted _ | .given | .refused | .stopped | .begun | .cleared => none

/-- What the sessions of all runs have done. -/
def serverEvents (log : List (ControlEvent δ)) : List (ServerEvent δ) :=
  log.filterMap ControlEvent.serverEvent

theorem serverEvents_append (log log' : List (ControlEvent δ)) :
    serverEvents (log ++ log') = serverEvents log ++ serverEvents log' :=
  List.filterMap_append

theorem serverEvents_session (events : List (ServerEvent δ)) :
    serverEvents (events.map ControlEvent.session) = events := by
  simp [serverEvents, List.filterMap_map, Function.comp_def, ControlEvent.serverEvent]

/-- What a session keeps of its sockets, from a state where all have been closed to one where
all have been closed again. -/
structure SocketRule (S : ServerSession σ α δ) (Owned : σ → List (ServerEvent δ) → Prop) :
    Prop where
  enter : ∀ s log, NoneOpen log → Owned (S.enter s) log
  step : ∀ s log stop cb r events t, Owned s log → S.step stop cb s r = (events, some t) →
    HandedOutFree (leases (log ++ events)) → Owned t (log ++ events)
  returned : ∀ s log, Owned s log → S.returned s = true → NoneOpen log

/-- Between the runs nothing is open; in a run the session keeps its sockets. -/
structure SocketsKept (Owned : σ → List (ServerEvent δ) → Prop) (s : ServerControl σ)
    (log : List (ServerEvent δ)) : Prop where
  during : s.serving = true → Owned s.session log
  between : s.serving = false → NoneOpen log

theorem SocketsKept.of_frame {Owned : σ → List (ServerEvent δ) → Prop} {s t : ServerControl σ}
    {log events : List (ServerEvent δ)} (h : SocketsKept Owned s log) (quiet : events = [])
    (serving : t.serving = s.serving) (session : t.session = s.session) :
    SocketsKept Owned t (log ++ events) := by
  rw [quiet, List.append_nil]
  exact ⟨by rw [serving, session]; exact h.during, by rw [serving]; exact h.between⟩

theorem SocketRule.kept {S : ServerSession σ α δ} {Owned : σ → List (ServerEvent δ) → Prop}
    (rule : SocketRule S Owned) {s t : ServerControl σ} {a : ControlStep α}
    {log : List (ServerEvent δ)} {out : List (ControlEvent δ)} (h : SocketsKept Owned s log)
    (step : (serverControl S).step s a = (out, some t))
    (fresh : HandedOutFree (leases (log ++ serverEvents out))) :
    SocketsKept Owned t (log ++ serverEvents out) := by
  cases a with
  | call c =>
      obtain ⟨rfl, rfl⟩ := goesOn_inj step
      obtain ⟨serving, session, -⟩ := call_frame (δ := δ) s c []
      refine h.of_frame ?_ serving session
      unfold beginCall
      split
      · split <;> rfl
      · split <;> rfl
      · rfl
  | controller =>
      obtain ⟨rfl, rfl⟩ := goesOn_inj step
      obtain ⟨serving, session, -⟩ := controllerStep_frame (δ := δ) s []
      refine h.of_frame ?_ serving session
      unfold controllerStep
      cases s.controller <;> rfl
  | thread outcome =>
      cases receiverThread_step step with
      | blocked waiting none => exact h.of_frame rfl rfl rfl
      | begun waiting some =>
          rw [show serverEvents [(.begun : ControlEvent δ)] = [] from rfl, List.append_nil]
          exact ⟨fun _ => rule.enter _ _ (h.between waiting), fun idle => Bool.noConfusion idle⟩
      | cleared serving returned =>
          rw [show serverEvents [(.cleared : ControlEvent δ)] = [] from rfl, List.append_nil]
          exact ⟨fun busy => Bool.noConfusion busy,
            fun _ => rule.returned _ _ (h.during serving) returned⟩
      | session serving returned events session moved =>
          rw [serverEvents_session] at fresh ⊢
          refine ⟨fun _ => rule.step _ _ _ _ _ _ _ (h.during serving) moved fresh, ?_⟩
          intro idle
          exact Bool.noConfusion (serving.symm.trans idle)

theorem SocketRule.reaches {S : ServerSession σ α δ} {Owned : σ → List (ServerEvent δ) → Prop}
    (rule : SocketRule S Owned) (session : σ) {as : List (ControlStep α)}
    {log : List (ControlEvent δ)} {s : ServerControl σ}
    (run : (serverControl S).Reaches (ServerControl.init session) as log s)
    (fresh : HandedOutFree (leases (serverEvents log))) :
    SocketsKept Owned s (serverEvents log) := by
  have kept := @Machine.Reaches.invariant _ _ _ (serverControl S)
    (fun _ log s => HandedOutFree (leases (serverEvents log)) →
      SocketsKept Owned s (serverEvents log))
    (fun _ log s a out t before step fresh => by
      rw [serverEvents_append] at fresh ⊢
      have sofar := fresh
      rw [leases_append] at sofar
      exact rule.kept (before sofar.of_append) step fresh)
    (ServerControl.init session) s [] as [] log
    (fun _ => ⟨fun busy => Bool.noConfusion busy, fun _ _ => rfl⟩) run
  exact kept fresh

end Rule

theorem udpSocketRule (hz : UInt64) : SocketRule (udpServer hz) UdpSocketsOwned where
  enter s _ closed := UdpSocketsOwned.enter s closed
  step _ _ _ _ _ _ _ owned step fresh := owned.step step fresh
  returned s _ owned returned := owned.closed (by simpa [udpServer] using returned)

theorem tcpSocketRule (hz : UInt64) : SocketRule (tcpServer hz) SocketsOwned where
  enter s _ closed := SocketsOwned.reenter s closed
  step s log stop cb r events t owned step fresh := by
    obtain ⟨rfl, rfl⟩ := goesOn_inj step
    exact owned.step fresh
  returned s _ owned returned := owned.closed (by simpa [tcpServer] using returned)

/-- Of both servers, in every run after run: while a session runs, each socket obtained in any
run and not yet closed is in one entry of its table; whenever none runs, each socket ever
obtained has been closed once. -/
theorem server_sockets_owned (hz : UInt64) :
    (∀ as log s, (serverControl (udpServer hz)).Reaches (ServerControl.init UdpServer.boot)
        as log s → HandedOutFree (leases (serverEvents log)) →
      (s.serving = true ∧ s.session.pc ≠ .returned →
        LeaseTable udpEntryKind s.session.sockets (leases (serverEvents log))) ∧
      (s.serving = false ∨ s.session.pc = .returned → NoneOpen (serverEvents log))) ∧
    (∀ as log s, (serverControl (tcpServer hz)).Reaches (ServerControl.init TcpServer.boot)
        as log s → HandedOutFree (leases (serverEvents log)) →
      (s.serving = true ∧ s.session.pc ≠ .returned →
        LeaseTable entryKind s.session.sockets (leases (serverEvents log))) ∧
      (s.serving = false ∨ s.session.pc = .returned → NoneOpen (serverEvents log))) := by
  constructor
  · intro as log s run fresh
    have kept := (udpSocketRule hz).reaches UdpServer.boot run fresh
    refine ⟨fun busy => (kept.during busy.1).table busy.2, ?_⟩
    intro done
    cases serving : s.serving with
    | false => exact kept.between serving
    | true => exact (kept.during serving).closed (by simpa [serving] using done)
  · intro as log s run fresh
    have kept := (tcpSocketRule hz).reaches TcpServer.boot run fresh
    refine ⟨fun busy => (kept.during busy.1).table busy.2, ?_⟩
    intro done
    cases serving : s.serving with
    | false => exact kept.between serving
    | true => exact (kept.during serving).closed (by simpa [serving] using done)

/-- A server that is started twice, and obtains the same descriptors again; and one that
accepts a connection. -/
theorem server_sockets_owned_reused :
    (∃ log s, (serverControl (udpServer 1000)).Reaches (ServerControl.init UdpServer.boot)
        (udpWholeRun [udpHeader 1] ++ udpWholeRun [udpHeader 2]) log s ∧
      NoneOpen (serverEvents log)) ∧
    (∃ log s, (serverControl (tcpServer 1000)).Reaches (ServerControl.init TcpServer.boot)
        tcpWholeRun log s ∧ NoneOpen (serverEvents log)) := by
  constructor
  · have run := (serverControl (udpServer 1000)).reaches_of_isSome
      (ServerControl.init UdpServer.boot)
      (udpWholeRun [udpHeader 1] ++ udpWholeRun [udpHeader 2]) (by decide +kernel)
    exact ⟨_, _, run, ((server_sockets_owned 1000).1 _ _ _ run (by decide +kernel)).2
      (.inl (by decide +kernel))⟩
  · have run := (serverControl (tcpServer 1000)).reaches_of_isSome
      (ServerControl.init TcpServer.boot) tcpWholeRun (by decide +kernel)
    exact ⟨_, _, run, ((server_sockets_owned 1000).2 _ _ _ run (by decide +kernel)).2
      (.inl (by decide +kernel))⟩

end Zperf
