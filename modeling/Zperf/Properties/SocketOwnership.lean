import Mathlib.Data.List.FinRange
import Zperf.Base.Lease
import Zperf.Core.TcpServer

/-!
Who holds the sockets of the TCP receiver.

A socket is a resource that the system leases to one entry of `fds`. The system is
assumed to give no descriptor that is open; each step of the session then keeps the
table of entries in step with what was obtained and closed, and `cleanup` empties it.
-/

namespace Zperf

open Base

inductive SocketKind where
  | listener
  | connection
  deriving DecidableEq, Repr

/-- The event as a lease; `close` of a negative number closes nothing. -/
def ServerEvent.lease {δ : Type} : ServerEvent δ → Option (Int32 × LeaseAct SocketKind)
  | .socket fd => some (fd, .take .listener)
  | .accept fd => some (fd, .take .connection)
  | .close fd => if 0 ≤ fd then some (fd, .drop) else none
  | .received _ | .out _ => none

def leases {δ : Type} (log : List (ServerEvent δ)) : List (Int32 × LeaseAct SocketKind) :=
  log.filterMap ServerEvent.lease

def entryKind (i : Fin tcpSockIdMax) : SocketKind :=
  if TcpServer.isListener i then .listener else .connection

def openSocket (fd : Int32) : Option Int32 := if 0 ≤ fd then some fd else none

/-- The sockets in the entries of `fds`. -/
def TcpServer.sockets (s : TcpServer) : Fin tcpSockIdMax → Option Int32 :=
  openSocket ∘ s.fd

/-- The entries for which no socket has been asked yet. -/
def TcpPc.unset : TcpPc → Fin tcpSockIdMax → Prop
  | .socket i, j => i.val ≤ j.val
  | .bind i, j | .listen i, j => i.val < j.val
  | .poll, _ | .entry _, _ | .returned, _ => False

theorem openSocket_neg {fd : Int32} (h : fd < 0) : openSocket fd = none := by
  rw [openSocket, if_neg (Int32.not_le.mpr h)]

theorem openSocket_of_not_neg {fd : Int32} (h : ¬ fd < 0) : openSocket fd = some fd := by
  rw [openSocket, if_pos (Int32.not_lt.mp h)]

section Log

variable {δ : Type}

theorem leases_append (log log' : List (ServerEvent δ)) :
    leases (log ++ log') = leases log ++ leases log' :=
  List.filterMap_append

theorem leases_out (events : List Event) : leases (events.map (ServerEvent.out (δ := δ))) = [] := by
  simp [leases, List.filterMap_map, Function.comp_def, ServerEvent.lease]

theorem leases_closeAll {n : Nat} (fd : Fin n → Int32) :
    leases (closeAll fd : List (ServerEvent δ)) =
      (List.finRange n).filterMap fun i => (openSocket (fd i)).map fun x => (x, .drop) := by
  unfold leases closeAll
  rw [List.filterMap_map, List.filterMap_filter]
  apply List.filterMap_congr
  intro i _
  by_cases h : 0 ≤ fd i <;> simp [h, openSocket, ServerEvent.lease]

end Log

/-- Every socket that was obtained has been closed once. -/
def AllClosed (log : List (ServerEvent TcpArrival)) : Prop :=
  ∀ fd, leaseOf fd (leases log) = some none

theorem AllClosed.of_cleanup {s : TcpServer} {log : List (ServerEvent TcpArrival)}
    (h : LeaseTable entryKind s.sockets (leases log)) : AllClosed (log ++ s.cleanup.1) := by
  intro fd
  rw [TcpServer.cleanup, leases_append, leases_closeAll]
  apply (h.dropAll _ (List.nodup_finRange tcpSockIdMax)).free
  intro i
  simp

theorem AllClosed.of_error {s : TcpServer} {log : List (ServerEvent TcpArrival)} (cb : Bool)
    (h : LeaseTable entryKind s.sockets (leases log)) : AllClosed (log ++ (s.error cb).1) := by
  rw [TcpServer.error, ← List.append_assoc]
  apply AllClosed.of_cleanup
  rw [leases_append, sessionErrorReport, leases_out, List.append_nil]
  exact h

/-- The sockets are those in the entries, until the session returns. -/
structure SocketsOwned (s : TcpServer) (log : List (ServerEvent TcpArrival)) : Prop where
  table : s.pc ≠ .returned → LeaseTable entryKind s.sockets (leases log)
  closed : s.pc = .returned → AllClosed log
  unset : ∀ j, s.pc.unset j → s.fd j < 0

theorem SocketsOwned.enter (s : TcpServer) : SocketsOwned s.enter [] where
  table _ := by
    apply LeaseTable.start
    intro i
    rfl
  closed h := by simp [TcpServer.enter] at h
  unset j _ := by
    simp only [TcpServer.enter]
    decide

theorem SocketsOwned.of_cleanup {s : TcpServer} {log : List (ServerEvent TcpArrival)}
    (h : LeaseTable entryKind s.sockets (leases log)) :
    SocketsOwned s.cleanup.2 (log ++ s.cleanup.1) where
  table h := absurd rfl h
  closed _ := AllClosed.of_cleanup h
  unset _ h := h.elim

theorem SocketsOwned.of_error {s : TcpServer} {log : List (ServerEvent TcpArrival)} (cb : Bool)
    (h : LeaseTable entryKind s.sockets (leases log)) :
    SocketsOwned (s.error cb).2 (log ++ (s.error cb).1) where
  table h := absurd rfl h
  closed _ := AllClosed.of_error cb h
  unset _ h := h.elim

theorem sockets_update (s : TcpServer) (i : Fin tcpSockIdMax) (fd : Int32) :
    openSocket ∘ Function.update s.fd i fd = Function.update s.sockets i (openSocket fd) :=
  Function.comp_update _ _ _ _

theorem nextEntry_scans (i : Fin tcpSockIdMax) :
    TcpServer.nextEntry i ≠ .returned ∧ ∀ j, ¬ (TcpServer.nextEntry i).unset j := by
  unfold TcpServer.nextEntry
  split <;> simp [TcpPc.unset]

/-- A step that leaves `fds` and its sockets alone and goes on to where no socket is
asked for. -/
theorem SocketsOwned.of_same {s : TcpServer} {log : List (ServerEvent TcpArrival)} {pc : TcpPc}
    (h : LeaseTable entryKind s.sockets (leases log)) (goesOn : pc ≠ .returned)
    (unset : ∀ j, pc.unset j → s.fd j < 0) : SocketsOwned { s with pc := pc } log where
  table _ := h
  closed returned := absurd returned goesOn
  unset := unset

theorem SocketsOwned.of_scan {s : TcpServer} {log : List (ServerEvent TcpArrival)}
    {i : Fin tcpSockIdMax} (pc : s.pc = TcpServer.nextEntry i)
    (h : LeaseTable entryKind s.sockets (leases log)) : SocketsOwned s log where
  table _ := h
  closed returned := absurd (pc.symm.trans returned) (nextEntry_scans i).1
  unset j unset := absurd (pc ▸ unset) ((nextEntry_scans i).2 j)

theorem freeEntry_free {s : TcpServer} {j : Fin tcpSockIdMax} (h : s.freeEntry = some j) :
    TcpServer.isListener j = false ∧ s.fd j < 0 := by
  have found := List.find?_some h
  simpa using found

theorem SocketsOwned.accept {s : TcpServer} {log : List (ServerEvent TcpArrival)} {cb : Bool}
    {i : Fin tcpSockIdMax} {r : TcpOutcome}
    (h : LeaseTable entryKind s.sockets (leases log))
    (fresh : HandedOutFree (leases (log ++ (s.accept cb i r).1))) :
    SocketsOwned (s.accept cb i r).2 (log ++ (s.accept cb i r).1) := by
  unfold TcpServer.accept at fresh ⊢
  by_cases failed : r.ret < 0
  · rw [if_pos failed]
    exact SocketsOwned.of_error cb h
  · rw [if_neg failed] at fresh ⊢
    cases free : s.freeEntry with
    | none =>
        have nonneg := Int32.not_lt.mp failed
        have events : leases (log ++ [.accept r.ret, .close r.ret]) =
            leases log ++ [(r.ret, .take .connection)] ++ [(r.ret, .drop)] := by
          rw [leases_append, List.append_assoc]
          simp [leases, ServerEvent.lease, nonneg]
        simp only [free] at fresh ⊢
        apply SocketsOwned.of_scan (i := i) rfl
        rw [events] at fresh ⊢
        exact h.takeDrop fresh.of_append
    | some j =>
        obtain ⟨data, empty⟩ := freeEntry_free free
        have kind : entryKind j = .connection := by simp [entryKind, data]
        have events : leases (log ++ [.accept r.ret]) =
            leases log ++ [(r.ret, .take (entryKind j))] := by
          rw [leases_append, kind]
          rfl
        simp only [free] at fresh ⊢
        apply SocketsOwned.of_scan (i := i) rfl
        rw [events] at fresh ⊢
        rw [TcpServer.sockets, sockets_update, openSocket_of_not_neg failed]
        exact h.take (openSocket_neg empty) fresh

theorem leases_recvEvents (hz : UInt64) (cb : Bool) (s : TcpServer) (r : TcpOutcome)
    (d : TcpArrival) : leases (TcpServer.recvReport cb r ++ (s.deliver hz cb d).1) = [] := by
  have report : leases (TcpServer.recvReport cb r) = [] := by
    unfold TcpServer.recvReport
    split
    · exact leases_out _
    · rfl
  rw [leases_append, report, List.nil_append]
  exact leases_out _

theorem SocketsOwned.recv {s : TcpServer} {log : List (ServerEvent TcpArrival)} (hz : UInt64)
    (cb : Bool) (i : Fin tcpSockIdMax) (r : TcpOutcome)
    (h : LeaseTable entryKind s.sockets (leases log)) :
    SocketsOwned (s.recv hz cb i r).2 (log ++ (s.recv hz cb i r).1) := by
  have quiet := leases_recvEvents hz cb s r (s.arrival i r)
  unfold TcpServer.recv
  dsimp only
  split
  · apply SocketsOwned.of_scan (i := i) rfl
    rw [leases_append, leases_append, quiet, List.nil_append]
    dsimp only [TcpServer.closeEntry, TcpServer.deliver]
    rw [TcpServer.sockets, sockets_update]
    by_cases neg : s.fd i < 0
    · have none : leases [(ServerEvent.close (s.fd i) : ServerEvent TcpArrival)] = [] := by
        simp [leases, ServerEvent.lease, Int32.not_le.mpr neg]
      have same : openSocket (-1) = s.sockets i := (openSocket_neg neg).symm
      rw [none, List.append_nil, same, Function.update_eq_self]
      exact h
    · have one : leases [(ServerEvent.close (s.fd i) : ServerEvent TcpArrival)] =
          [(s.fd i, .drop)] := by
        simp [leases, ServerEvent.lease, Int32.not_lt.mp neg]
      rw [one]
      exact h.drop (openSocket_of_not_neg neg)
  · apply SocketsOwned.of_scan (i := i) rfl
    rw [leases_append, quiet, List.append_nil]
    exact h

theorem SocketsOwned.socket {s : TcpServer} {log : List (ServerEvent TcpArrival)} {cb : Bool}
    {i : Fin 2} {r : TcpOutcome} (stop : Bool) (hz : UInt64) (pc : s.pc = .socket i)
    (h : SocketsOwned s log)
    (fresh : HandedOutFree (leases (log ++ (tcpServerSession hz stop cb s r).1))) :
    SocketsOwned (tcpServerSession hz stop cb s r).2
      (log ++ (tcpServerSession hz stop cb s r).1) := by
  have table := h.table (by simp [pc])
  have empty : s.fd (TcpServer.listener i) < 0 := h.unset _ (by rw [pc]; exact Nat.le_refl _)
  simp only [tcpServerSession, pc] at fresh ⊢
  split
  · rename_i failed
    apply SocketsOwned.of_error
    rw [TcpServer.sockets, sockets_update, openSocket_neg failed]
    have same : none = s.sockets (TcpServer.listener i) := (openSocket_neg empty).symm
    rw [same, Function.update_eq_self]
    exact table
  · rename_i made
    rw [if_neg made] at fresh
    have kind : entryKind (TcpServer.listener i) = .listener := by
      have small : (TcpServer.listener i).val < 2 := i.isLt
      simp [entryKind, TcpServer.isListener, small]
    have events : leases (log ++ [.socket r.ret]) =
        leases log ++ [(r.ret, .take (entryKind (TcpServer.listener i)))] := by
      rw [leases_append, kind]
      rfl
    refine ⟨?table, ?closed, ?unset⟩
    case table =>
      intro _
      rw [events] at fresh ⊢
      rw [TcpServer.sockets, sockets_update, openSocket_of_not_neg made]
      exact table.take (openSocket_neg empty) fresh
    case closed =>
      intro returned
      simp at returned
    case unset =>
      intro j later
      have ne : j ≠ TcpServer.listener i := by
        rintro rfl
        exact Nat.lt_irrefl _ later
      dsimp only
      rw [Function.update_of_ne ne]
      exact h.unset j (by rw [pc]; exact Nat.le_of_lt later)

theorem SocketsOwned.step {s : TcpServer} {log : List (ServerEvent TcpArrival)} {hz : UInt64}
    {stop cb : Bool} {r : TcpOutcome} (h : SocketsOwned s log)
    (fresh : HandedOutFree (leases (log ++ (tcpServerSession hz stop cb s r).1))) :
    SocketsOwned (tcpServerSession hz stop cb s r).2
      (log ++ (tcpServerSession hz stop cb s r).1) := by
  cases pc : s.pc with
  | socket i => exact h.socket stop hz pc fresh
  | bind i =>
      have table := h.table (by simp [pc])
      simp only [tcpServerSession, pc]
      split
      · exact SocketsOwned.of_error cb table
      · rw [List.append_nil]
        exact SocketsOwned.of_same table (by simp) fun j later => h.unset j (by rw [pc]; exact later)
  | listen i =>
      have table := h.table (by simp [pc])
      simp only [tcpServerSession, pc]
      split
      · exact SocketsOwned.of_error cb table
      · rw [List.append_nil]
        apply SocketsOwned.of_same table
        · split <;> simp
        · intro j later
          apply h.unset j
          rw [pc]
          split at later
          · rename_i first
            subst first
            exact later
          · exact later.elim
  | poll =>
      have table := h.table (by simp [pc])
      simp only [tcpServerSession, pc]
      split
      · exact SocketsOwned.of_error cb table
      · split
        · exact SocketsOwned.of_cleanup table
        · split
          · rw [List.append_nil]
            exact h
          · rw [List.append_nil]
            exact ⟨fun _ => table, by simp, fun _ later => later.elim⟩
  | entry i =>
      have table := h.table (by simp [pc])
      simp only [tcpServerSession, pc] at fresh ⊢
      split
      · exact SocketsOwned.of_error cb table
      · rename_i noError
        rw [if_neg noError] at fresh
        split
        · rw [List.append_nil]
          exact SocketsOwned.of_scan (i := i) rfl table
        · rename_i readable
          rw [if_neg readable] at fresh
          split
          · rename_i listener
            rw [if_pos listener] at fresh
            exact SocketsOwned.accept table fresh
          · exact SocketsOwned.recv hz cb i r table
  | returned =>
      simp only [tcpServerSession, pc]
      rw [List.append_nil]
      exact h

/-- In every state before the session returns, each socket obtained and not yet closed is
in one entry, a listener's in the first two and a connection's in the others; when it has
returned, each socket obtained in the run has been closed once. -/
theorem sockets_owned (hz : UInt64) (s₀ : TcpServer) {turns : List (ServerTurn TcpOutcome)}
    {out : List (ServerEvent TcpArrival)} {s : TcpServer}
    (run : (tcpServer hz).machine.Reaches s₀.enter turns out s)
    (fresh : HandedOutFree (leases out)) :
    (s.pc ≠ .returned → LeaseTable entryKind s.sockets (leases out)) ∧
      (s.pc = .returned → ∀ fd, leaseOf fd (leases out) = some none) := by
  have owned := @Machine.Reaches.invariant _ _ _ (tcpServer hz).machine
    (fun _ log s => HandedOutFree (leases log) → SocketsOwned s log)
    (fun _ log s a out t before step fresh => by
      obtain ⟨rfl, rfl⟩ := goesOn_inj step
      have sofar := fresh
      rw [leases_append] at sofar
      exact (before sofar.of_append).step fresh)
    s₀.enter s [] turns [] out (fun _ => SocketsOwned.enter s₀) run
  exact ⟨(owned fresh).table, (owned fresh).closed⟩

/-- Two listeners, a connection that is accepted and another after it on the same
descriptor, and a stop. -/
theorem sockets_owned_reused_descriptor :
    let m := (tcpServer 1000).machine
    let r (ret : Int32) (ready : Fin tcpSockIdMax) : ServerTurn TcpOutcome :=
      ⟨false, true, ⟨ret, fun i => ⟨false, false, i = ready⟩, .inet 6000 0x0A000002, 5, 5⟩⟩
    let setup := [r 3 0, r 0 0, r 0 0, r 4 0, r 0 0, r 0 0]
    let scan (ready : Fin tcpSockIdMax) (ret : Int32) := r 1 ready :: List.replicate 6 (r ret 0)
    let turns := setup ++ scan 0 5 ++ scan 2 0 ++ scan 0 5 ++ [⟨true, false, (r 0 0).outcome⟩]
    let s := (m.run TcpServer.boot.enter turns).2.getD TcpServer.boot
    s.pc = .returned ∧
      (s.pc ≠ .returned →
        LeaseTable entryKind s.sockets (leases (m.run TcpServer.boot.enter turns).1)) ∧
      (s.pc = .returned →
        ∀ fd, leaseOf fd (leases (m.run TcpServer.boot.enter turns).1) = some none) := by
  intro m r setup scan turns s
  have run : m.Reaches TcpServer.boot.enter turns (m.run TcpServer.boot.enter turns).1 s :=
    m.reaches_of_isSome _ _ (by decide +kernel)
  exact ⟨by decide +kernel, sockets_owned 1000 TcpServer.boot run (by decide +kernel)⟩

end Zperf
