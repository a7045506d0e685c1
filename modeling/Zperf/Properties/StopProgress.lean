import Zperf.Base.Progress
import Zperf.Properties.ServerRestart

/-!
What a stop comes to.

Once the stop flag is set, each step of the thread brings it nearer to the end of its run,
whatever the system answers and whatever else is called. The callback is not called any
more when the stop has returned.
-/

namespace Zperf

open Base

section Rule

variable {σ α δ : Type}

def ControlStep.isThread : ControlStep α → Bool
  | .thread _ => true
  | .call _ | .controller => false

/-- How a session ends: `left` bounds the steps that it takes with the stop flag set, and
without a callback none is called. -/
structure StopRule (S : ServerSession σ α δ) (left : σ → Nat) (bound : Nat) : Prop where
  below : ∀ s, left s < bound
  lowers : ∀ cb s r events t, S.returned s = false →
    S.step true cb s r = (events, some t) → left t + 1 ≤ left s
  silent : ∀ stop s r status, .out (.sessionCb status) ∉ (S.step stop false s r).1

/-- A server that is running is in a start, or has its run ahead or under way. -/
def RunsAhead (s : ServerControl σ) : Prop :=
  s.serverRunning = true →
    s.controller.started = true ∨ s.serverRun ≠ 0 ∨ s.serving = true

/-- The steps of the thread that are left until it clears the running flag. -/
def stepsToClear (left : σ → Nat) (bound : Nat) (s : ServerControl σ) : Nat :=
  if s.serving then left s.session else bound

theorem RunsAhead.step {S : ServerSession σ α δ} {s t : ServerControl σ} {a : ControlStep α}
    {out : List (ControlEvent δ)} (h : RunsAhead s)
    (step : (serverControl S).step s a = (out, some t)) : RunsAhead t := by
  cases a with
  | call c =>
      obtain ⟨-, rfl⟩ := goesOn_inj step
      unfold beginCall
      split
      · rename_i idle
        split
        · exact h
        · intro running
          simpa [ControllerPc.started, idle] using h running
      · rename_i idle
        split
        · intro running
          simpa [ControllerPc.started, idle] using h running
        · exact h
      · exact h
  | controller =>
      obtain ⟨-, rfl⟩ := goesOn_inj step
      unfold controllerStep
      unfold RunsAhead at h ⊢
      cases pc : s.controller with
      | idle => exact h
      | setRunning args | clearStop args | setAddr args => simp [ControllerPc.started]
      | give =>
          intro running
          by_cases none : s.serverRun = 0
          · simp [none, serverRunMax]
          · have room : 0 < s.serverRun := by omega
            dsimp only
            split <;> omega
      | setCallback args | setUserData args | setPort args | setStop | clearCallback =>
          simpa [pc, ControllerPc.started] using h
  | thread outcome =>
      cases receiverThread_step step with
      | blocked waiting none => exact h
      | begun waiting some => simp [RunsAhead]
      | cleared serving returned => simp [RunsAhead]
      | session serving returned events session step => exact fun _ => .inr (.inr serving)

/-! ### The run ends -/

/-- The stop flag is set, and the run that it is for is ahead or under way. -/
structure Ending (s : ServerControl σ) : Prop where
  stopping : Stopping s
  ahead : RunsAhead s

theorem Ending.run {s : ServerControl σ} (h : Ending s) : s.serverRun ≠ 0 ∨ s.serving = true := by
  have apart := not_started_of_not_starting h.stopping.controller
  simpa [apart] using h.ahead h.stopping.running

theorem Ending.lowers {S : ServerSession σ α δ} {left : σ → Nat} {bound : Nat}
    (rule : StopRule S left bound) {s t : ServerControl σ} {a : ControlStep α}
    {out : List (ControlEvent δ)} (h : Ending s)
    (step : (serverControl S).step s a = (out, some t))
    (running : ControlEvent.cleared ∉ out) :
    Ending t ∧ stepsToClear left bound t + (if a.isThread then 1 else 0) ≤
      stepsToClear left bound s := by
  refine ⟨⟨(h.stopping.step step running).1, h.ahead.step step⟩, ?_⟩
  cases a with
  | call c =>
      obtain ⟨rfl, rfl⟩ := goesOn_inj step
      obtain ⟨serving, session, -⟩ := call_frame (δ := δ) s c []
      rw [stepsToClear, stepsToClear, serving, session]
      exact Nat.le_refl _
  | controller =>
      obtain ⟨rfl, rfl⟩ := goesOn_inj step
      obtain ⟨serving, session, -⟩ := controllerStep_frame (δ := δ) s []
      rw [stepsToClear, stepsToClear, serving, session]
      exact Nat.le_refl _
  | thread outcome =>
      cases receiverThread_step step with
      | blocked waiting none =>
          have impossible := h.run
          simp [waiting, none] at impossible
      | begun waiting some =>
          have below := rule.below (S.enter s.session)
          simp only [stepsToClear, ControlStep.isThread, waiting, Bool.false_eq_true, if_true,
            if_false]
          omega
      | cleared serving returned => simp at running
      | session serving returned events session moved =>
          rw [h.stopping.stop] at moved
          have lower := rule.lowers _ _ _ _ _ returned moved
          simpa [stepsToClear, serving, ControlStep.isThread] using lower

/-! ### The callback is silent -/

/-- The callback has been taken away, and no start has put one in its place. -/
structure Silenced (s : ServerControl σ) : Prop where
  callback : s.sessionCb = 0
  controller : s.controller.starting = false

theorem ControlEvent.not_mem_session {events : List (ServerEvent δ)} {status : Status}
    (h : .out (.sessionCb status) ∉ events) :
    ControlEvent.session (.out (.sessionCb status)) ∉ events.map ControlEvent.session := by
  simpa using h

theorem Silenced.step {S : ServerSession σ α δ} {left : σ → Nat} {bound : Nat}
    (rule : StopRule S left bound) {s t : ServerControl σ} {a : ControlStep α}
    {out : List (ControlEvent δ)} (h : Silenced s)
    (step : (serverControl S).step s a = (out, some t))
    (fresh : ∀ args, ControlEvent.accepted args ∉ out) :
    Silenced t ∧ ∀ status, ControlEvent.session (.out (.sessionCb status)) ∉ out := by
  obtain ⟨none, apart⟩ := h
  cases a with
  | call c =>
      obtain ⟨rfl, rfl⟩ := goesOn_inj step
      unfold beginCall at fresh ⊢
      split at fresh
      · rename_i args idle
        by_cases refused : args.callback = 0 ∨ s.serverRunning = true
        · rw [if_pos refused]
          exact ⟨⟨none, apart⟩, by simp⟩
        · rw [if_neg refused] at fresh
          exact absurd List.mem_cons_self (fresh args)
      · split
        · exact ⟨⟨none, rfl⟩, by simp⟩
        · exact ⟨⟨none, apart⟩, by simp⟩
      · exact ⟨⟨none, apart⟩, by simp⟩
  | controller =>
      obtain ⟨rfl, rfl⟩ := goesOn_inj step
      unfold controllerStep
      cases pc : s.controller with
      | idle => exact ⟨⟨none, apart⟩, by simp⟩
      | setStop => exact ⟨⟨none, rfl⟩, by simp⟩
      | clearCallback => exact ⟨⟨rfl, rfl⟩, by simp⟩
      | _ => simp [pc, ControllerPc.starting] at apart
  | thread outcome =>
      cases receiverThread_step step with
      | blocked waiting none' => exact ⟨⟨none, apart⟩, by simp⟩
      | begun waiting some => exact ⟨⟨none, apart⟩, by simp⟩
      | cleared serving returned => exact ⟨⟨none, apart⟩, by simp⟩
      | session serving returned events session moved =>
          refine ⟨⟨none, apart⟩, fun status => ControlEvent.not_mem_session ?_⟩
          have silent := rule.silent s.serverStop s.session outcome status
          simp only [none, ne_eq, not_true_eq_false, decide_false] at moved
          rwa [moved] at silent

theorem silenced_of_stopped {S : ServerSession σ α δ} {s t : ServerControl σ}
    {a : ControlStep α} {out : List (ControlEvent δ)}
    (step : (serverControl S).step s a = (out, some t)) (stopped : ControlEvent.stopped ∈ out) :
    Silenced t := by
  cases a with
  | call c =>
      obtain ⟨rfl, -⟩ := Prod.mk.inj step
      unfold beginCall at stopped
      split at stopped
      · split at stopped <;> simp at stopped
      · split at stopped <;> simp at stopped
      · simp at stopped
  | controller =>
      obtain ⟨rfl, rfl⟩ := goesOn_inj step
      unfold controllerStep at stopped ⊢
      cases pc : s.controller with
      | clearCallback => exact ⟨rfl, rfl⟩
      | _ => simp [pc] at stopped
  | thread outcome => cases receiverThread_step step <;> simp at stopped

end Rule

/-! ### The two servers -/

/-- The steps that `udp_server_session` takes with the stop flag set. -/
def UdpPc.left : UdpPc → Nat
  | .socket i => 5 - 2 * i.val
  | .bind i => 4 - 2 * i.val
  | .poll => 1
  | .entry i => 3 - i.val
  | .returned => 0

/-- The steps that `tcp_server_session` takes with the stop flag set. -/
def TcpPc.left : TcpPc → Nat
  | .socket i => 7 - 3 * i.val
  | .bind i => 6 - 3 * i.val
  | .listen i => 5 - 3 * i.val
  | .poll => 1
  | .entry i => 7 - i.val
  | .returned => 0

theorem udpReceived_silent (hz : UInt64) (row : Row) (d : Arrival) (status : Status) :
    .sessionCb status ∉ (udpReceived hz false row d).1 := by
  have finish (s : Session) : .sessionCb status ∉ (finishSession hz false s d).1 := by
    dsimp only [finishSession]
    split
    · simp [zperfReceiverSendStat]
    · simp [zperfReceiverSendStat, callSessionCb]
  have received (s : Session) : .sessionCb status ∉ (sessionReceived hz false s d).1 := by
    unfold sessionReceived
    cases s.state with
    | null | completed =>
        dsimp only
        split
        · simp [zperfReceiverSendStat]
        · simp [callSessionCb]
    | ongoing =>
        dsimp only
        split
        · exact finish s
        · simp
    | lastPacketReceived => simp
  unfold udpReceived
  split
  · simp
  · split
    · simp
    · exact received _

theorem tcpReceived_silent (hz : UInt64) (row : Row) (d : TcpArrival) (status : Status) :
    .sessionCb status ∉ (tcpReceived hz false row d).1 := by
  have counted (s : Session) : (tcpOngoing hz false s d).1 = [] := by
    unfold tcpOngoing
    dsimp only
    split <;> rfl
  have received (s : Session) : (tcpSessionReceived hz false s d).1 = [] := by
    unfold tcpSessionReceived
    cases s.state with
    | null | completed => exact counted _
    | ongoing => exact counted s
    | lastPacketReceived => rfl
  unfold tcpReceived
  split
  · simp
  · simp [received]

theorem closeAll_silent {δ : Type} {n : Nat} (fd : Fin n → Int32) (e : Event) :
    .out e ∉ (closeAll fd : List (ServerEvent δ)) := by
  simp [closeAll]

theorem UdpPc.left_nextEntry (i : Fin udpSockIdMax) :
    (UdpServer.nextEntry i).left + 1 ≤ (UdpPc.entry i).left := by
  revert i
  decide

theorem UdpPc.left_bound (i : Fin udpSockIdMax) :
    (if i = 0 then UdpPc.socket 1 else .poll).left + 1 ≤ (UdpPc.bind i).left := by
  revert i
  decide

theorem UdpPc.left_socket (i : Fin udpSockIdMax) :
    (UdpPc.bind i).left + 1 ≤ (UdpPc.socket i).left := by
  revert i
  decide

theorem UdpPc.left_pos {pc : UdpPc} (runs : pc ≠ .returned) : 0 < pc.left := by
  cases pc with
  | socket i => exact Nat.lt_of_lt_of_le (Nat.succ_pos _) (left_socket i)
  | bind i => exact Nat.lt_of_lt_of_le (Nat.succ_pos _) (left_bound i)
  | poll => exact Nat.one_pos
  | entry i => exact Nat.lt_of_lt_of_le (Nat.succ_pos _) (left_nextEntry i)
  | returned => exact absurd rfl runs

/-- A session that meets an error or the stop flag has no step left. -/
theorem UdpPc.left_ends {s t : UdpServer} {events events' : List (ServerEvent Arrival)}
    {t' : UdpServer} (runs : s.pc ≠ .returned) (returned : t'.pc = .returned)
    (h : (events', some t') = (events, some t)) : t.pc.left + 1 ≤ s.pc.left := by
  obtain ⟨-, rfl⟩ := goesOn_inj h
  rw [returned]
  exact left_pos runs

theorem udpServerSession_left {hz : UInt64} {cb : Bool} {s t : UdpServer} {r : UdpOutcome}
    {events : List (ServerEvent Arrival)} (runs : s.pc ≠ .returned)
    (h : udpServerSession hz true cb s r = (events, some t)) : t.pc.left + 1 ≤ s.pc.left := by
  unfold udpServerSession at h
  cases pc : s.pc with
  | socket i =>
      rw [pc] at h
      dsimp only at h
      split at h
      · exact pc ▸ UdpPc.left_ends runs rfl h
      · obtain ⟨-, rfl⟩ := goesOn_inj h
        exact UdpPc.left_socket i
  | bind i =>
      rw [pc] at h
      dsimp only at h
      split at h
      · exact pc ▸ UdpPc.left_ends runs rfl h
      · obtain ⟨-, rfl⟩ := goesOn_inj h
        exact UdpPc.left_bound i
  | poll =>
      rw [pc] at h
      dsimp only at h
      split at h
      · exact pc ▸ UdpPc.left_ends runs rfl h
      · rw [if_pos rfl] at h
        exact pc ▸ UdpPc.left_ends runs rfl h
  | entry i =>
      rw [pc] at h
      dsimp only at h
      split at h
      · exact pc ▸ UdpPc.left_ends runs rfl h
      · split at h
        · obtain ⟨-, rfl⟩ := goesOn_inj h
          exact UdpPc.left_nextEntry i
        · unfold UdpServer.recvfrom at h
          split at h
          · exact pc ▸ UdpPc.left_ends runs rfl h
          · obtain ⟨row, -, rfl⟩ := Option.map_eq_some_iff.mp (Prod.mk.inj h).2
            exact UdpPc.left_nextEntry i
  | returned => exact absurd pc runs

theorem error_silent {δ : Type} {n : Nat} (fd : Fin n → Int32) (e : Event) :
    .out e ∉ (sessionErrorReport false ++ closeAll fd : List (ServerEvent δ)) := by
  simp [sessionErrorReport, callSessionCb, closeAll_silent]

theorem mem_error {δ : Type} {n : Nat} {fd : Fin n → Int32} {cb : Bool} {e : Event}
    (h : (.out e : ServerEvent δ) ∈ sessionErrorReport cb ++ closeAll fd) :
    e = .sessionCb .error := by
  rw [List.mem_append, or_iff_left (closeAll_silent fd e)] at h
  unfold sessionErrorReport callSessionCb at h
  split at h
  · simpa using h
  · simp at h

/-- What a receive call hands out comes from `tcp_received`, but for its own error. -/
theorem recv_out {hz : UInt64} {cb : Bool} {s : TcpServer} {i : Fin tcpSockIdMax}
    {r : TcpOutcome} {e : Event} (h : .out e ∈ (s.recv hz cb i r).1) :
    e = .sessionCb .error ∨ e ∈ (tcpReceived hz cb s.row (s.arrival i r)).1 := by
  have report (handed : .out e ∈ TcpServer.recvReport cb r) : e = .sessionCb .error := by
    unfold TcpServer.recvReport sessionErrorReport callSessionCb at handed
    split at handed
    · split at handed
      · simpa using handed
      · simp at handed
    · simp at handed
  unfold TcpServer.recv TcpServer.deliver TcpServer.closeEntry at h
  dsimp only at h
  split at h
  · simp only [List.mem_append, List.mem_cons, List.mem_map, List.not_mem_nil, reduceCtorEq,
      or_false, false_or, ServerEvent.out.injEq, exists_eq_right] at h
    exact h.imp report id
  · simp only [List.mem_append, List.mem_cons, List.mem_map, reduceCtorEq, false_or,
      ServerEvent.out.injEq, exists_eq_right] at h
    exact h.imp report id

theorem udpServerSession_silent (hz : UInt64) (stop : Bool) (s : UdpServer) (r : UdpOutcome)
    (status : Status) : .out (.sessionCb status) ∉ (udpServerSession hz stop false s r).1 := by
  unfold udpServerSession
  cases s.pc with
  | socket i =>
      dsimp only
      split
      · exact error_silent _ _
      · simp
  | bind i =>
      dsimp only
      split
      · exact error_silent _ _
      · simp
  | poll =>
      dsimp only
      split
      · exact error_silent _ _
      · split
        · exact closeAll_silent _ _
        · split <;> simp
  | entry i =>
      dsimp only
      split
      · exact error_silent _ _
      · split
        · simp
        · unfold UdpServer.recvfrom
          split
          · exact error_silent _ _
          · have silent := udpReceived_silent hz s.row ⟨r.addr, r.data, r.tick⟩ status
            simpa using silent
  | returned => simp

theorem udpStopRule (hz : UInt64) : StopRule (udpServer hz) (fun s => s.pc.left) 6 where
  below s := by
    cases s.pc <;> simp only [UdpPc.left] <;> omega
  lowers cb s r events t runs step := udpServerSession_left (by simpa [udpServer] using runs) step
  silent stop s r status := udpServerSession_silent hz stop s r status

theorem TcpPc.left_nextEntry (i : Fin tcpSockIdMax) :
    (TcpServer.nextEntry i).left + 1 ≤ (TcpPc.entry i).left := by
  revert i
  decide

theorem TcpPc.left_listen (i : Fin 2) :
    (if i = 0 then TcpPc.socket 1 else .poll).left + 1 ≤ (TcpPc.listen i).left := by
  revert i
  decide

theorem TcpPc.left_bind (i : Fin 2) : (TcpPc.listen i).left + 1 ≤ (TcpPc.bind i).left := by
  revert i
  decide

theorem TcpPc.left_socket (i : Fin 2) : (TcpPc.bind i).left + 1 ≤ (TcpPc.socket i).left := by
  revert i
  decide

theorem TcpPc.left_pos {pc : TcpPc} (runs : pc ≠ .returned) : 0 < pc.left := by
  cases pc with
  | socket i => exact Nat.lt_of_lt_of_le (Nat.succ_pos _) (left_socket i)
  | bind i => exact Nat.lt_of_lt_of_le (Nat.succ_pos _) (left_bind i)
  | listen i => exact Nat.lt_of_lt_of_le (Nat.succ_pos _) (left_listen i)
  | poll => exact Nat.one_pos
  | entry i => exact Nat.lt_of_lt_of_le (Nat.succ_pos _) (left_nextEntry i)
  | returned => exact absurd rfl runs

theorem tcpServerSession_left {hz : UInt64} {cb : Bool} {s : TcpServer} {r : TcpOutcome}
    (runs : s.pc ≠ .returned) :
    (tcpServerSession hz true cb s r).2.pc.left + 1 ≤ s.pc.left := by
  have ends := TcpPc.left_pos runs
  unfold tcpServerSession
  cases pc : s.pc with
  | socket i =>
      rw [pc] at ends
      dsimp only
      split
      · exact ends
      · exact TcpPc.left_socket i
  | bind i =>
      rw [pc] at ends
      dsimp only
      split
      · exact ends
      · exact TcpPc.left_bind i
  | listen i =>
      rw [pc] at ends
      dsimp only
      split
      · exact ends
      · exact TcpPc.left_listen i
  | poll =>
      dsimp only
      split
      · exact Nat.le_refl _
      · rw [if_pos rfl]
        exact Nat.le_refl _
  | entry i =>
      rw [pc] at ends
      dsimp only
      split
      · exact ends
      · split
        · exact TcpPc.left_nextEntry i
        · split
          · unfold TcpServer.accept
            split
            · exact ends
            · split <;> exact TcpPc.left_nextEntry i
          · unfold TcpServer.recv
            dsimp only
            split <;> exact TcpPc.left_nextEntry i
  | returned => exact absurd pc runs

theorem tcpServerSession_silent (hz : UInt64) (stop : Bool) (s : TcpServer) (r : TcpOutcome)
    (status : Status) : .out (.sessionCb status) ∉ (tcpServerSession hz stop false s r).1 := by
  unfold tcpServerSession
  cases s.pc with
  | socket i =>
      dsimp only
      split
      · exact error_silent _ _
      · simp
  | bind i | listen i =>
      dsimp only
      split
      · exact error_silent _ _
      · simp
  | poll =>
      dsimp only
      split
      · exact error_silent _ _
      · split
        · exact closeAll_silent _ _
        · split <;> simp
  | entry i =>
      dsimp only
      split
      · exact error_silent _ _
      · split
        · simp
        · split
          · unfold TcpServer.accept
            split
            · exact error_silent _ _
            · split <;> simp
          · have silent := tcpReceived_silent hz s.row (s.arrival i r) status
            have report : TcpServer.recvReport false r = [] := by
              unfold TcpServer.recvReport
              split <;> rfl
            unfold TcpServer.recv
            dsimp only
            split <;> simpa [report, TcpServer.deliver, TcpServer.closeEntry] using silent
  | returned => simp

theorem tcpStopRule (hz : UInt64) : StopRule (tcpServer hz) (fun s => s.pc.left) 8 where
  below s := by
    cases s.pc <;> simp only [TcpPc.left] <;> omega
  lowers cb s r events t runs step := by
    obtain ⟨-, rfl⟩ := goesOn_inj step
    exact tcpServerSession_left (by simpa [tcpServer] using runs)
  silent stop s r status := tcpServerSession_silent hz stop s r status

/-- What holds from a stop on, in the state `t` that it leaves. -/
structure StopHolds {σ α δ : Type} (S : ServerSession σ α δ) (bound : Nat)
    (t : ServerControl σ) : Prop where
  ends : t.serverRunning = true → ∀ as out u, (serverControl S).Reaches t as out u →
    bound < as.countP ControlStep.isThread → ControlEvent.cleared ∈ out
  silent : ∀ as out u, (serverControl S).Reaches t as out u →
    (∀ args, ControlEvent.accepted args ∉ out) →
    ∀ status, ControlEvent.session (.out (.sessionCb status)) ∉ out

theorem StopRule.holds {σ α δ : Type} {S : ServerSession σ α δ} {left : σ → Nat} {bound : Nat}
    (rule : StopRule S left bound) (session : σ) {as : List (ControlStep α)}
    {log : List (ControlEvent δ)} {s : ServerControl σ}
    (run : (serverControl S).Reaches (ServerControl.init session) as log s)
    {a : ControlStep α} {out : List (ControlEvent δ)} {t : ServerControl σ}
    (step : (serverControl S).step s a = (out, some t)) (stopped : ControlEvent.stopped ∈ out) :
    StopHolds S bound t := by
  have kept := run.preserves (fun s => ControlOk s ∧ RunsAhead s)
    (fun s a out t h step => ⟨h.1.step step, h.2.step step⟩)
    ⟨ControlOk.init session, by simp [RunsAhead, ServerControl.init]⟩
  refine ⟨?ends, ?silent⟩
  case ends =>
    intro running as' out' u later turns
    by_contra unfinished
    have ending : Ending t := ⟨kept.1.stopping_of_stopped step stopped running, kept.2.step step⟩
    have few := @Machine.Reaches.turns_le _ _ _ (serverControl S) Ending
      (stepsToClear left bound) ControlStep.isThread (fun e => e = .cleared)
      (fun s a out t h step undone => h.lowers rule step fun done => undone _ done rfl)
      t u as' out' ending later (fun e he same => unfinished (same ▸ he))
    have most : stepsToClear left bound t ≤ bound := by
      unfold stepsToClear
      split
      · exact Nat.le_of_lt (rule.below _)
      · exact Nat.le_refl _
    omega
  case silent =>
    intro as' out' u later fresh
    have silence := @Machine.Reaches.invariant _ _ _ (serverControl S)
      (fun _ emitted s => (∀ args, ControlEvent.accepted args ∉ emitted) →
        Silenced s ∧ ∀ status, ControlEvent.session (.out (.sessionCb status)) ∉ emitted)
      (fun _ emitted s a out t before step fresh => by
        simp only [List.mem_append, not_or] at fresh ⊢
        obtain ⟨silenced, none⟩ := before fun args => (fresh args).1
        obtain ⟨next, noneNow⟩ := silenced.step rule step fun args => (fresh args).2
        exact ⟨next, fun status => ⟨none status, noneNow status⟩⟩)
      t u [] as' [] out' (fun _ => ⟨silenced_of_stopped step stopped, by simp⟩) later
    exact (silence fresh).2

/-- After a stop, of either server and in every interleaving: the thread clears the running
flag within seven steps of its own (nine for TCP) and calls no callback before another start
is accepted. -/
theorem stop_ends_run (hz : UInt64) :
    (∀ as log s, (serverControl (udpServer hz)).Reaches (ServerControl.init UdpServer.boot)
        as log s → ∀ a out t, (serverControl (udpServer hz)).step s a = (out, some t) →
      ControlEvent.stopped ∈ out → StopHolds (udpServer hz) 6 t) ∧
    (∀ as log s, (serverControl (tcpServer hz)).Reaches (ServerControl.init TcpServer.boot)
        as log s → ∀ a out t, (serverControl (tcpServer hz)).step s a = (out, some t) →
      ControlEvent.stopped ∈ out → StopHolds (tcpServer hz) 8 t) :=
  ⟨fun _ _ _ run _ _ _ step stopped => (udpStopRule hz).holds UdpServer.boot run step stopped,
    fun _ _ _ run _ _ _ step stopped => (tcpStopRule hz).holds TcpServer.boot run step stopped⟩

/-- A stop before the first socket is bound, and seven steps of the thread after it. -/
theorem stop_ends_run_before_bind :
    let m := serverControl (udpServer 1000)
    let start := ServerControl.init UdpServer.boot
    let calls := .call (.download ⟨1, 2, 5001, []⟩) :: List.replicate 7 .controller ++
      [udpThread 0 [], udpThread 3 [], .call .stop, .controller]
    let s := (m.run start calls).2.getD start
    let t := (m.step s .controller).2.getD start
    StopHolds (udpServer 1000) 6 t ∧
      ControlEvent.cleared ∈ (m.run t (List.replicate 7 (udpThread 0 []))).1 := by
  intro m start calls s t
  have run : m.Reaches start calls (m.run start calls).1 s :=
    m.reaches_of_isSome start calls (by decide +kernel)
  have step : m.step s .controller = ((m.step s .controller).1, some t) := rfl
  have holds : StopHolds (udpServer 1000) 6 t :=
    (stop_ends_run 1000).1 _ _ _ run _ _ _ step (by decide +kernel)
  have later := m.reaches_of_isSome t (List.replicate 7 (udpThread 0 [])) (by decide +kernel)
  exact ⟨holds, holds.ends (by decide +kernel) _ _ _ later (by decide)⟩

end Zperf
