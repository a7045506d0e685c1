import Zperf.Core.ServerControl
import Zperf.Core.TcpServer
import Zperf.Core.UdpServer

/-!
The start and stop protocol of a server.

A call that starts the server holds off every other until the thread has cleared the
running flag: before it gives the semaphore the thread waits with nothing to take, and
afterwards the flag is set.
-/

namespace Zperf

open Base

variable {σ α δ : Type}

def ControlEvent.isGiven : ControlEvent δ → Bool
  | .given => true
  | .accepted _ | .refused | .stopped | .begun | .session _ | .cleared => false

def ControlEvent.isBegun : ControlEvent δ → Bool
  | .begun => true
  | .accepted _ | .given | .refused | .stopped | .session _ | .cleared => false

/-- The controller has passed the check of a start and not yet given the semaphore. -/
def ControllerPc.starting : ControllerPc → Bool
  | .setCallback _ | .setUserData _ | .setPort _ | .setRunning _ | .clearStop _ | .setAddr _
  | .give => true
  | .idle | .setStop | .clearCallback => false

/-- The controller has set the running flag and not yet given the semaphore. -/
def ControllerPc.started : ControllerPc → Bool
  | .clearStop _ | .setAddr _ | .give => true
  | .idle | .setCallback _ | .setUserData _ | .setPort _ | .setRunning _ | .setStop
  | .clearCallback => false

theorem starting_of_started {c : ControllerPc} (h : c.started = true) : c.starting = true := by
  cases c <;> simp_all [ControllerPc.started, ControllerPc.starting]

theorem not_started_of_not_starting {c : ControllerPc} (h : c.starting = false) :
    c.started = false := by
  by_contra set
  rw [starting_of_started (by simpa using set)] at h
  exact Bool.noConfusion h

/-- Who may set and clear the running flag. -/
structure ControlOk (s : ServerControl σ) : Prop where
  atMost : s.serverRun ≤ 1
  starting : s.controller.starting = true → s.serverRun = 0 ∧ s.serving = false
  started : s.controller.started = true → s.serverRunning = true
  serving : s.serving = true → s.serverRun = 0
  running : s.serverRun = 1 ∨ s.serving = true → s.serverRunning = true
  stopping : s.controller = .clearCallback → s.serverStop = true

theorem ControlOk.init (session : σ) : ControlOk (ServerControl.init session) := by
  constructor <;> simp [ServerControl.init, ControllerPc.starting, ControllerPc.started]

/-- The controller goes to a place where it does not start the server. -/
theorem ControlOk.aside {s : ServerControl σ} (h : ControlOk s) {pc : ControllerPc}
    (stop : Bool) (sessionCb : UInt32) (apart : pc.starting = false)
    (stopping : pc = .clearCallback → stop = true) :
    ControlOk { s with controller := pc, serverStop := stop, sessionCb := sessionCb } := by
  refine ⟨h.atMost, ?starting, ?started, h.serving, h.running, stopping⟩
  case starting => simp [apart]
  case started => simp [not_started_of_not_starting apart]

theorem ControlOk.call {s : ServerControl σ} (h : ControlOk s) (c : ControlCall) :
    ControlOk (beginCall (δ := δ) s c).2 := by
  unfold beginCall
  split
  · rename_i args idle
    split
    · exact h
    · rename_i passes
      have clear : s.serverRunning = false := by simp_all
      have free : s.serverRun ≠ 1 ∧ s.serving = false := by
        simpa [clear] using h.running
      have none : s.serverRun = 0 := by
        have := h.atMost
        omega
      refine ⟨h.atMost, fun _ => ⟨none, free.2⟩, ?started, h.serving, h.running, ?stopping⟩
      case started => simp [ControllerPc.started]
      case stopping => simp
  · split
    · exact h.aside s.serverStop s.sessionCb rfl (by simp)
    · exact h
  · exact h

theorem ControlOk.controller {s : ServerControl σ} (h : ControlOk s) :
    ControlOk (controllerStep (δ := δ) s).2 := by
  have starting := h.starting
  have started := h.started
  unfold controllerStep
  cases pc : s.controller with
  | idle => exact h
  | setCallback args | setUserData args | setPort args =>
      obtain ⟨none, waiting⟩ := starting (by simp [pc, ControllerPc.starting])
      constructor <;> simp [ControllerPc.started, none, waiting]
  | setRunning args | clearStop args | setAddr args =>
      obtain ⟨none, waiting⟩ := starting (by simp [pc, ControllerPc.starting])
      constructor <;> simp [none, waiting]
      all_goals simp [started, pc, ControllerPc.started]
  | give =>
      obtain ⟨none, waiting⟩ := starting (by simp [pc, ControllerPc.starting])
      have set : s.serverRunning = true := started (by simp [pc, ControllerPc.started])
      constructor <;>
        simp [ControllerPc.starting, ControllerPc.started, none, waiting, set, serverRunMax]
  | setStop => exact h.aside true s.sessionCb rfl fun _ => rfl
  | clearCallback => exact h.aside s.serverStop 0 rfl (by simp)

/-- Everything one step of the thread can do. -/
inductive ThreadStep (S : ServerSession σ α δ) (s : ServerControl σ) (outcome : α) :
    List (ControlEvent δ) → ServerControl σ → Prop where
  | blocked (waiting : s.serving = false) (none : s.serverRun = 0) :
      ThreadStep S s outcome [] s
  | begun (waiting : s.serving = false) (some : s.serverRun ≠ 0) :
      ThreadStep S s outcome [.begun] { s with
        serverRun := s.serverRun - 1
        serving := true
        session := S.enter s.session }
  | cleared (serving : s.serving = true) (returned : S.returned s.session = true) :
      ThreadStep S s outcome [.cleared] { s with serverRunning := false, serving := false }
  | session (serving : s.serving = true) (returned : S.returned s.session = false)
      (events : List (ServerEvent δ)) (session : σ)
      (step : S.step s.serverStop (s.sessionCb ≠ 0) s.session outcome = (events, some session)) :
      ThreadStep S s outcome (events.map .session) { s with session := session }

theorem receiverThread_step {S : ServerSession σ α δ} {s t : ServerControl σ} {outcome : α}
    {out : List (ControlEvent δ)} (h : receiverThread S s outcome = (out, some t)) :
    ThreadStep S s outcome out t := by
  unfold receiverThread at h
  split at h
  · rename_i waiting
    rw [Bool.not_eq_true] at waiting
    split at h
    · rename_i none
      obtain ⟨rfl, rfl⟩ := goesOn_inj h
      exact .blocked waiting none
    · rename_i some
      obtain ⟨rfl, rfl⟩ := goesOn_inj h
      exact .begun waiting some
  · rename_i serving
    rw [Decidable.not_not] at serving
    split at h
    · rename_i returned
      obtain ⟨rfl, rfl⟩ := goesOn_inj h
      exact .cleared serving returned
    · rename_i returned
      rw [Bool.not_eq_true] at returned
      obtain ⟨rfl, next⟩ := Prod.mk.inj h
      obtain ⟨session, hs, rfl⟩ := Option.map_eq_some_iff.mp next
      exact .session serving returned _ session (Prod.ext rfl hs)

theorem ControlOk.thread {S : ServerSession σ α δ} {s t : ServerControl σ} (h : ControlOk s)
    {outcome : α} {out : List (ControlEvent δ)} (step : ThreadStep S s outcome out t) :
    ControlOk t := by
  cases step with
  | blocked waiting none => exact h
  | begun waiting some =>
      have one : s.serverRun = 1 := by
        have := h.atMost
        omega
      have apart : s.controller.starting = false := by
        by_contra busy
        exact some (h.starting (by simpa using busy)).1
      refine ⟨?atMost, ?starting, h.started, ?serving, ?running, h.stopping⟩
      case atMost => simp [one]
      case starting => simp [apart]
      case serving => simp [one]
      case running => simp [h.running (.inl one)]
  | cleared serving returned =>
      have none := h.serving serving
      have apart : s.controller.starting = false := by
        by_contra busy
        have waiting := (h.starting (by simpa using busy)).2
        simp [serving] at waiting
      have unset := not_started_of_not_starting apart
      refine ⟨h.atMost, ?starting, ?started, ?serving, ?running, h.stopping⟩
      case starting => simp [apart]
      case started => simp [unset]
      case serving => simp
      case running => simp [none]
  | session serving returned events session step =>
      exact ⟨h.atMost, h.starting, h.started, h.serving, h.running, h.stopping⟩

theorem ControlOk.step {S : ServerSession σ α δ} {s t : ServerControl σ} {a : ControlStep α}
    {out : List (ControlEvent δ)} (h : ControlOk s)
    (step : (serverControl S).step s a = (out, some t)) : ControlOk t := by
  cases a with
  | call c =>
      obtain ⟨-, rfl⟩ := goesOn_inj step
      exact h.call c
  | controller =>
      obtain ⟨-, rfl⟩ := goesOn_inj step
      exact h.controller
  | thread outcome => exact h.thread (receiverThread_step step)

/-! ### Starts and runs -/

theorem countP_session (p : ControlEvent δ → Bool) (silent : ∀ e, p (.session e) = false)
    (events : List (ServerEvent δ)) : (events.map ControlEvent.session).countP p = 0 := by
  rw [List.countP_eq_zero]
  intro e he
  obtain ⟨x, -, rfl⟩ := List.mem_map.mp he
  simp [silent]

/-- A step that gives the semaphore or takes it changes its count accordingly. -/
theorem ControlOk.counts {S : ServerSession σ α δ} {s t : ServerControl σ} {a : ControlStep α}
    {out : List (ControlEvent δ)} (h : ControlOk s)
    (step : (serverControl S).step s a = (out, some t)) :
    out.countP ControlEvent.isGiven + s.serverRun =
      out.countP ControlEvent.isBegun + t.serverRun := by
  cases a with
  | call c =>
      obtain ⟨rfl, rfl⟩ := goesOn_inj step
      unfold beginCall
      split
      · split <;> rfl
      · split <;> rfl
      · rfl
  | controller =>
      obtain ⟨rfl, rfl⟩ := goesOn_inj step
      unfold controllerStep
      cases pc : s.controller with
      | give =>
          have none := (h.starting (by simp [pc, ControllerPc.starting])).1
          simp [none, serverRunMax, ControlEvent.isGiven, ControlEvent.isBegun]
      | _ => rfl
  | thread outcome =>
      cases receiverThread_step step with
      | blocked waiting none => rfl
      | begun waiting some =>
          have taken : s.serverRun = 1 + (s.serverRun - 1) := by omega
          simpa [ControlEvent.isGiven, ControlEvent.isBegun] using taken
      | cleared serving returned => rfl
      | session serving returned events session step =>
          rw [countP_session _ fun _ => rfl, countP_session _ fun _ => rfl]

/-! ### A stop holds -/

/-- A stop has come before the end of the run. -/
structure Stopping (s : ServerControl σ) : Prop where
  running : s.serverRunning = true
  stop : s.serverStop = true
  controller : s.controller.starting = false

theorem ControlOk.stopping_of_stopped {S : ServerSession σ α δ} {s t : ServerControl σ}
    {a : ControlStep α} {out : List (ControlEvent δ)} (h : ControlOk s)
    (step : (serverControl S).step s a = (out, some t)) (stopped : ControlEvent.stopped ∈ out)
    (running : t.serverRunning = true) : Stopping t := by
  cases a with
  | call c =>
      obtain ⟨rfl, -⟩ := Prod.mk.inj step
      unfold beginCall at stopped
      split at stopped
      · split at stopped <;> simp at stopped
      · split at stopped <;> simp at stopped
      · simp at stopped
  | controller =>
      obtain ⟨rfl, rfl⟩ := goesOn_inj step
      have stop := h.stopping
      unfold controllerStep at stopped running ⊢
      cases pc : s.controller with
      | clearCallback =>
          rw [pc] at running
          exact ⟨running, stop pc, rfl⟩
      | _ => simp [pc] at stopped
  | thread outcome =>
      cases receiverThread_step step <;> simp at stopped

theorem Stopping.step {S : ServerSession σ α δ} {s t : ServerControl σ} {a : ControlStep α}
    {out : List (ControlEvent δ)} (h : Stopping s)
    (step : (serverControl S).step s a = (out, some t))
    (running : ControlEvent.cleared ∉ out) :
    Stopping t ∧ ∀ args, ControlEvent.accepted args ∉ out := by
  obtain ⟨set, stop, apart⟩ := h
  cases a with
  | call c =>
      obtain ⟨rfl, rfl⟩ := goesOn_inj step
      unfold beginCall
      split
      · rw [if_pos (.inr set)]
        exact ⟨⟨set, stop, apart⟩, by simp⟩
      · rw [if_pos set]
        exact ⟨⟨set, stop, rfl⟩, by simp⟩
      · exact ⟨⟨set, stop, apart⟩, by simp⟩
  | controller =>
      obtain ⟨rfl, rfl⟩ := goesOn_inj step
      unfold controllerStep
      cases pc : s.controller with
      | idle => exact ⟨⟨set, stop, apart⟩, by simp⟩
      | setStop => exact ⟨⟨set, rfl, rfl⟩, by simp⟩
      | clearCallback => exact ⟨⟨set, stop, rfl⟩, by simp⟩
      | _ => simp [pc, ControllerPc.starting] at apart
  | thread outcome =>
      cases receiverThread_step step with
      | blocked waiting none => exact ⟨⟨set, stop, apart⟩, by simp⟩
      | begun waiting some => exact ⟨⟨set, stop, apart⟩, by simp⟩
      | cleared serving returned => simp at running
      | session serving returned events session step =>
          exact ⟨⟨set, stop, apart⟩, by simp⟩

theorem Stopping.run {S : ServerSession σ α δ} {s t : ServerControl σ}
    {as : List (ControlStep α)} {out : List (ControlEvent δ)} (h : Stopping s)
    (run : (serverControl S).Reaches s as out t) (running : ControlEvent.cleared ∉ out) :
    Stopping t ∧ ∀ args, ControlEvent.accepted args ∉ out := by
  have kept := @Machine.Reaches.invariant _ _ _ (serverControl S)
    (fun _ emitted s => ControlEvent.cleared ∉ emitted →
      Stopping s ∧ ∀ args, ControlEvent.accepted args ∉ emitted)
    (fun _ emitted s a out t before step running => by
      rw [List.mem_append, not_or] at running
      obtain ⟨stopping, none⟩ := before running.1
      obtain ⟨next, noneNow⟩ := stopping.step step running.2
      exact ⟨next, fun args => by
        rw [List.mem_append, not_or]
        exact ⟨none args, noneNow args⟩⟩)
    s t [] as [] out (fun _ => ⟨h, by simp⟩) run
  exact kept running

/-- What the protocol of starts and stops keeps, after the events `log`. -/
structure StartStopKept (S : ServerSession σ α δ) (log : List (ControlEvent δ))
    (s : ServerControl σ) : Prop where
  counted : log.countP ControlEvent.isGiven = log.countP ControlEvent.isBegun + s.serverRun
  atMost : s.serverRun ≤ 1
  running : s.serverRun = 1 ∨ s.serving = true → s.serverRunning = true
  stopHolds : ∀ a out t, (serverControl S).step s a = (out, some t) →
    ControlEvent.stopped ∈ out → t.serverRunning = true →
    ∀ as out' u, (serverControl S).Reaches t as out' u → ControlEvent.cleared ∉ out' →
      u.serverStop = true ∧ ∀ args, ControlEvent.accepted args ∉ out'

theorem startStopKept (S : ServerSession σ α δ) (session : σ) {as : List (ControlStep α)}
    {log : List (ControlEvent δ)} {s : ServerControl σ}
    (run : (serverControl S).Reaches (ServerControl.init session) as log s) :
    StartStopKept S log s := by
  have kept := @Machine.Reaches.invariant _ _ _ (serverControl S)
    (fun _ log s => ControlOk s ∧
      log.countP ControlEvent.isGiven = log.countP ControlEvent.isBegun + s.serverRun)
    (fun _ log s a out t before step => by
      obtain ⟨ok, counted⟩ := before
      have more := ok.counts step
      refine ⟨ok.step step, ?_⟩
      rw [List.countP_append, List.countP_append]
      omega)
    (ServerControl.init session) s [] as [] log ⟨ControlOk.init session, rfl⟩ run
  obtain ⟨ok, counted⟩ := kept
  refine ⟨counted, ok.atMost, ok.running, ?_⟩
  intro a out t step stopped running as out' u later noEnd
  have held := (ok.stopping_of_stopped step stopped running).run later noEnd
  exact ⟨held.1.stop, held.2⟩

/-- Of both servers, under every interleaving of the controller and the thread. -/
theorem server_start_stop (hz : UInt64) :
    (∀ as log s, (serverControl (udpServer hz)).Reaches (ServerControl.init UdpServer.boot)
      as log s → StartStopKept (udpServer hz) log s) ∧
    (∀ as log s, (serverControl (tcpServer hz)).Reaches (ServerControl.init TcpServer.boot)
      as log s → StartStopKept (tcpServer hz) log s) :=
  ⟨fun _ _ _ run => startStopKept (udpServer hz) UdpServer.boot run,
    fun _ _ _ run => startStopKept (tcpServer hz) TcpServer.boot run⟩

/-- A start, a run that obtains a socket, and a stop. -/
theorem server_start_stop_one_run :
    ∃ log s, (serverControl (tcpServer 1000)).Reaches (ServerControl.init TcpServer.boot)
      (.call (.download ⟨1, 2, 5001, []⟩) :: List.replicate 7 .controller ++
        List.replicate 2 (.thread ⟨3, fun _ => .zero, .inet 0 0, 0, 0⟩) ++
        [.call .stop, .controller, .controller]) log s ∧
      StartStopKept (tcpServer 1000) log s := by
  have run := (serverControl (tcpServer 1000)).reaches_of_isSome
    (ServerControl.init TcpServer.boot)
    (.call (.download ⟨1, 2, 5001, []⟩) :: List.replicate 7 .controller ++
      List.replicate 2 (.thread ⟨3, fun _ => .zero, .inet 0 0, 0, 0⟩) ++
      [.call .stop, .controller, .controller]) (by decide +kernel)
  exact ⟨_, _, run, (server_start_stop 1000).2 _ _ _ run⟩

end Zperf
