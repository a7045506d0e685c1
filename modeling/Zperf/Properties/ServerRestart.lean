import Zperf.Properties.StartStop
import Zperf.Properties.TcpConnections

/-!
The session table from one run of a server to the next.

The table outlives the run, and nothing resets it. A run that begins with no session
ongoing has those open that its own calls make; where these have all been ended when
the run ends, the next begins with none again.
-/

namespace Zperf

open Base

section Rule

variable {σ α δ : Type}

/-- The calls of `udp_received` or `tcp_received` since the last run began. -/
def ControlEvent.track (ds : List δ) : ControlEvent δ → List δ
  | .begun => []
  | .session e => ds ++ e.call.toList
  | .accepted _ | .given | .refused | .stopped | .cleared => ds

def ownCalls (log : List (ControlEvent δ)) : List δ := log.foldl ControlEvent.track []

theorem ownCalls_append (log log' : List (ControlEvent δ)) :
    ownCalls (log ++ log') = log'.foldl ControlEvent.track (ownCalls log) :=
  List.foldl_append

theorem track_session (ds : List δ) (events : List (ServerEvent δ)) :
    (events.map ControlEvent.session).foldl ControlEvent.track ds = ds ++ calls events := by
  induction events generalizing ds with
  | nil => simp [calls]
  | cons e events ih =>
      rw [List.map_cons, List.foldl_cons, ih]
      cases e <;> simp [ControlEvent.track, ServerEvent.call, calls, List.filterMap_cons]

/-- Each run ends with the sessions ended that its own calls have opened, by the book. -/
def RunsFinished {κ τ : Type} (book : List δ → Book κ τ) (log : List (ControlEvent δ)) : Prop :=
  ∀ pre post, log = pre ++ .cleared :: post → (book (ownCalls pre)).entries = []

theorem RunsFinished.of_append {κ τ : Type} {book : List δ → Book κ τ}
    {log log' : List (ControlEvent δ)} (h : RunsFinished book (log ++ log')) :
    RunsFinished book log := by
  intro pre post split
  apply h pre (post ++ log')
  rw [split, List.append_assoc, List.cons_append]

/-- The thread's step is one of the session. -/
def SessionStep (S : ServerSession σ α δ) (P : σ → α → Prop) (_ : List (ControlStep α))
    (s : ServerControl σ) : ControlStep α → Prop
  | .thread outcome => s.serving = true → S.returned s.session = false → P s.session outcome
  | .call _ | .controller => True

instance (S : ServerSession σ α δ) (P : σ → α → Prop) [∀ s r, Decidable (P s r)]
    (past : List (ControlStep α)) (s : ServerControl σ) (a : ControlStep α) :
    Decidable (SessionStep S P past s a) :=
  match a with
  | .thread outcome => inferInstanceAs (Decidable
      (s.serving = true → S.returned s.session = false → P s.session outcome))
  | .call _ | .controller => .isTrue trivial

/-- What every run keeps, from its own beginning, if it begins clean: the rule for the
runs of a server one after the other. -/
structure RunRule (S : ServerSession σ α δ) (P : σ → α → Prop) (finished : List δ → Prop)
    (Clean : σ → Prop) (Inv : List δ → σ → Prop) : Prop where
  enter : ∀ s, Clean s → Inv [] (S.enter s)
  step : ∀ ds s stop cb outcome events t, Inv ds s → P s outcome →
    S.step stop cb s outcome = (events, some t) → Inv (ds ++ calls events) t
  ended : ∀ ds s, Inv ds s → finished ds → Clean s

theorem call_frame (s : ServerControl σ) (c : ControlCall) (ds : List δ) :
    (beginCall (δ := δ) s c).2.serving = s.serving ∧
      (beginCall (δ := δ) s c).2.session = s.session ∧
      (beginCall s c).1.foldl ControlEvent.track ds = ds := by
  unfold beginCall
  split
  · split <;> exact ⟨rfl, rfl, rfl⟩
  · split <;> exact ⟨rfl, rfl, rfl⟩
  · exact ⟨rfl, rfl, rfl⟩

theorem controllerStep_frame (s : ServerControl σ) (ds : List δ) :
    (controllerStep (δ := δ) s).2.serving = s.serving ∧
      (controllerStep (δ := δ) s).2.session = s.session ∧
      (controllerStep s).1.foldl ControlEvent.track ds = ds := by
  unfold controllerStep
  cases s.controller <;> exact ⟨rfl, rfl, rfl⟩

/-- What is kept after the events `log`. -/
structure RunKept (Clean : σ → Prop) (Inv : List δ → σ → Prop) (log : List (ControlEvent δ))
    (s : ServerControl σ) : Prop where
  between : s.serving = false → Clean s.session
  during : s.serving = true → Inv (ownCalls log) s.session

theorem RunKept.of_frame {Clean : σ → Prop} {Inv : List δ → σ → Prop}
    {log out : List (ControlEvent δ)} {s t : ServerControl σ} (h : RunKept Clean Inv log s)
    (frame : t.serving = s.serving ∧ t.session = s.session ∧
      out.foldl ControlEvent.track (ownCalls log) = ownCalls log) :
    RunKept Clean Inv (log ++ out) t := by
  obtain ⟨serving, session, same⟩ := frame
  constructor
  · intro waiting
    rw [session]
    exact h.between (serving ▸ waiting)
  · intro busy
    rw [session, ownCalls_append, same]
    exact h.during (serving ▸ busy)

theorem RunRule.kept {S : ServerSession σ α δ} {P : σ → α → Prop} {κ τ : Type}
    {book : List δ → Book κ τ} {Clean : σ → Prop} {Inv : List δ → σ → Prop}
    (rule : RunRule S P (fun ds => (book ds).entries = []) Clean Inv)
    {log out : List (ControlEvent δ)} {past : List (ControlStep α)} {s t : ServerControl σ}
    {a : ControlStep α} (h : RunKept Clean Inv log s) (here : SessionStep S P past s a)
    (step : (serverControl S).step s a = (out, some t))
    (finished : RunsFinished book (log ++ out)) : RunKept Clean Inv (log ++ out) t := by
  cases a with
  | call c =>
      obtain ⟨rfl, rfl⟩ := goesOn_inj step
      exact h.of_frame (call_frame s c _)
  | controller =>
      obtain ⟨rfl, rfl⟩ := goesOn_inj step
      exact h.of_frame (controllerStep_frame s _)
  | thread outcome =>
      cases receiverThread_step step with
      | blocked waiting none =>
          rw [List.append_nil]
          exact h
      | begun waiting some =>
          refine ⟨fun idle => Bool.noConfusion idle, fun _ => ?_⟩
          rw [ownCalls_append]
          exact rule.enter s.session (h.between waiting)
      | cleared serving returned =>
          refine ⟨fun _ => ?_, fun busy => Bool.noConfusion busy⟩
          exact rule.ended _ _ (h.during serving) (finished log [] rfl)
      | session serving returned events session moved =>
          refine ⟨fun idle => Bool.noConfusion (serving.symm.trans idle), fun _ => ?_⟩
          rw [ownCalls_append, track_session]
          exact rule.step _ _ _ _ _ _ _ (h.during serving) (here serving returned) moved

theorem RunRule.reaches {S : ServerSession σ α δ} {P : σ → α → Prop} {κ τ : Type}
    {book : List δ → Book κ τ} {Clean : σ → Prop} {Inv : List δ → σ → Prop}
    (rule : RunRule S P (fun ds => (book ds).entries = []) Clean Inv) {session : σ}
    (clean : Clean session) {as : List (ControlStep α)} {log : List (ControlEvent δ)}
    {s : ServerControl σ} (run : (serverControl S).Reaches (ServerControl.init session) as log s)
    (along : (serverControl S).Along (SessionStep S P) [] (ServerControl.init session) as)
    (finished : RunsFinished book log) : RunKept Clean Inv log s := by
  have start : RunsFinished book [] →
      RunKept Clean Inv ([] : List (ControlEvent δ)) (ServerControl.init session) :=
    fun _ => ⟨fun _ => clean, fun busy => Bool.noConfusion busy⟩
  have kept := @Machine.Reaches.invariant_along _ _ _ (serverControl S) (SessionStep S P)
    (fun _ log s => RunsFinished book log → RunKept Clean Inv log s)
    (fun _ _ _ _ _ _ before here step finished =>
      rule.kept (before finished.of_append) here step finished)
    (ServerControl.init session) s [] as [] log start along run
  exact kept finished

end Rule

/-! ### The two servers -/

/-- A table with no session ongoing. -/
def CleanRow (row : Row) : Prop := RowOk row ∧ sessionReading.Refines row (∅ : Book Peer Stats)

theorem CleanRow.idle {row : Row} (h : CleanRow row) (j : Fin sessionMax) :
    (row j).state ≠ .ongoing := by
  intro busy
  have isOpen : (row j).open? = some (row j).stats := Session.open_eq_some.mpr ⟨busy, rfl⟩
  obtain ⟨p, key⟩ := h.1.wellKeyed.keyed j _ isOpen
  have held := (h.2 p _).mpr ⟨j, key, isOpen⟩
  simp at held

theorem CleanRow.boot : CleanRow bootRow := ⟨bootRow_ok, bootRow_refines⟩

theorem CleanRow.of_empty {row : Row} (ok : RowOk row) {b : Book Peer Stats}
    (ref : sessionReading.Refines row b) (empty : b.entries = []) : CleanRow row := by
  have same : b = ∅ := AList.ext empty
  exact ⟨ok, same ▸ ref⟩

/-- The sessions that calls of `udp_received` leave open, from none. -/
def udpRunBook (hz : UInt64) (ds : List Arrival) : Book Peer Stats := udpBook hz ∅ ds

/-- The sessions that calls of `tcp_received` leave open, from none. -/
def tcpRunBook (ds : List TcpArrival) : Book Peer Stats :=
  ds.foldl (tcpDiscipline.serve (Fintype.card (Fin sessionMax))) ∅

/-- The one step that calls `udp_received`, and that alone touches the row. -/
theorem udpServerSession_calls {hz : UInt64} {stop cb : Bool} {s t : UdpServer} {r : UdpOutcome}
    {events : List (ServerEvent Arrival)}
    (h : udpServerSession hz stop cb s r = (events, some t)) :
    (calls events = [] ∧ t.row = s.row) ∨
      ∃ d out, calls events = [d] ∧ udpReceived hz cb s.row d = (out, some t.row) := by
  have quiet {events' : List (ServerEvent Arrival)} {t' : UdpServer}
      (eq : (events', some t') = (events, some t)) (none : calls events' = [])
      (row : t'.row = s.row) :
      (calls events = [] ∧ t.row = s.row) ∨
        ∃ d out, calls events = [d] ∧ udpReceived hz cb s.row d = (out, some t.row) := by
    obtain ⟨rfl, rfl⟩ := goesOn_inj eq
    exact .inl ⟨none, row⟩
  have closed (s' : UdpServer) : calls (sessionErrorReport cb ++ closeAll s'.fd :
      List (ServerEvent Arrival)) = [] := by
    rw [calls_append, sessionErrorReport, calls_out, calls_closeAll, List.nil_append]
  unfold udpServerSession at h
  cases pc : s.pc with
  | socket i =>
      rw [pc] at h
      dsimp only at h
      split at h
      · exact quiet h (closed _) rfl
      · exact quiet h rfl rfl
  | bind i =>
      rw [pc] at h
      dsimp only at h
      split at h
      · exact quiet h (closed _) rfl
      · exact quiet h rfl rfl
  | poll =>
      rw [pc] at h
      dsimp only at h
      split at h
      · exact quiet h (closed _) rfl
      · split at h
        · exact quiet h (calls_closeAll _) rfl
        · split at h
          · exact quiet h rfl rfl
          · exact quiet h rfl rfl
  | entry i =>
      rw [pc] at h
      dsimp only at h
      split at h
      · exact quiet h (closed _) rfl
      · split at h
        · exact quiet h rfl rfl
        · unfold UdpServer.recvfrom at h
          split at h
          · exact quiet h (closed _) rfl
          · obtain ⟨rfl, next⟩ := Prod.mk.inj h
            obtain ⟨row, hrow, rfl⟩ := Option.map_eq_some_iff.mp next
            exact .inr ⟨_, _, congrArg (List.cons _) (calls_out _), Prod.ext rfl hrow⟩
  | returned =>
      rw [pc] at h
      exact quiet h rfl rfl

theorem udpRunRule (hz : UInt64) : RunRule (udpServer hz) (fun _ _ => True)
    (fun ds => (udpRunBook hz ds).entries = []) (fun s => CleanRow s.row)
    (fun ds s => RowOk s.row ∧ sessionReading.Refines s.row (udpRunBook hz ds)) where
  enter s clean := clean
  step ds s stop cb outcome events t before _ step := by
    obtain ⟨ok, ref⟩ := before
    cases udpServerSession_calls step with
    | inl quiet =>
        rw [quiet.1, quiet.2, List.append_nil]
        exact ⟨ok, ref⟩
    | inr called =>
        obtain ⟨d, out, one, received⟩ := called
        have answers := udpReceived_answers ok.settled received
        refine ⟨⟨answers.2.wellKeyed ok.wellKeyed, answers.1⟩, ?_⟩
        rw [one, udpRunBook, udpBook, List.foldl_append]
        exact answers.2.refines ok.wellKeyed ref
  ended ds s kept empty := CleanRow.of_empty kept.1 kept.2 empty

theorem tcpRunRule (hz : UInt64) : RunRule (tcpServer hz) SkipsFree
    (fun ds => (tcpRunBook ds).entries = []) (fun s => CleanRow s.row)
    (fun ds s => TcpServerOk s ∧ sessionReading.Refines s.row (tcpRunBook ds)) where
  enter s clean := ⟨TcpServerOk.enter clean.1 clean.idle, clean.2⟩
  step ds s stop cb outcome events t before polls step := by
    obtain ⟨ok, ref⟩ := before
    obtain ⟨rfl, rfl⟩ := goesOn_inj step
    refine ⟨ok.step hz stop cb polls, ?_⟩
    cases tcpServerSession_calls hz stop cb s outcome with
    | inl quiet =>
        rw [quiet.1, quiet.2, List.append_nil]
        exact ref
    | inr called =>
        obtain ⟨i, pc, readable, data, one, row⟩ := called
        have h := ok.connections (by simp [pc])
        obtain ⟨p, addr⟩ := h.named i (h.connected pc readable data)
        have arrival : (s.arrival i outcome).addr = some p := addr
        have answers := tcpReceived_answers hz cb ok.row.settled arrival
        rw [one, row, tcpRunBook, List.foldl_append]
        exact answers.2.refines ok.row.wellKeyed ref
  ended ds s kept empty := CleanRow.of_empty kept.1.row kept.2 empty

/-- A step of the UDP thread in which the system returns `ret`; a poll finds data on the
first socket, which is `data` from one peer. -/
def udpThread (ret : Int32) (data : List UInt8) : ControlStep UdpOutcome :=
  .thread ⟨ret, fun i => ⟨false, false, i = 0⟩, .inet 6000 0x0A000002, data, 5⟩

/-- A whole run of the UDP server: it is started, receives the datagrams and is stopped. -/
def udpWholeRun (datagrams : List (List UInt8)) : List (ControlStep UdpOutcome) :=
  .call (.download ⟨1, 2, 5001, []⟩) :: List.replicate 7 .controller ++
    [udpThread 0 [], udpThread 3 [], udpThread 0 [], udpThread 4 [], udpThread 0 []] ++
    datagrams.flatMap (fun data => [udpThread 1 [], udpThread 12 data, udpThread 0 []]) ++
    [.call .stop, .controller, .controller, udpThread 0 [], udpThread 0 []]

/-- A header with the id `id`, and zeros. -/
def udpHeader (id : UInt8) : List UInt8 :=
  [if id < 128 then 0 else 0xFF, if id < 128 then 0 else 0xFF, if id < 128 then 0 else 0xFF,
    id] ++ List.replicate 8 0

/-- One pass of the TCP thread: a poll that finds entry `ready`, whose call returns
`ret`. -/
def tcpPass (ready : Fin tcpSockIdMax) (ret : Int32) : List (ControlStep TcpOutcome) :=
  (1 :: List.replicate 6 ret).map fun ret =>
    .thread ⟨ret, fun i => ⟨false, false, i = ready⟩, .inet 6000 0x0A000002, 5, 5⟩

/-- A whole run of the TCP server: a connection sends 100 bytes and is closed. -/
def tcpWholeRun : List (ControlStep TcpOutcome) :=
  .call (.download ⟨1, 2, 5001, []⟩) :: List.replicate 7 .controller ++
    [0, 3, 0, 0, 4, 0, 0].map
      (fun ret => .thread ⟨ret, fun _ => .zero, .inet 0 0, 0, 0⟩) ++
    tcpPass 0 5 ++ tcpPass 2 100 ++ tcpPass 2 0 ++
    [.call .stop, .controller, .controller] ++
    [0, 0].map (fun ret => .thread ⟨ret, fun _ => .zero, .inet 0 0, 0, 0⟩)

end Zperf
