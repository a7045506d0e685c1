import Zperf.Properties.ServerSockets
import Zperf.Properties.SessionIsolation
import Zperf.Properties.StopProgress

/-!
A session table with no slot left.

Nothing but its own peer ends a session, and nothing resets the table between two runs of a
server. Once every slot is ongoing, the server serves four peers and is silent to all others,
for as long as none of the four ends its session.
-/

namespace Zperf

open Base

/-- Every slot is ongoing. -/
def FullRow (row : Row) : Prop := ∀ i, (row i).state = .ongoing

/-- The table is as full as before, with the same peers. -/
def SamePeers (row row' : Row) : Prop :=
  FullRow row' ∧ ∀ i, (row' i).key = (row i).key

theorem SamePeers.refl {row : Row} (full : FullRow row) : SamePeers row row :=
  ⟨full, fun _ => rfl⟩

theorem SamePeers.of_eq {row row' : Row} (full : FullRow row) (same : row' = row) :
    SamePeers row row' := by
  rw [same]
  exact SamePeers.refl full

theorem SamePeers.trans {row row' row'' : Row} (h : SamePeers row row')
    (h' : SamePeers row' row'') : SamePeers row row'' :=
  ⟨h'.1, fun i => (h'.2 i).trans (h.2 i)⟩

theorem SamePeers.update {row : Row} (full : FullRow row) {i : Fin sessionMax} {s : Session}
    (ongoing : s.state = .ongoing) (key : s.key = (row i).key) :
    SamePeers row (Function.update row i s) := by
  constructor
  · intro j
    by_cases own : j = i
    · rw [own, Function.update_self]
      exact ongoing
    · rw [Function.update_of_ne own]
      exact full j
  · intro j
    by_cases own : j = i
    · rw [own, Function.update_self, key]
    · rw [Function.update_of_ne own]

/-- A full table is searched without being changed. -/
theorem FullRow.getSession {row : Row} (full : FullRow row) (addr : SockAddr) :
    (∃ i p, addr = some p ∧ (row i).key = some p ∧ getSession row addr = (some i, row)) ∨
      getSession row addr = (none, row) := by
  have busy (i : Fin sessionMax) : (row i).isFree = false := by simp [Session.isFree, full i]
  unfold Zperf.getSession
  rcases searchSlots_cases row addr (List.finRange sessionMax) none with
    ⟨i, -, found, own⟩ | ⟨none, -, noFree, -⟩
  · left
    cases addr with
    | none => simp [Session.matchesInet, Session.matchesInet6] at own
    | some p =>
        refine ⟨i, p, rfl, (Session.matches_iff_key _ _).mp own, ?_⟩
        split <;> simp_all
  · right
    have noSlot := noFree.mpr ⟨rfl, fun i _ => busy i⟩
    split <;> simp_all

/-! ### One call -/

/-- The datagram ends the session of its peer. -/
def Arrival.ends (row : Row) (d : Arrival) : Prop :=
  d.short = false ∧ d.isEnd = true ∧ ∃ i, (row i).key = some d.addr

/-- The end of file of a peer with a session. -/
def TcpArrival.ends (row : Row) (d : TcpArrival) : Prop :=
  d.datalen = 0 ∧ ∃ i p, d.addr = some p ∧ (row i).key = some p

instance (row : Row) : Decidable (FullRow row) := inferInstanceAs (Decidable (∀ _, _))

instance (row : Row) (d : Arrival) : Decidable (d.ends row) :=
  inferInstanceAs (Decidable (_ ∧ _))

theorem FullRow.udpReceived {hz : UInt64} {cb : Bool} {row row' : Row} {d : Arrival}
    {out : List Event} (full : FullRow row) (goesOn : ¬ d.ends row)
    (h : udpReceived hz cb row d = (out, some row')) : out = [] ∧ SamePeers row row' := by
  unfold Zperf.udpReceived at h
  split at h
  · obtain ⟨rfl, rfl⟩ := goesOn_inj h
    exact ⟨rfl, SamePeers.refl full⟩
  · rename_i long
    rw [Bool.not_eq_true] at long
    cases full.getSession (some d.addr) with
    | inl found =>
        obtain ⟨i, p, addr, key, eq⟩ := found
        obtain rfl := Option.some.inj addr
        have data : d.isEnd = false := by
          by_contra isEnd
          exact goesOn ⟨long, by simpa using isEnd, i, key⟩
        have counted : sessionReceived hz cb (row i) d = ([], some (countData hz (row i) d)) := by
          simp [sessionReceived, full i, data]
        rw [eq] at h
        simp only [counted, Option.map_some] at h
        obtain ⟨rfl, rfl⟩ := goesOn_inj h
        exact ⟨rfl, SamePeers.update full ((state_countData hz _ d).trans (full i))
          (key_countData hz _ d)⟩
    | inr refused =>
        rw [refused] at h
        obtain ⟨rfl, rfl⟩ := goesOn_inj h
        exact ⟨rfl, SamePeers.refl full⟩

theorem FullRow.tcpReceived {hz : UInt64} {cb : Bool} {row : Row} {d : TcpArrival}
    (full : FullRow row) (goesOn : ¬ d.ends row) :
    (tcpReceived hz cb row d).1 = [] ∧ SamePeers row (tcpReceived hz cb row d).2 := by
  unfold Zperf.tcpReceived
  cases full.getSession d.addr with
  | inl found =>
      obtain ⟨i, p, addr, key, eq⟩ := found
      have data : d.datalen ≠ 0 := fun eof => goesOn ⟨eof, i, p, addr, key⟩
      have counted : tcpSessionReceived hz cb (row i) d =
          ([], updateCounter (row i) d.datalen.toNat) := by
        simp [tcpSessionReceived, full i, tcpOngoing, data]
      rw [eq]
      simp only [counted]
      exact ⟨trivial, SamePeers.update full (full i) rfl⟩
  | inr refused =>
      rw [refused]
      exact ⟨rfl, SamePeers.refl full⟩

/-! ### All runs of a server -/

section Rule

variable {σ α δ : Type}

/-- Of what a session hands out, all but error callbacks comes from its calls of
`udp_received` or `tcp_received`, which alone touch the row. -/
structure RowRule (S : ServerSession σ α δ) (row : σ → Row)
    (receive : Bool → Row → δ → List Event × Option Row) : Prop where
  enter : ∀ s, row (S.enter s) = row s
  step : ∀ stop cb s r events t, S.step stop cb s r = (events, some t) →
    (calls events = [] ∧ (∀ e, .out e ∈ events → e = .sessionCb .error) ∧ row t = row s) ∨
      ∃ d out, calls events = [d] ∧
        (∀ e, .out e ∈ events → e = .sessionCb .error ∨ e ∈ out) ∧
        receive cb (row s) d = (out, some (row t))

/-- A call that does not end a session of a full table is silent, and which call ends one
depends on the peers alone. -/
structure KeepsFull (receive : Bool → Row → δ → List Event × Option Row)
    (ends : Row → δ → Prop) : Prop where
  call : ∀ cb row d out row', FullRow row → ¬ ends row d →
    receive cb row d = (out, some row') → out = [] ∧ SamePeers row row'
  peers : ∀ row row' d, SamePeers row row' → ends row' d → ends row d

theorem RowRule.locked {S : ServerSession σ α δ} {row : σ → Row}
    {receive : Bool → Row → δ → List Event × Option Row} (rule : RowRule S row receive)
    {ends : Row → δ → Prop} (keeps : KeepsFull receive ends) {s t : ServerControl σ}
    {a : ControlStep α} {out : List (ControlEvent δ)} (full : FullRow (row s.session))
    (step : (serverControl S).step s a = (out, some t))
    (goesOn : ∀ d ∈ calls (serverEvents out), ¬ ends (row s.session) d) :
    SamePeers (row s.session) (row t.session) ∧
      ∀ e, .session (.out e) ∈ out → e = .sessionCb .error := by
  cases a with
  | call c =>
      obtain ⟨rfl, rfl⟩ := goesOn_inj step
      obtain ⟨-, session, -⟩ := call_frame (δ := δ) s c []
      refine ⟨SamePeers.of_eq full (congrArg row session), ?_⟩
      unfold beginCall
      split
      · split <;> simp
      · split <;> simp
      · simp
  | controller =>
      obtain ⟨rfl, rfl⟩ := goesOn_inj step
      obtain ⟨-, session, -⟩ := controllerStep_frame (δ := δ) s []
      refine ⟨SamePeers.of_eq full (congrArg row session), ?_⟩
      unfold controllerStep
      cases s.controller <;> simp
  | thread outcome =>
      cases receiverThread_step step with
      | blocked waiting none => exact ⟨SamePeers.refl full, by simp⟩
      | begun waiting some =>
          refine ⟨?_, by simp⟩
          dsimp only
          rw [rule.enter]
          exact SamePeers.refl full
      | cleared serving returned => exact ⟨SamePeers.refl full, by simp⟩
      | session serving returned events session moved =>
          rw [serverEvents_session] at goesOn
          cases rule.step _ _ _ _ _ _ moved with
          | inl quiet =>
              obtain ⟨-, errors, same⟩ := quiet
              refine ⟨SamePeers.of_eq full same, ?_⟩
              intro e handed
              exact errors e (by simpa using handed)
          | inr called =>
              obtain ⟨d, out', one, from_, received⟩ := called
              obtain ⟨rfl, same⟩ := keeps.call _ _ d _ _ full (goesOn d (by simp [one])) received
              refine ⟨same, ?_⟩
              intro e handed
              simpa using from_ e (by simpa using handed)

theorem RowRule.locked_run {S : ServerSession σ α δ} {row : σ → Row}
    {receive : Bool → Row → δ → List Event × Option Row} (rule : RowRule S row receive)
    {ends : Row → δ → Prop} (keeps : KeepsFull receive ends) {s t : ServerControl σ}
    {as : List (ControlStep α)} {out : List (ControlEvent δ)} (full : FullRow (row s.session))
    (run : (serverControl S).Reaches s as out t)
    (goesOn : ∀ d ∈ calls (serverEvents out), ¬ ends (row s.session) d) :
    SamePeers (row s.session) (row t.session) ∧
      ∀ e, .session (.out e) ∈ out → e = .sessionCb .error := by
  have kept := @Machine.Reaches.invariant _ _ _ (serverControl S)
    (fun _ log u => (∀ d ∈ calls (serverEvents log), ¬ ends (row s.session) d) →
      SamePeers (row s.session) (row u.session) ∧
        ∀ e, .session (.out e) ∈ log → e = .sessionCb .error)
    (fun _ log u a out v before step goesOn => by
      rw [serverEvents_append, calls_append, List.forall_mem_append] at goesOn
      obtain ⟨same, errors⟩ := before goesOn.1
      have here := rule.locked keeps same.1 step fun d hd ends =>
        goesOn.2 d hd (keeps.peers _ _ d same ends)
      refine ⟨same.trans here.1, ?_⟩
      intro e handed
      cases List.mem_append.mp handed with
      | inl earlier => exact errors e earlier
      | inr now => exact here.2 e now)
    s t [] as [] out (fun _ => ⟨SamePeers.refl full, by simp⟩) run
  exact kept goesOn

end Rule

/-! ### The two servers -/

/-- Events that are no call and hand out nothing but errors. -/
structure HandsNone {δ : Type} (events : List (ServerEvent δ)) : Prop where
  calls : calls events = []
  errors : ∀ e, .out e ∈ events → e = .sessionCb .error

theorem HandsNone.nil {δ : Type} : HandsNone ([] : List (ServerEvent δ)) := ⟨rfl, by simp⟩

theorem HandsNone.closeAll {δ : Type} {n : Nat} (fd : Fin n → Int32) :
    HandsNone (closeAll fd : List (ServerEvent δ)) :=
  ⟨calls_closeAll fd, fun e handed => absurd handed (closeAll_silent fd e)⟩

theorem HandsNone.error {δ : Type} {n : Nat} (cb : Bool) (fd : Fin n → Int32) :
    HandsNone (sessionErrorReport cb ++ Zperf.closeAll fd : List (ServerEvent δ)) where
  calls := by rw [calls_append, sessionErrorReport, calls_out, calls_closeAll, List.nil_append]
  errors _ handed := mem_error handed

theorem udpRowRule (hz : UInt64) :
    RowRule (udpServer hz) UdpServer.row (udpReceived hz) where
  enter _ := rfl
  step stop cb s r events t step := by
    have quiet {events' : List (ServerEvent Arrival)} {t' : UdpServer}
        (eq : (events', some t') = (events, some t)) (none : HandsNone events')
        (row : t'.row = s.row) :
        (calls events = [] ∧ (∀ e, .out e ∈ events → e = .sessionCb .error) ∧ t.row = s.row) ∨
          ∃ d out, calls events = [d] ∧
            (∀ e, .out e ∈ events → e = .sessionCb .error ∨ e ∈ out) ∧
            udpReceived hz cb s.row d = (out, some t.row) := by
      obtain ⟨rfl, rfl⟩ := goesOn_inj eq
      exact .inl ⟨none.calls, none.errors, row⟩
    change udpServerSession hz stop cb s r = (events, some t) at step
    unfold udpServerSession at step
    cases pc : s.pc with
    | socket i =>
        rw [pc] at step
        dsimp only at step
        split at step
        · exact quiet step (HandsNone.error cb _) rfl
        · exact quiet step ⟨rfl, by simp⟩ rfl
    | bind i =>
        rw [pc] at step
        dsimp only at step
        split at step
        · exact quiet step (HandsNone.error cb _) rfl
        · exact quiet step HandsNone.nil rfl
    | poll =>
        rw [pc] at step
        dsimp only at step
        split at step
        · exact quiet step (HandsNone.error cb _) rfl
        · split at step
          · exact quiet step (HandsNone.closeAll _) rfl
          · split at step
            · exact quiet step HandsNone.nil rfl
            · exact quiet step HandsNone.nil rfl
    | entry i =>
        rw [pc] at step
        dsimp only at step
        split at step
        · exact quiet step (HandsNone.error cb _) rfl
        · split at step
          · exact quiet step HandsNone.nil rfl
          · unfold UdpServer.recvfrom at step
            split at step
            · exact quiet step (HandsNone.error cb _) rfl
            · obtain ⟨rfl, next⟩ := Prod.mk.inj step
              obtain ⟨row, hrow, rfl⟩ := Option.map_eq_some_iff.mp next
              refine .inr ⟨_, _, congrArg (List.cons _) (calls_out _), ?_, Prod.ext rfl hrow⟩
              intro e handed
              exact .inr (by simpa using handed)
    | returned =>
        rw [pc] at step
        exact quiet step HandsNone.nil rfl

theorem tcpRowRule (hz : UInt64) : RowRule (tcpServer hz) TcpServer.row
    (fun cb row d => ((tcpReceived hz cb row d).1, some (tcpReceived hz cb row d).2)) where
  enter _ := rfl
  step stop cb s r events t step := by
    obtain ⟨rfl, rfl⟩ := goesOn_inj step
    unfold tcpServerSession
    cases pc : s.pc with
    | socket i =>
        dsimp only
        split
        · exact .inl ⟨(HandsNone.error cb _).calls, (HandsNone.error cb _).errors, rfl⟩
        · exact .inl ⟨rfl, by simp, rfl⟩
    | bind i | listen i =>
        dsimp only
        split
        · exact .inl ⟨(HandsNone.error cb _).calls, (HandsNone.error cb _).errors, rfl⟩
        · exact .inl ⟨rfl, by simp, rfl⟩
    | poll =>
        dsimp only
        split
        · exact .inl ⟨(HandsNone.error cb _).calls, (HandsNone.error cb _).errors, rfl⟩
        · split
          · exact .inl ⟨(HandsNone.closeAll _).calls, (HandsNone.closeAll _).errors, rfl⟩
          · split <;> exact .inl ⟨rfl, by simp, rfl⟩
    | entry i =>
        dsimp only
        split
        · exact .inl ⟨(HandsNone.error cb _).calls, (HandsNone.error cb _).errors, rfl⟩
        · split
          · exact .inl ⟨rfl, by simp, rfl⟩
          · split
            · unfold TcpServer.accept
              split
              · exact .inl ⟨(HandsNone.error cb _).calls, (HandsNone.error cb _).errors, rfl⟩
              · split <;> exact .inl ⟨rfl, by simp, rfl⟩
            · have called := calls_recv hz cb s i r
              refine .inr ⟨_, _, called.1, ?_, Prod.ext rfl (congrArg some called.2.symm)⟩
              intro e handed
              exact recv_out handed
    | returned => exact .inl ⟨rfl, by simp, rfl⟩

theorem udpKeepsFull (hz : UInt64) : KeepsFull (udpReceived hz) Arrival.ends where
  call _ _ _ _ _ full goesOn received := full.udpReceived goesOn received
  peers row row' d same := by
    rintro ⟨long, isEnd, i, key⟩
    exact ⟨long, isEnd, i, by rw [← same.2 i, key]⟩

theorem tcpKeepsFull (hz : UInt64) : KeepsFull
    (fun cb row d => ((tcpReceived hz cb row d).1, some (tcpReceived hz cb row d).2))
    TcpArrival.ends where
  call _ _ _ _ _ full goesOn received := by
    obtain ⟨rfl, rfl⟩ := goesOn_inj received
    exact full.tcpReceived goesOn
  peers row row' d same := by
    rintro ⟨eof, i, p, addr, key⟩
    exact ⟨eof, i, p, addr, by rw [← same.2 i, key]⟩

/-- From a table with no slot left, in every run of either server with all its stops and
starts: if none of the four peers ends its session, then the table keeps the same four, and
nothing is sent and nothing but errors reported to the callback. -/
theorem full_table_locks_out (hz : UInt64) :
    (∀ s as out t, FullRow s.session.row → (serverControl (udpServer hz)).Reaches s as out t →
      (∀ d ∈ calls (serverEvents out), ¬ d.ends s.session.row) →
      SamePeers s.session.row t.session.row ∧
        ∀ e, .session (.out e) ∈ out → e = .sessionCb .error) ∧
    (∀ s as out t, FullRow s.session.row → (serverControl (tcpServer hz)).Reaches s as out t →
      (∀ d ∈ calls (serverEvents out), ¬ d.ends s.session.row) →
      SamePeers s.session.row t.session.row ∧
        ∀ e, .session (.out e) ∈ out → e = .sessionCb .error) :=
  ⟨fun _ _ _ _ full run goesOn => (udpRowRule hz).locked_run (udpKeepsFull hz) full run goesOn,
    fun _ _ _ _ full run goesOn => (tcpRowRule hz).locked_run (tcpKeepsFull hz) full run goesOn⟩

/-- The steps of a poll that finds a datagram from the peer with the port `port`. -/
def udpPass (port : UInt16) (data : List UInt8) : List (ControlStep UdpOutcome) :=
  [udpThread 1 [],
    .thread ⟨12, fun i => ⟨false, false, i = 0⟩, .inet port 0x0A000002, data, 5⟩,
    udpThread 0 []]

/-- Four peers have each sent one datagram. The server is stopped and started again, and a
fifth peer sends data and the end of its session. -/
theorem full_table_locks_out_fifth_peer :
    let m := serverControl (udpServer 1000)
    let start := ServerControl.init UdpServer.boot
    let begin := .call (.download ⟨1, 2, 5001, []⟩) :: List.replicate 7 .controller ++
      [udpThread 0 [], udpThread 3 [], udpThread 0 [], udpThread 4 [], udpThread 0 []]
    let four := [6000, 6001, 6002, 6003].flatMap fun port => udpPass port (udpHeader 1)
    let stop := [.call .stop, .controller, .controller, udpThread 0 [], udpThread 0 []]
    let fifth := udpPass 6004 (udpHeader 1) ++ udpPass 6004 (udpHeader 0xFE)
    let s := (m.run start (begin ++ four)).2.getD start
    ∃ log t, m.Reaches s (stop ++ begin ++ fifth) log t ∧
      SamePeers s.session.row t.session.row ∧
      ∀ e, .session (.out e) ∈ log → e = .sessionCb .error := by
  intro m start begin four stop fifth s
  have run := m.reaches_of_isSome s (stop ++ begin ++ fifth) (by decide +kernel)
  have others : ∀ d ∈ calls (serverEvents (m.run s (stop ++ begin ++ fifth)).1),
      ¬ d.ends s.session.row := by decide +kernel
  exact ⟨_, _, run, (full_table_locks_out 1000).1 s _ _ _ (by decide +kernel) run others⟩

end Zperf
