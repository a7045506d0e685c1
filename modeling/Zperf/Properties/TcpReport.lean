import Mathlib.Algebra.GroupWithZero.Nat
import Zperf.Properties.SessionIsolation
import Zperf.Properties.TcpSession

/-!
The results that a TCP session ends with.

From the call that opens it to the end of file, a session is alone in its slot: what other
peers' calls change are other slots. Its length is the sum over its own calls, its start
the second tick count of the first call. The results narrow the one to 32 bits and count
the other from the first tick count of the last call.
-/

namespace Zperf

open Base

/-- The bytes of `p` in calls of `tcp_received`. -/
def bytesFrom (p : Peer) (ds : List TcpArrival) : Nat :=
  ((ds.filter fun d => d.addr = some p).map fun d => d.datalen.toNat).sum

/-- The calls from the one that opens a session of `p` to the first end of file of `p`,
with calls for others in between. -/
structure TcpSessionCalls (p : Peer) where
  init : List TcpArrival
  closer : TcpArrival
  opens : (init.headD closer).addr = some p
  stays : ∀ d ∈ init, d.addr = some p → d.datalen ≠ 0
  closes : closer.addr = some p ∧ closer.datalen = 0

def TcpSessionCalls.opener {p : Peer} (c : TcpSessionCalls p) : TcpArrival :=
  c.init.headD c.closer

def TcpSessionCalls.total {p : Peer} (c : TcpSessionCalls p) : Nat :=
  bytesFrom p (c.init ++ [c.closer])

/-- A call for `p` opens a session: none is ongoing for `p`, and there is a slot. -/
def OpensFor (row : Row) (p : Peer) : Prop :=
  (∀ i, ¬ OngoingFor row p i) ∧ (getSession row (some p)).1.isSome

instance (row : Row) (p : Peer) : Decidable (OpensFor row p) :=
  inferInstanceAs (Decidable (_ ∧ _))

def Event.finishedResults : Event → Option Results
  | .sessionCb (.finished results) => some results
  | .sessionCb .started | .sessionCb .error | .sendto _ _ => none

/-- The results handed to the session callback with `ZPERF_SESSION_FINISHED`. -/
def finishedResults (out : List Event) : List Results := out.filterMap Event.finishedResults

/-- The results of a session that was opened at `start` and of which `n` bytes have come,
when it is ended at `tick`. -/
def tcpReport (hz : UInt64) (start : UInt32) (n : Nat) (tick : UInt32) : Results :=
  { Results.zero with
    totalLen := (UInt64.ofNat n).toUInt32
    timeInUs := kTicksToUsCeil32 hz (ticksArg (kUptimeTicks tick - kUptimeTicks start)) }

/-- A session of `p` is ongoing that was opened at `start`, and `n` bytes of it have
come. -/
def SessionAt (p : Peer) (start : UInt32) (n : Nat) (row : Row) : Prop :=
  ∃ i, OngoingFor row p i ∧ (row i).startTime = kUptimeTicks start ∧
    (row i).length = UInt64.ofNat n

theorem bytesFrom_cons_own {p : Peer} {d : TcpArrival} (ds : List TcpArrival)
    (own : d.addr = some p) : bytesFrom p (d :: ds) = d.datalen.toNat + bytesFrom p ds := by
  simp [bytesFrom, own]

theorem bytesFrom_cons_other {p : Peer} {d : TcpArrival} (ds : List TcpArrival)
    (other : d.addr ≠ some p) : bytesFrom p (d :: ds) = bytesFrom p ds := by
  simp [bytesFrom, other]

theorem getSession_own {row : Row} (apart : KeysApart row) (settled : Settled row) {p : Peer}
    {i : Fin sessionMax} (ongoing : OngoingFor row p i) :
    getSession row (some p) = (some i, row) := by
  cases getSession_cases row settled p with
  | inl found =>
      obtain ⟨j, grant, eq⟩ := found
      have key : (row j).key = some p := by
        cases grant with
        | inl key => exact key
        | inr missing => exact absurd ongoing.1 (missing.1 i)
      obtain rfl := apart j i p key ongoing.1
      rw [eq, Session.assign_of_key _ _ key, Function.update_eq_self]
  | inr refused => exact absurd ongoing.1 (refused.1.1 i)

/-- An address of no IP family takes a slot that is free, and writes no key in it. -/
theorem getSession_unspec (row : Row) :
    getSession row none = (none, row) ∨
      ∃ j, getSession row none = (some j, row) ∧ (row j).isFree = true := by
  cases searchSlots_cases row none (List.finRange sessionMax) none with
  | inl found =>
      obtain ⟨i, -, -, known⟩ := found
      simp [Session.matchesInet, Session.matchesInet6] at known
  | inr missing =>
      obtain ⟨none', -, -, free⟩ := missing
      unfold getSession
      cases search : searchSlots row none (List.finRange sessionMax) none with
      | mk active first =>
          rw [search] at none' free
          obtain rfl : active = none := none'
          cases first with
          | none => exact .inl rfl
          | some j =>
              have same : (row j).assign none = row j := rfl
              refine .inr ⟨j, ?_, by simpa using free j rfl⟩
              simp only [same, Function.update_eq_self]

theorem OngoingFor.not_free {row : Row} {p : Peer} {i : Fin sessionMax}
    (h : OngoingFor row p i) : (row i).isFree = false := by
  simp [Session.isFree, h.2]

/-- Calls for others leave the slot of an ongoing session as it is. -/
theorem tcpReceived_other (hz : UInt64) (cb : Bool) {row : Row} (settled : Settled row)
    {d : TcpArrival} {p : Peer} {i : Fin sessionMax} (ongoing : OngoingFor row p i)
    (other : d.addr ≠ some p) : (tcpReceived hz cb row d).2 i = row i := by
  cases addr : d.addr with
  | none =>
      unfold tcpReceived
      rw [addr]
      cases getSession_unspec row with
      | inl refused => rw [refused]
      | inr found =>
          obtain ⟨j, eq, free⟩ := found
          have ne : i ≠ j := by
            intro same
            rw [← same, ongoing.not_free] at free
            exact Bool.false_ne_true free
          rw [eq]
          exact Function.update_of_ne ne _ _
  | some q =>
      have apart : q ≠ p := fun same => other (by rw [addr, same])
      cases tcpReceived_cases hz cb settled addr with
      | inl refused => rw [refused.2.2]
      | inr found =>
          obtain ⟨j, s', grant, -, -, eq⟩ := found
          have ne : i ≠ j := by
            intro same
            subst same
            cases grant with
            | inl key => exact apart (Option.some.inj (key.symm.trans ongoing.1))
            | inr missing => exact Session.open_eq_none.mp missing.2 ongoing.2
          rw [eq]
          exact Function.update_of_ne ne _ _

theorem tcpReceived_own (hz : UInt64) (cb : Bool) {row : Row} (apart : KeysApart row)
    (settled : Settled row) {d : TcpArrival} {p : Peer} {i : Fin sessionMax}
    (ongoing : OngoingFor row p i) (own : d.addr = some p) :
    tcpReceived hz cb row d = ((tcpOngoing hz cb (row i) d).1,
      Function.update row i (tcpOngoing hz cb (row i) d).2) := by
  have switch : tcpSessionReceived hz cb (row i) d = tcpOngoing hz cb (row i) d := by
    rw [tcpSessionReceived, ongoing.2]
  rw [tcpReceived, own, getSession_own apart settled ongoing]
  simp only [switch]

theorem tcpReceived_opening (hz : UInt64) (cb : Bool) {row : Row} (settled : Settled row)
    {d : TcpArrival} {p : Peer} (opens : OpensFor row p) (own : d.addr = some p) :
    ∃ i s, s.key = some p ∧ tcpReceived hz cb row d =
      (callSessionCb cb .started ++ (tcpOngoing hz cb (startTcpSession s d) d).1,
        Function.update row i (tcpOngoing hz cb (startTcpSession s d) d).2) := by
  cases getSession_cases row settled p with
  | inl found =>
      obtain ⟨i, grant, eq⟩ := found
      have closed : (row i).state ≠ .ongoing := by
        cases grant with
        | inl key => exact fun ongoing => opens.1 i ⟨key, ongoing⟩
        | inr missing => exact Session.open_eq_none.mp missing.2
      have switch : tcpSessionReceived hz cb ((row i).assign (some p)) d =
          (callSessionCb cb .started ++
              (tcpOngoing hz cb (startTcpSession ((row i).assign (some p)) d) d).1,
            (tcpOngoing hz cb (startTcpSession ((row i).assign (some p)) d) d).2) := by
        have sets := settled i
        unfold tcpSessionReceived
        rw [Session.state_assign]
        cases state : (row i).state with
        | null | completed => rfl
        | ongoing => exact absurd state closed
        | lastPacketReceived => exact absurd state sets
      refine ⟨i, (row i).assign (some p), Session.key_assign _ _, ?_⟩
      rw [tcpReceived, own, eq]
      simp only [Function.update_self, Function.update_idem, switch]
  | inr refused =>
      have granted := opens.2
      rw [refused.2] at granted
      exact absurd granted (by simp)

theorem tcpOngoing_data (hz : UInt64) (cb : Bool) (s : Session) {d : TcpArrival}
    (data : d.datalen ≠ 0) :
    tcpOngoing hz cb s d = ([], updateCounter s d.datalen.toNat) := by
  unfold tcpOngoing
  dsimp only
  rw [if_neg data]

theorem finishedResults_eof (hz : UInt64) {s : Session} {d : TcpArrival} {start : UInt32} {n : Nat}
    (startTime : s.startTime = kUptimeTicks start) (length : s.length = UInt64.ofNat n)
    (eof : d.datalen = 0) :
    finishedResults (tcpOngoing hz true s d).1 = [tcpReport hz start n d.tick] := by
  have results : tcpResults hz (updateCounter s 0) d.tick = tcpReport hz start n d.tick := by
    have total : (updateCounter s 0).length = UInt64.ofNat n := by
      rw [← length]
      exact UInt64.add_zero s.length
    have began : (updateCounter s 0).startTime = kUptimeTicks start := startTime
    unfold tcpResults tcpReport sessionDuration
    rw [total, began]
  unfold tcpOngoing
  dsimp only
  rw [if_pos eof, eof, show (0 : UInt32).toNat = 0 from rfl, results]
  rfl

namespace SessionAt

variable {hz : UInt64} {cb : Bool} {row : Row} {p : Peer} {start : UInt32} {n : Nat}
  {d : TcpArrival}

theorem of_update {i : Fin sessionMax} {s : Session} (key : s.key = some p)
    (ongoing : s.state = .ongoing) (startTime : s.startTime = kUptimeTicks start)
    (length : s.length = UInt64.ofNat n) : SessionAt p start n (Function.update row i s) := by
  refine ⟨i, ?_, ?_, ?_⟩
  · unfold OngoingFor
    rw [Function.update_self]
    exact ⟨key, ongoing⟩
  · rw [Function.update_self]
    exact startTime
  · rw [Function.update_self]
    exact length

theorem own (h : SessionAt p start n row) (apart : KeysApart row) (settled : Settled row)
    (own : d.addr = some p) (data : d.datalen ≠ 0) :
    SessionAt p start (n + d.datalen.toNat) (tcpReceived hz cb row d).2 := by
  obtain ⟨i, ongoing, startTime, length⟩ := h
  have after : (tcpReceived hz cb row d).2 =
      Function.update row i (updateCounter (row i) d.datalen.toNat) := by
    rw [tcpReceived_own hz cb apart settled ongoing own, tcpOngoing_data hz cb (row i) data]
  have more : (updateCounter (row i) d.datalen.toNat).length =
      UInt64.ofNat (n + d.datalen.toNat) := by
    rw [UInt64.ofNat_add, ← length]
    rfl
  rw [after]
  exact of_update ongoing.1 ongoing.2 startTime more

theorem other (h : SessionAt p start n row) (settled : Settled row)
    (other : d.addr ≠ some p) : SessionAt p start n (tcpReceived hz cb row d).2 := by
  obtain ⟨i, ongoing, startTime, length⟩ := h
  have kept := tcpReceived_other hz cb settled ongoing other
  refine ⟨i, ?_, ?_, ?_⟩
  · unfold OngoingFor
    rw [kept]
    exact ongoing
  · rw [kept]
    exact startTime
  · rw [kept]
    exact length

theorem opened (settled : Settled row) (opens : OpensFor row p)
    (own : d.addr = some p) (data : d.datalen ≠ 0) :
    SessionAt p d.startTick d.datalen.toNat (tcpReceived hz cb row d).2 := by
  obtain ⟨i, s, key, eq⟩ := tcpReceived_opening hz cb settled opens own
  have first : (updateCounter (startTcpSession s d) d.datalen.toNat).length =
      UInt64.ofNat d.datalen.toNat := UInt64.zero_add _
  rw [eq, tcpOngoing_data hz cb _ data]
  exact of_update key rfl rfl first

/-- Over any calls that do not end the session, it takes up the bytes of its own. -/
theorem run (h : SessionAt p start n row) (apart : KeysApart row) (settled : Settled row)
    {ds : List TcpArrival} {out : List Event} {row' : Row}
    (stays : ∀ d ∈ ds, d.addr = some p → d.datalen ≠ 0)
    (run : (tcpReceiver hz cb).Reaches row ds out row') :
    SessionAt p start (n + bytesFrom p ds) row' := by
  induction ds generalizing row n out with
  | nil =>
      obtain ⟨-, rfl⟩ := (Machine.reaches_nil _ _ _ _).mp run
      exact h
  | cons d ds ih =>
      obtain ⟨_, mid, _, step, later, -⟩ := (Machine.reaches_cons _ _ _ _ _ _).mp run
      obtain ⟨-, rfl⟩ := goesOn_inj step
      have kept := apart.tcpReceived settled hz cb d
      have rest : ∀ e ∈ ds, e.addr = some p → e.datalen ≠ 0 :=
        fun e member => stays e (List.mem_cons_of_mem d member)
      by_cases own' : d.addr = some p
      · have next := @own hz cb row p start n d h apart settled own'
          (stays d List.mem_cons_self own')
        rw [bytesFrom_cons_own ds own', ← Nat.add_assoc]
        exact ih next kept.1 kept.2 rest later
      · have next := @other hz cb row p start n d h settled own'
        rw [bytesFrom_cons_other ds own']
        exact ih next kept.1 kept.2 rest later

theorem report (h : SessionAt p start n row) (apart : KeysApart row) (settled : Settled row)
    (own : d.addr = some p) (eof : d.datalen = 0) :
    finishedResults (tcpReceived hz true row d).1 = [tcpReport hz start n d.tick] := by
  obtain ⟨i, ongoing, startTime, length⟩ := h
  rw [tcpReceived_own hz true apart settled ongoing own]
  exact finishedResults_eof hz startTime length eof

end SessionAt

/-- The results of every session, whatever came before it. -/
theorem TcpSessionCalls.report {p : Peer} (c : TcpSessionCalls p) {hz : UInt64}
    {past : List TcpArrival} {out out' : List Event} {row mid : Row}
    (reach : (tcpReceiver hz true).Reaches bootRow past out row) (opens : OpensFor row p)
    (run : (tcpReceiver hz true).Reaches row c.init out' mid) :
    finishedResults (tcpReceived hz true mid c.closer).1 =
      [tcpReport hz c.opener.startTick c.total c.closer.tick] := by
  obtain ⟨apart, settled⟩ :=
    tcpReceiver_keysApart bootRow_ok.keysApart bootRow_ok.settled reach
  have closer := c.closes.1
  have eof := c.closes.2
  have last : bytesFrom p [c.closer] = 0 := by
    rw [bytesFrom_cons_own [] closer, eof]
    rfl
  have first := c.opens
  unfold TcpSessionCalls.opener TcpSessionCalls.total
  cases init : c.init with
  | nil =>
      rw [init] at run
      obtain ⟨-, rfl⟩ := (Machine.reaches_nil _ _ _ _).mp run
      obtain ⟨i, s, key, eq⟩ := tcpReceived_opening hz true settled opens closer
      rw [eq, List.nil_append, last]
      exact finishedResults_eof hz rfl rfl eof
  | cons d ds =>
      rw [init] at run first
      have own : d.addr = some p := first
      have stays : ∀ e ∈ d :: ds, e.addr = some p → e.datalen ≠ 0 := by
        rw [← init]
        exact c.stays
      obtain ⟨_, next, _, step, later, -⟩ := (Machine.reaches_cons _ _ _ _ _ _).mp run
      obtain ⟨-, rfl⟩ := goesOn_inj step
      have kept := apart.tcpReceived settled hz true d
      have opened := @SessionAt.opened hz true row p d settled opens own
        (stays d List.mem_cons_self own)
      have at' := opened.run kept.1 kept.2
        (fun e member => stays e (List.mem_cons_of_mem d member)) later
      have kept' := tcpReceiver_keysApart kept.1 kept.2 later
      rw [at'.report kept'.1 kept'.2 closer eof]
      have total : bytesFrom p (d :: ds ++ [c.closer]) = d.datalen.toNat + bytesFrom p ds := by
        rw [List.cons_append, bytesFrom_cons_own _ own]
        have split : bytesFrom p (ds ++ [c.closer]) = bytesFrom p ds + bytesFrom p [c.closer] := by
          simp [bytesFrom]
        rw [split, last, Nat.add_zero]
      rw [total]
      rfl

theorem totalLen_tcpReport (hz : UInt64) (start : UInt32) (n : Nat) (tick : UInt32) :
    (tcpReport hz start n tick).totalLen.toNat = n % 2 ^ 32 := by
  have narrowed : (tcpReport hz start n tick).totalLen = (UInt64.ofNat n).toUInt32 := rfl
  rw [narrowed, UInt64.toNat_toUInt32, UInt64.toNat_ofNat']
  omega

/-- A session's total is reported exactly when it fits the 32 bits of the results. -/
theorem totalReported_iff (hz : UInt64) {p : Peer} (c : TcpSessionCalls p)
    (past : List TcpArrival) (out out' : List Event) (row mid : Row)
    (reach : (tcpReceiver hz true).Reaches bootRow past out row) (opens : OpensFor row p)
    (run : (tcpReceiver hz true).Reaches row c.init out' mid) :
    (finishedResults (tcpReceived hz true mid c.closer).1).map
        (fun results => results.totalLen.toNat) = [c.total] ↔ c.total < 2 ^ 32 := by
  rw [c.report reach opens run, List.map_singleton, totalLen_tcpReport, List.singleton_inj]
  omega

/-- The peer of a session, and another. -/
def uploader : Peer := .inet 6000 0x0A000002

def otherUploader : Peer := .inet6 6001 0x20010DB8000000000000000000000002

/-- Two calls with data and the end of file, another peer's call in between. -/
def shortSession : TcpSessionCalls uploader where
  init := [⟨some uploader, 1500, 5, 6⟩, ⟨some otherUploader, 700, 7, 7⟩,
    ⟨some uploader, 200, 8, 8⟩]
  closer := ⟨some uploader, 0, 9, 9⟩
  opens := rfl
  stays := by decide
  closes := by decide

theorem totalReported_short :
    ∃ out mid, (tcpReceiver 1000 true).Reaches bootRow shortSession.init out mid ∧
      (finishedResults (tcpReceived 1000 true mid shortSession.closer).1).map
        (fun results => results.totalLen.toNat) = [shortSession.total] := by
  have run := (tcpReceiver 1000 true).reaches_of_isSome bootRow shortSession.init
    (by decide +kernel)
  exact ⟨_, _, run, (totalReported_iff 1000 shortSession [] [] _ bootRow _
    ((Machine.reaches_nil _ _ _ _).mpr ⟨rfl, rfl⟩) (by decide +kernel) run).mpr (by decide)⟩

/-- A session of `n + 1` calls that bring full buffers. -/
def fullBuffers (n : Nat) : TcpSessionCalls uploader where
  init := List.replicate (n + 1) ⟨some uploader, 1500, 0, 0⟩
  closer := ⟨some uploader, 0, 0, 0⟩
  opens := rfl
  stays d member _ := by
    rw [List.eq_of_mem_replicate member]
    decide
  closes := by decide

theorem total_fullBuffers (n : Nat) : (fullBuffers n).total = (n + 1) * 1500 := by
  have buffer : (1500 : UInt32).toNat = 1500 := rfl
  have eof : (0 : UInt32).toNat = 0 := rfl
  simp [TcpSessionCalls.total, fullBuffers, bytesFrom, buffer, eof]

/-- Of 4294968000 bytes in full buffers 704 are reported. -/
theorem total_truncated :
    ∃ c : TcpSessionCalls uploader, (∀ d ∈ c.init, d.datalen.toNat ≤ 1500) ∧
      OpensFor bootRow uploader ∧ c.total = 4294968000 ∧
      ∃ out mid, (tcpReceiver 1000 true).Reaches bootRow c.init out mid ∧
        (finishedResults (tcpReceived 1000 true mid c.closer).1).map
          (fun results => results.totalLen.toNat) = [704] := by
  obtain ⟨n, calls⟩ : ∃ n, n + 1 = 2863312 := ⟨2863311, rfl⟩
  have total : (fullBuffers n).total = 4294968000 := by
    rw [total_fullBuffers, calls]
  have opens : OpensFor bootRow uploader := by decide +kernel
  obtain ⟨out, mid, run⟩ := ((tcpReceiver 1000 true).exists_reaches_iff bootRow
    (fullBuffers n).init).mpr fun _ _ _ _ _ _ _ => rfl
  refine ⟨fullBuffers n, ?_, opens, total, out, mid, run, ?_⟩
  · intro d member
    rw [List.eq_of_mem_replicate member]
    decide
  · rw [(fullBuffers n).report ((Machine.reaches_nil _ _ _ _).mpr ⟨rfl, rfl⟩) opens run,
      List.map_singleton, totalLen_tcpReport, total]
    rfl

end Zperf
