import Zperf.Properties.TcpReport
import Zperf.Properties.Timestamps

/-!
The duration that a TCP session ends with.

The start is the second tick count of the first call, the end the first of the last. If
the end of file is the first that comes of a peer the two are the same call: the start is
read after the end, and the negative difference is taken for an unsigned one.
-/

namespace Zperf

open Base

/-- The tick count read last in the last call: the second one if that opens the session. -/
def TcpSessionCalls.lastReading {p : Peer} (c : TcpSessionCalls p) : UInt32 :=
  if c.init.isEmpty then c.closer.startTick else c.closer.tick

/-- No reading of the clock is before the one that precedes it. -/
structure ClockForward {p : Peer} (c : TcpSessionCalls p) : Prop where
  within : c.opener.tick.toNat ≤ c.opener.startTick.toNat
  between : c.init ≠ [] → c.opener.startTick.toNat ≤ c.closer.tick.toNat

/-- The one duration that is reported is not longer than the session. -/
def DurationBounded (hz : UInt64) {p : Peer} (c : TcpSessionCalls p) (out : List Event) : Prop :=
  ∃ results, finishedResults out = [results] ∧
    results.timeInUs.toNat ≤
      (c.lastReading.toNat - c.opener.tick.toNat) * 1000000 / hz.toNat

/-- What is left of the counter's period without `gap` ticks takes, in microseconds modulo
`2 ^ 32`, no longer than the gap. -/
def RestWithin (hz : UInt64) (gap : Nat) : Prop :=
  (2 ^ 32 - gap) * 1000000 / hz.toNat % 2 ^ 32 ≤ gap * 1000000 / hz.toNat

theorem ticksArg_elapsed (a b : UInt32) :
    ticksArg (kUptimeTicks b - kUptimeTicks a) = b - a := by
  have widened : (kUptimeTicks b - kUptimeTicks a).toUInt64 = b.toUInt64 - a.toUInt64 := rfl
  rw [ticksArg, widened, UInt64.toUInt32_sub, UInt32.toUInt32_toUInt64,
    UInt32.toUInt32_toUInt64]

theorem timeInUs_tcpReport (hz : UInt64) (start : UInt32) (n : Nat) (tick : UInt32) :
    (tcpReport hz start n tick).timeInUs.toNat =
      (tick - start).toNat * 1000000 / hz.toNat % 2 ^ 32 := by
  have reported : (tcpReport hz start n tick).timeInUs =
      kTicksToUsCeil32 hz (ticksArg (kUptimeTicks tick - kUptimeTicks start)) := rfl
  rw [reported, ticksArg_elapsed, toNat_kTicksToUsCeil32]

theorem timeInUs_forward {hz : UInt64} {first start tick : UInt32} {n : Nat}
    (late : first.toNat ≤ start.toNat) (forward : start.toNat ≤ tick.toNat) :
    (tcpReport hz start n tick).timeInUs.toNat ≤
      (tick.toNat - first.toNat) * 1000000 / hz.toNat := by
  have elapsed : (tick - start).toNat = tick.toNat - start.toNat :=
    UInt32.toNat_sub_of_le _ _ (UInt32.le_iff_toNat_le.mpr forward)
  rw [timeInUs_tcpReport, elapsed]
  apply (Nat.mod_le _ _).trans
  apply Nat.div_le_div_right
  omega

/-- An end of file that opens its session is reported to have taken the rest of the
counter's period. -/
theorem timeInUs_backward {hz : UInt64} {start tick : UInt32} {n : Nat}
    (backward : tick.toNat < start.toNat) :
    (tcpReport hz start n tick).timeInUs.toNat =
      (2 ^ 32 - (start.toNat - tick.toNat)) * 1000000 / hz.toNat % 2 ^ 32 := by
  have bound := start.toNat_lt
  have wrapped : (tick - start).toNat = 2 ^ 32 - (start.toNat - tick.toNat) := by
    rw [UInt32.toNat_sub]
    omega
  rw [timeInUs_tcpReport, wrapped]

/-- A session that an end of file opens, by the two readings of that call. -/
theorem timeInUs_oneCall_iff {hz : UInt64} {start tick : UInt32} {n : Nat}
    (late : tick.toNat ≤ start.toNat) :
    (tcpReport hz start n tick).timeInUs.toNat ≤
        (start.toNat - tick.toNat) * 1000000 / hz.toNat ↔
      start = tick ∨ RestWithin hz (start.toNat - tick.toNat) := by
  by_cases same : start = tick
  · rw [timeInUs_tcpReport, same, UInt32.sub_self, UInt32.toNat_zero, Nat.zero_mul, Nat.zero_div]
    exact ⟨fun _ => .inl rfl, fun _ => Nat.zero_le _⟩
  · have differ : start.toNat ≠ tick.toNat := fun eq => same (UInt32.toNat_inj.mp eq)
    rw [timeInUs_backward (by omega)]
    exact ⟨.inr, fun apart => apart.resolve_left same⟩

/-- A session is reported no longer than it was unless an end of file opens it between two
ticks, and then only if the rest of the counter's period is no longer either. -/
theorem durationBounded_iff (hz : UInt64) {p : Peer} (c : TcpSessionCalls p)
    (past : List TcpArrival) (out out' : List Event) (row mid : Row)
    (reach : (tcpReceiver hz true).Reaches bootRow past out row) (opens : OpensFor row p)
    (run : (tcpReceiver hz true).Reaches row c.init out' mid) (clock : ClockForward c) :
    DurationBounded hz c (tcpReceived hz true mid c.closer).1 ↔
      c.opener.datalen ≠ 0 ∨ c.opener.startTick = c.opener.tick ∨
        RestWithin hz (c.opener.startTick.toNat - c.opener.tick.toNat) := by
  have reported : DurationBounded hz c (tcpReceived hz true mid c.closer).1 ↔
      (tcpReport hz c.opener.startTick c.total c.closer.tick).timeInUs.toNat ≤
        (c.lastReading.toNat - c.opener.tick.toNat) * 1000000 / hz.toNat := by
    simp [DurationBounded, c.report reach opens run]
  rw [reported]
  have first : c.opener = c.init.headD c.closer := rfl
  cases init : c.init with
  | nil =>
      -- The closing call is the opening one.
      have same : c.opener = c.closer := by rw [first, init]; rfl
      have last : c.lastReading = c.opener.startTick := by
        rw [TcpSessionCalls.lastReading, init, same]
        rfl
      have eof : ¬ c.opener.datalen ≠ 0 := by
        rw [same]
        exact fun data => data c.closes.2
      rw [last, ← same, timeInUs_oneCall_iff clock.within]
      exact ⟨.inr, fun apart => apart.resolve_left eof⟩
  | cons d ds =>
      have head : c.opener = d := by rw [first, init]; rfl
      have data : c.opener.datalen ≠ 0 := by
        rw [head]
        exact c.stays d (by rw [init]; exact List.mem_cons_self) (head ▸ c.opens)
      have last : c.lastReading = c.closer.tick := by
        rw [TcpSessionCalls.lastReading, init]
        rfl
      rw [last]
      exact ⟨fun _ => .inl data,
        fun _ => timeInUs_forward clock.within (clock.between (by simp [init]))⟩

theorem durationBounded_short :
    ∃ out mid, (tcpReceiver 1000 true).Reaches bootRow shortSession.init out mid ∧
      DurationBounded 1000 shortSession
        (tcpReceived 1000 true mid shortSession.closer).1 := by
  have run := (tcpReceiver 1000 true).reaches_of_isSome bootRow shortSession.init
    (by decide +kernel)
  exact ⟨_, _, run, (durationBounded_iff 1000 shortSession [] [] _ bootRow _
    ((Machine.reaches_nil _ _ _ _).mpr ⟨rfl, rfl⟩) (by decide +kernel) run
    ⟨by decide, fun _ => by decide⟩).mpr (.inl (by decide))⟩

/-- A connection that ends before it has sent anything, with a tick in between. -/
def emptySession : TcpSessionCalls uploader where
  init := []
  closer := ⟨some uploader, 0, 5, 6⟩
  opens := rfl
  stays := by simp
  closes := by decide

/-- It has taken one tick, and is reported to have taken almost `2 ^ 32` microseconds. -/
theorem empty_session_reported_long :
    ClockForward emptySession ∧ OpensFor bootRow uploader ∧
      (emptySession.lastReading.toNat - emptySession.opener.tick.toNat) * 1000000 < 2 ^ 32 * 1000 ∧
      ¬ DurationBounded 1000 emptySession (tcpReceived 1000 true bootRow emptySession.closer).1 := by
  have opens : OpensFor bootRow uploader := by decide +kernel
  refine ⟨⟨by decide, fun some => absurd rfl some⟩, opens, by decide, ?_⟩
  intro bounded
  obtain ⟨results, one, short⟩ := bounded
  have start : (tcpReceiver 1000 true).Reaches bootRow [] [] bootRow :=
    (Machine.reaches_nil _ _ _ _).mpr ⟨rfl, rfl⟩
  rw [emptySession.report start opens start] at one
  rw [← List.singleton_inj.mp one, timeInUs_backward (by decide)] at short
  exact absurd short (by decide)

end Zperf
