import Zperf.Properties.SessionIsolation

/-!
When the division by the session's counter traps.

The datagram that opens a session is not counted, so the counter of a session
is the number of its later data datagrams, modulo `2 ^ 32`. That number is told
from the datagrams alone, by the same bounded service with a plain count.
-/

namespace Zperf

open Base

/-- The UDP service with a session that only counts the data after its first. -/
def laterDataRules : Discipline Peer Arrival Nat where
  peer := Arrival.sender
  closes := Arrival.isEnd
  start _ := 0
  next n _ := n + 1

/-- For each open session, the number of data datagrams after its first. -/
def laterData (ds : List Arrival) : Book Peer Nat :=
  ds.foldl (laterDataRules.serve (Fintype.card (Fin sessionMax))) ∅

/-- `session->length / session->counter` is only computed with a counter that is
not zero, whenever these datagrams arrive one after the other. -/
def NeverDividesByZero (hz : UInt64) (cb : Bool) (ds : List Arrival) : Prop :=
  ∀ pre d post out row i, ds = pre ++ d :: post →
    (udpReceiver hz cb).Reaches bootRow pre out row → OngoingFor row d.addr i →
    d.short = false → d.isEnd = true → (row i).counter ≠ 0

theorem counter_checkId (s : Session) (id : Int32) : (checkId s id).counter = s.counter := by
  unfold checkId
  split
  · split <;> rfl
  · rfl

theorem counter_recordTransit (s : Session) (t : Int32) :
    (recordTransit s t).counter = s.counter := rfl

theorem counter_updateCounter (s : Session) (n : Nat) :
    (updateCounter s n).counter = s.counter + 1 := rfl

theorem counter_stats (s : Session) : s.stats.counter = s.counter := rfl

theorem counter_slot (st : Stats) : st.slot.counter = st.counter := rfl

theorem counter_dataStats (hz : UInt64) (st : Stats) (d : Arrival) :
    (dataStats hz st d).counter = st.counter + 1 := by
  rw [dataStats, counter_stats, countData, counter_checkId, counter_recordTransit,
    counter_updateCounter, counter_slot]

theorem udpDiscipline_parallel_laterData (hz : UInt64) :
    (udpDiscipline hz).Parallel laterDataRules fun st n => st.counter = UInt32.ofNat n where
  peer _ := rfl
  closes _ := rfl
  start _ _ := rfl
  next st n d _ h := by
    have counted : ((udpDiscipline hz).next st d).counter = st.counter + 1 :=
      counter_dataStats hz st d
    rw [counted, h, laterDataRules, UInt32.ofNat_add]
    rfl

theorem udpBook_related_laterData (hz : UInt64) (ds : List Arrival) :
    Discipline.Book.Related (fun (st : Stats) n => st.counter = UInt32.ofNat n)
      (udpBook hz ∅ ds) (laterData ds) :=
  (udpDiscipline_parallel_laterData hz).foldl_serve _ ds .empty

theorem ofNat_ne_zero_iff (n : Nat) : UInt32.ofNat n ≠ 0 ↔ ¬ 2 ^ 32 ∣ n := by
  rw [Ne, ← UInt32.toNat_inj, UInt32.toNat_ofNat', Nat.dvd_iff_mod_eq_zero]
  rfl

theorem counter_eq_laterData {hz : UInt64} {cb : Bool} {ds : List Arrival} {out : List Event}
    {row : Row} (run : (udpReceiver hz cb).Reaches bootRow ds out row) {p : Peer} {n : Nat}
    (held : (laterData ds).lookup p = some n) :
    ∃ i, OngoingFor row p i ∧ (row i).counter = UInt32.ofNat n := by
  obtain ⟨st, here, counter⟩ := (udpBook_related_laterData hz ds).right held
  obtain ⟨i, ongoing, rfl⟩ :=
    (holds_iff row p st).mp ((bootRow_ok.refines bootRow_refines run p st).mp here)
  exact ⟨i, ongoing, counter⟩

theorem laterData_of_ongoing {hz : UInt64} {cb : Bool} {ds : List Arrival} {out : List Event}
    {row : Row} (run : (udpReceiver hz cb).Reaches bootRow ds out row) {p : Peer}
    {i : Fin sessionMax} (ongoing : OngoingFor row p i) :
    ∃ n, (laterData ds).lookup p = some n ∧ (row i).counter = UInt32.ofNat n :=
  (udpBook_related_laterData hz ds).left ((bootRow_ok.refines bootRow_refines run p _).mpr
    ((holds_iff row p _).mpr ⟨i, ongoing, rfl⟩))

/-- The calls that do not divide by zero are those that do not trap. -/
theorem neverDividesByZero_iff_completes (hz : UInt64) (cb : Bool) (ds : List Arrival) :
    NeverDividesByZero hz cb ds ↔
      ∃ out row, (udpReceiver hz cb).Reaches bootRow ds out row := by
  rw [Machine.exists_reaches_iff]
  have traps {pre out row} (run : (udpReceiver hz cb).Reaches bootRow pre out row) (d : Arrival) :
      ((udpReceiver hz cb).step row d).2 = none ↔ d.short = false ∧ d.isEnd = true ∧
        ∃ i, OngoingFor row d.addr i ∧ (row i).counter = 0 := by
    have h := (bootRow_ok.reaches run).traps_iff hz cb d
    simp only [holds_iff] at h
    rw [show (udpReceiver hz cb).step row d = udpReceived hz cb row d from rfl, h]
    refine and_congr_right fun _ => and_congr_right fun _ => ⟨?_, ?_⟩
    · rintro ⟨_, ⟨i, ongoing, rfl⟩, zero⟩
      exact ⟨i, ongoing, zero⟩
    · rintro ⟨i, ongoing, zero⟩
      exact ⟨_, ⟨i, ongoing, rfl⟩, zero⟩
  constructor
  · intro never pre d post split out row run
    refine Option.ne_none_iff_isSome.mp fun trap => ?_
    obtain ⟨long, isEnd, i, ongoing, zero⟩ := (traps run d).mp trap
    exact never pre d post out row i split run ongoing long isEnd zero
  · intro completes pre d post out row i split run ongoing long isEnd zero
    have some := completes pre d post split out row run
    rw [(traps run d).mpr ⟨long, isEnd, i, ongoing, zero⟩] at some
    simp at some

/-- No call divides by zero exactly when every end datagram that closes a session
comes after a number of further data that is not zero modulo `2 ^ 32`. -/
theorem neverDividesByZero_iff (hz : UInt64) (cb : Bool) (ds : List Arrival) :
    NeverDividesByZero hz cb ds ↔
      ∀ pre d post p n, ds = pre ++ d :: post → d.sender = some p → d.isEnd = true →
        (laterData pre).lookup p = some n → ¬ 2 ^ 32 ∣ n := by
  constructor
  · intro never pre d post p n split sender isEnd here
    obtain ⟨out, row, run⟩ := (neverDividesByZero_iff_completes hz cb ds).mp never
    rw [split] at run
    obtain ⟨first, mid, -, pre_run, -, -⟩ := (Machine.reaches_append _ _ _ _ _ _).mp run
    obtain ⟨i, ongoing, counter⟩ := counter_eq_laterData pre_run here
    rw [← ofNat_ne_zero_iff, ← counter]
    obtain rfl := Arrival.addr_of_sender sender
    have long : d.short = false := by
      by_contra short
      simp [Arrival.sender, short] at sender
    exact never pre d post first mid i split pre_run ongoing long isEnd
  · intro counted pre d post out row i split run ongoing long isEnd
    obtain ⟨n, here, counter⟩ := laterData_of_ongoing run ongoing
    rw [counter, ofNat_ne_zero_iff]
    exact counted pre d post d.addr n split (by simp [Arrival.sender, long]) isEnd here

/-- The first datagram of an upload and its end datagram: the processor traps. -/
theorem opener_then_end_divides_by_zero :
    ¬ NeverDividesByZero 1000 true
      [⟨.inet 6000 0x0A000002, (UdpDatagram.mk 0 0 0).bytes, 5⟩,
        ⟨.inet 6000 0x0A000002, (UdpDatagram.mk (-1) 0 0).bytes, 9⟩] := by
  rw [neverDividesByZero_iff_completes]
  rintro ⟨out, row, run⟩
  exact absurd run.isSome (by decide +kernel)

end Zperf
