import Zperf.Base.Smoothing
import Zperf.Base.Wrap
import Zperf.Properties.SinglePeer

/-!
The jitter of a UDP session.

Only the arrival ticks and the time stamps of the data that follows the opening
datagram matter. The update is the running average of the library as long as two
consecutive transit times are less than `2 ^ 31` apart; a sender can put them
further apart, and then an operation of the update overflows.
-/

namespace Zperf

open Base

theorem jitter_checkId (s : Session) (id : Int32) :
    (checkId s id).jitter = s.jitter ∧
      (checkId s id).lastTransitTime = s.lastTransitTime := by
  unfold checkId
  split
  · split <;> exact ⟨rfl, rfl⟩
  · exact ⟨rfl, rfl⟩

theorem jitter_recordTransit (s : Session) (t : Int32) :
    (recordTransit s t).jitter = updateJitter s t ∧ (recordTransit s t).lastTransitTime = t := by
  cases s
  exact ⟨rfl, rfl⟩

theorem jitter_updateCounter (s : Session) (n : Nat) :
    (updateCounter s n).jitter = s.jitter ∧
      (updateCounter s n).lastTransitTime = s.lastTransitTime := by
  cases s
  exact ⟨rfl, rfl⟩

theorem jitter_countData (hz : UInt64) (s : Session) (d : Arrival) :
    (countData hz s d).jitter = updateJitter s (transitTime hz d) := by
  have counted := jitter_updateCounter s d.data.length
  rw [countData, (jitter_checkId _ _).1, (jitter_recordTransit _ _).1, updateJitter, updateJitter,
    counted.1, counted.2]

theorem lastTransitTime_countData (hz : UInt64) (s : Session) (d : Arrival) :
    (countData hz s d).lastTransitTime = transitTime hz d := by
  rw [countData, (jitter_checkId _ _).2, (jitter_recordTransit _ _).2]

/-- The session that `o` opens in a slot, after the data `ds`. -/
def sessionAfter (hz : UInt64) (s : Session) (o : Arrival) (ds : List Arrival) : Session :=
  ds.foldl (countData hz) (startSession s o)

theorem sessionAfter_nil (hz : UInt64) (s : Session) (o : Arrival) :
    (sessionAfter hz s o []).jitter = 0 ∧ (sessionAfter hz s o []).lastTransitTime = 0 :=
  ⟨rfl, rfl⟩

theorem sessionAfter_append (hz : UInt64) (s : Session) (o : Arrival) (ds : List Arrival)
    (d : Arrival) :
    sessionAfter hz s o (ds ++ [d]) = countData hz (sessionAfter hz s o ds) d := by
  rw [sessionAfter, List.foldl_append, List.foldl_cons, List.foldl_nil, sessionAfter]

theorem lastTransitTime_sessionAfter (hz : UInt64) (s : Session) (o : Arrival)
    (ds : List Arrival) (d : Arrival) :
    (sessionAfter hz s o (ds ++ [d])).lastTransitTime = transitTime hz d := by
  rw [sessionAfter_append, lastTransitTime_countData]

/-- Data alone, from a slot that is not ongoing: what the `switch` makes of the slot. -/
theorem sessionAfter_reaches (hz : UInt64) (cb : Bool) {s : Session} (settled : s.isFree = true)
    {o : Arrival} {ds : List Arrival} (data : ∀ d ∈ o :: ds, d.isEnd = false) :
    (slotServer hz cb).Reaches s (o :: ds) (callSessionCb cb .started)
      (sessionAfter hz s o ds) := by
  have opens : sessionReceived hz cb s o = (callSessionCb cb .started, some (startSession s o)) := by
    simp only [Session.isFree, decide_eq_true_eq] at settled
    cases settled with
    | inl h | inr h => simp [sessionReceived, h, data o List.mem_cons_self]
  induction ds using List.reverseRecOn with
  | nil => exact Machine.Reaches.single opens
  | append_singleton ds d ih =>
      have before := ih fun e he => data e (by simp at he ⊢; tauto)
      have state : (sessionAfter hz s o ds).state = .ongoing := by
        clear before ih data
        induction ds using List.reverseRecOn with
        | nil => rfl
        | append_singleton ds d ih => rwa [sessionAfter_append, state_countData]
      have counts : sessionReceived hz cb (sessionAfter hz s o ds) d =
          ([], some (countData hz (sessionAfter hz s o ds) d)) := by
        simp [sessionReceived, state, data d (by simp)]
      have next : (slotServer hz cb).Reaches (sessionAfter hz s o ds) [d] []
          (countData hz (sessionAfter hz s o ds) d) := Machine.Reaches.single counts
      rw [sessionAfter_append]
      simpa using before.append next

theorem updateJitter_of_zero {s : Session} (h : s.lastTransitTime = 0) (t : Int32) :
    updateJitter s t = s.jitter := by
  simp [updateJitter, h]

/-- The change of the transit time, as `updateJitter` computes it. -/
def deltaTransit (s : Session) (t : Int32) : Int32 :=
  let deltaTransit := t - s.lastTransitTime
  if deltaTransit < 0 then -deltaTransit else deltaTransit

theorem updateJitter_of_ne {s : Session} (h : s.lastTransitTime ≠ 0) (t : Int32) :
    updateJitter s t = s.jitter + (deltaTransit s t - s.jitter) / 16 := by
  rw [updateJitter, if_pos h]
  rfl

/-- The two subtractions and the negation of a jitter update stay in `int32_t`. -/
def UpdateInRange (s : Session) (t : Int32) : Prop :=
  s.lastTransitTime ≠ 0 →
    InInt32 (t.toInt - s.lastTransitTime.toInt) ∧
    (t - s.lastTransitTime < 0 → InInt32 (-(t - s.lastTransitTime).toInt)) ∧
    InInt32 ((deltaTransit s t).toInt - s.jitter.toInt)

instance (s : Session) (t : Int32) : Decidable (UpdateInRange s t) :=
  inferInstanceAs (Decidable (_ → _))

theorem step_of_updateInRange {s : Session} {t : Int32} (used : s.lastTransitTime ≠ 0)
    (h : UpdateInRange s t) : (t.toInt - s.lastTransitTime.toInt).natAbs < 2 ^ 31 := by
  cases h used with
  | intro sub rest =>
      have exact' := toInt_sub_of_inInt32 sub
      have neg := rest.1
      rw [Int32.lt_iff_toInt_lt, Int32.toInt_zero, exact'] at neg
      simp only [InInt32] at sub neg
      omega

theorem updateJitter_exact {s : Session} {t : Int32} (used : s.lastTransitTime ≠ 0)
    (nonneg : 0 ≤ s.jitter.toInt)
    (step : (t.toInt - s.lastTransitTime.toInt).natAbs < 2 ^ 31) :
    UpdateInRange s t ∧
      (updateJitter s t).toInt =
        smooth 16 s.jitter.toInt (t.toInt - s.lastTransitTime.toInt).natAbs := by
  have sub : InInt32 (t.toInt - s.lastTransitTime.toInt) := by
    simp only [InInt32]
    omega
  have exact' := toInt_sub_of_inInt32 sub
  have neg : InInt32 (-(t - s.lastTransitTime).toInt) := by
    rw [exact']
    simp only [InInt32]
    omega
  have delta : (deltaTransit s t).toInt = (t.toInt - s.lastTransitTime.toInt).natAbs := by
    rw [deltaTransit]
    split
    · rename_i below
      rw [Int32.lt_iff_toInt_lt, Int32.toInt_zero, exact'] at below
      rw [toInt_neg_of_inInt32 neg, exact']
      omega
    · rename_i above
      rw [Int32.lt_iff_toInt_lt, Int32.toInt_zero, exact'] at above
      rw [exact']
      omega
  have jitter := inInt32_toInt s.jitter
  have distance : InInt32 ((deltaTransit s t).toInt - s.jitter.toInt) := by
    rw [delta]
    simp only [InInt32] at jitter ⊢
    omega
  refine ⟨fun _ => ⟨sub, fun _ => neg, distance⟩, ?_⟩
  have sixteen : (16 : Int32).toInt = 16 := rfl
  have low := smooth_nonneg (k := 16) (by decide) nonneg
    (Int.natCast_nonneg (t.toInt - s.lastTransitTime.toInt).natAbs)
  have high := smooth_le (k := 16) (j := s.jitter.toInt)
    (x := ((t.toInt - s.lastTransitTime.toInt).natAbs : Int)) (m := 2 ^ 31 - 1) (by decide)
    (by simp only [InInt32] at jitter; omega) (by omega)
  rw [smooth] at low high
  have moved : InInt32 ((((t.toInt - s.lastTransitTime.toInt).natAbs : Int) -
      s.jitter.toInt).tdiv 16) := by
    simp only [InInt32] at jitter ⊢
    omega
  have divided : ((deltaTransit s t - s.jitter) / 16).toInt =
      (((t.toInt - s.lastTransitTime.toInt).natAbs : Int) - s.jitter.toInt).tdiv 16 := by
    rw [← delta] at moved ⊢
    have whole := toInt_sub_of_inInt32 distance
    rw [toInt_div_of_inInt32, whole, sixteen]
    rw [whole, sixteen]
    exact moved
  rw [updateJitter_of_ne used, toInt_add_of_inInt32, divided, smooth]
  rw [divided]
  simp only [InInt32]
  omega

/-- The transit times of the data, as numbers. -/
def transitTimes (hz : UInt64) (ds : List Arrival) : List Int :=
  ds.map fun d => (transitTime hz d).toInt

/-- After every datagram: the update did not overflow, and the jitter is between zero
and the largest change of the transit time so far. -/
def JitterInRange (hz : UInt64) (s : Session) (o : Arrival) (ds : List Arrival) : Prop :=
  ∀ pre d post, ds = pre ++ d :: post →
    UpdateInRange (sessionAfter hz s o pre) (transitTime hz d) ∧
    0 ≤ (sessionAfter hz s o (pre ++ [d])).jitter.toInt ∧
    (sessionAfter hz s o (pre ++ [d])).jitter.toInt ≤ largestStep (transitTimes hz (pre ++ [d]))

/-- Neighbouring transit times are close, unless the earlier one is the mark zero. -/
def CloseTransits (hz : UInt64) (ds : List Arrival) : Prop :=
  ∀ pre a b post, ds = pre ++ a :: b :: post → transitTime hz a ≠ 0 →
    ((transitTime hz b).toInt - (transitTime hz a).toInt).natAbs < 2 ^ 31

theorem largestStep_transitTimes (hz : UInt64) (pre : List Arrival) (a b : Arrival) :
    largestStep (transitTimes hz (pre ++ [a] ++ [b])) =
      max (largestStep (transitTimes hz (pre ++ [a])))
        ((transitTime hz b).toInt - (transitTime hz a).toInt).natAbs := by
  simp only [transitTimes, List.map_append, List.map_cons, List.map_nil, List.append_assoc,
    List.singleton_append]
  exact largestStep_append_singleton _ _ _

theorem jitter_step {hz : UInt64} {s : Session} {o : Arrival} {ds : List Arrival}
    (close : CloseTransits hz ds) (pre post : List Arrival) (d : Arrival)
    (split : ds = pre ++ d :: post)
    (nonneg : 0 ≤ (sessionAfter hz s o pre).jitter.toInt)
    (bounded : (sessionAfter hz s o pre).jitter.toInt ≤ largestStep (transitTimes hz pre)) :
    UpdateInRange (sessionAfter hz s o pre) (transitTime hz d) ∧
    0 ≤ (sessionAfter hz s o (pre ++ [d])).jitter.toInt ∧
    (sessionAfter hz s o (pre ++ [d])).jitter.toInt ≤
      largestStep (transitTimes hz (pre ++ [d])) := by
  rw [sessionAfter_append, jitter_countData]
  cases pre using List.reverseRecOn with
  | nil =>
      have unused := (sessionAfter_nil hz s o).2
      rw [updateJitter_of_zero unused, (sessionAfter_nil hz s o).1]
      exact ⟨fun used => absurd unused used, Int.le_refl _, Int.natCast_nonneg _⟩
  | append_singleton pre a =>
      have last := lastTransitTime_sessionAfter hz s o pre a
      rw [largestStep_transitTimes]
      by_cases used : transitTime hz a = 0
      · rw [used] at last
        rw [updateJitter_of_zero last]
        exact ⟨fun h => absurd last h, nonneg, by omega⟩
      · have near := close pre a d post (by rw [split, List.append_assoc]; rfl) used
        rw [← last] at used near
        have step := updateJitter_exact used nonneg near
        rw [step.2, last]
        refine ⟨step.1, smooth_nonneg (by decide) nonneg (Int.natCast_nonneg _), ?_⟩
        exact smooth_le (by decide) (by omega) (by omega)

theorem jitter_between {hz : UInt64} {s : Session} {o : Arrival} {ds : List Arrival}
    (close : CloseTransits hz ds) (pre post : List Arrival) (split : ds = pre ++ post) :
    0 ≤ (sessionAfter hz s o pre).jitter.toInt ∧
      (sessionAfter hz s o pre).jitter.toInt ≤ largestStep (transitTimes hz pre) := by
  induction pre using List.reverseRecOn generalizing post with
  | nil =>
      rw [(sessionAfter_nil hz s o).1]
      exact ⟨Int.le_refl _, Int.natCast_nonneg _⟩
  | append_singleton pre d ih =>
      have split' : ds = pre ++ d :: post := by rw [split, List.append_assoc]; rfl
      have before := ih (d :: post) split'
      exact (jitter_step close pre post d split' before.1 before.2).2

/-- The jitter stays in range exactly as long as neighbouring transit times are close. -/
theorem jitterInRange_iff (hz : UInt64) (s : Session) (o : Arrival) (ds : List Arrival) :
    JitterInRange hz s o ds ↔ CloseTransits hz ds := by
  constructor
  · intro inRange pre a b post split used
    have last := lastTransitTime_sessionAfter hz s o pre a
    have update := (inRange (pre ++ [a]) b post (by rw [split, List.append_assoc]; rfl)).1
    rw [← last] at used ⊢
    exact step_of_updateInRange used update
  · intro close pre d post split
    have before := jitter_between (s := s) (o := o) close pre (d :: post) split
    exact jitter_step close pre post d split before.1 before.2

/-- A datagram that seems to have taken minus `2 ^ 31 - 1` microseconds, and one that
seems to have taken `2 ^ 31 - 1`: their difference is no `int32_t`. -/
theorem hostile_timestamps_overflow :
    ¬ JitterInRange 1000000 .zero ⟨.inet 6000 0x0A000002, (UdpDatagram.mk 0 0 0).bytes, 0⟩
      [⟨.inet 6000 0x0A000002, (UdpDatagram.mk 1 0 0x80000001).bytes, 0⟩,
        ⟨.inet 6000 0x0A000002, (UdpDatagram.mk 2 0 0x7FFFFFFF).bytes, 0⟩] := by
  intro inRange
  have update := (inRange [_] _ [] rfl).1
  exact absurd update (by decide +kernel)

end Zperf
