import Zperf.Properties.Jitter

/-!
The jitter of a session and the offset between the clocks of client and server.

`time_delta` subtracts modulo `2 ^ 32`, but one less when the client's time is behind
the arrival. An offset of the client's clock cancels out of the jitter as long as it
moves neighbouring datagrams across that line together, and makes no transit time the
mark zero.
-/

namespace Zperf

open Base

/-- The client's time stamp, recombined. -/
def clientTime (d : Arrival) : UInt32 := d.hdr.tvSec * usecPerSec + d.hdr.tvUsec

def arrivalTime (hz : UInt64) (d : Arrival) : UInt32 :=
  kTicksToUsCeil32 hz (ticksArg (kUptimeTicks d.tick))

/-- What the second branch of `time_delta` takes off. -/
def borrow (hz : UInt64) (d : Arrival) : Int32 :=
  if clientTime d ≥ arrivalTime hz d then 0 else 1

/-- The same arrival, with the client's clock advanced by `c`. -/
structure Offset (c : UInt32) (d d' : Arrival) : Prop where
  tick : d'.tick = d.tick
  time : clientTime d' = clientTime d + c

/-- Neighbours cross between the branches of `time_delta` together, and are marked as
having no transit time together. -/
def SteadyBranches (hz : UInt64) (ps : List (Arrival × Arrival)) : Prop :=
  ∀ pre x y post, ps = pre ++ x :: y :: post →
    (transitTime hz x.1 = 0 ↔ transitTime hz x.2 = 0) ∧
    (transitTime hz x.1 ≠ 0 →
      borrow hz y.2 - borrow hz y.1 = borrow hz x.2 - borrow hz x.1)

theorem transitTime_eq (hz : UInt64) (d : Arrival) :
    transitTime hz d = (clientTime d - arrivalTime hz d).toInt32 - borrow hz d := by
  have split : transitTime hz d = (timeDelta (arrivalTime hz d) (clientTime d)).toInt32 := rfl
  rw [split, timeDelta, borrow]
  split
  · simp
  · have wrapped : ulongMax - arrivalTime hz d + clientTime d =
        clientTime d - arrivalTime hz d - 1 := by
      have all : ulongMax = -1 := rfl
      rw [all]
      grind
    rw [wrapped, UInt32.toInt32_sub]
    rfl

theorem Offset.transitTime {c : UInt32} {d d' : Arrival} (h : Offset c d d') (hz : UInt64) :
    Zperf.transitTime hz d' =
      Zperf.transitTime hz d + c.toInt32 + borrow hz d - borrow hz d' := by
  have arrival : arrivalTime hz d' = arrivalTime hz d := by
    rw [arrivalTime, arrivalTime, h.tick]
  have moved : clientTime d + c - arrivalTime hz d = clientTime d - arrivalTime hz d + c := by
    grind
  rw [transitTime_eq, transitTime_eq, arrival, h.time, moved, UInt32.toInt32_add]
  grind

theorem updateJitter_congr {s s' : Session} {t t' : Int32} (jitter : s'.jitter = s.jitter)
    (mark : s.lastTransitTime = 0 ↔ s'.lastTransitTime = 0)
    (change : s.lastTransitTime ≠ 0 → t' - s'.lastTransitTime = t - s.lastTransitTime) :
    updateJitter s' t' = updateJitter s t := by
  by_cases used : s.lastTransitTime = 0
  · rw [updateJitter_of_zero used, updateJitter_of_zero (mark.mp used), jitter]
  · have used' : s'.lastTransitTime ≠ 0 := fun h => used (mark.mpr h)
    have delta : deltaTransit s' t' = deltaTransit s t := by
      rw [deltaTransit, deltaTransit, change used]
    rw [updateJitter_of_ne used, updateJitter_of_ne used', jitter, delta]

/-- The offset of the client's clock leaves no trace in the jitter of steady runs. -/
theorem jitter_ignores_offset (hz : UInt64) (s s' : Session) (o o' : Arrival) (c : UInt32)
    (ps : List (Arrival × Arrival)) (offset : ∀ x ∈ ps, Offset c x.1 x.2)
    (steady : SteadyBranches hz ps) (pre post : List (Arrival × Arrival))
    (split : ps = pre ++ post) :
    (sessionAfter hz s' o' (pre.map Prod.snd)).jitter =
      (sessionAfter hz s o (pre.map Prod.fst)).jitter := by
  induction pre using List.reverseRecOn generalizing post with
  | nil => rfl
  | append_singleton pre y ih =>
      have before := ih (y :: post) (by rw [split, List.append_assoc]; rfl)
      rw [List.map_append, List.map_append, List.map_singleton, List.map_singleton,
        sessionAfter_append, sessionAfter_append, jitter_countData, jitter_countData]
      cases pre using List.reverseRecOn with
      | nil =>
          apply updateJitter_congr before
          · exact Iff.rfl
          · exact fun used => absurd rfl used
      | append_singleton pre x =>
          have here : ps = pre ++ x :: y :: post := by
            rw [split, List.append_assoc, List.append_assoc]
            rfl
          have branches := steady pre x y post here
          have last := lastTransitTime_sessionAfter hz s o (pre.map Prod.fst) x.1
          have last' := lastTransitTime_sessionAfter hz s' o' (pre.map Prod.snd) x.2
          simp only [List.map_append, List.map_singleton] at before ⊢
          apply updateJitter_congr before
          · rw [last, last']
            exact branches.1
          · intro used
            rw [last] at used
            have together := branches.2 used
            rw [last, last', (offset x (by simp [here])).transitTime hz,
              (offset y (by simp [here])).transitTime hz]
            grind

/-- The client's clock set back by 110 microseconds: the first datagram crosses to the
other branch of `time_delta`, the second does not. -/
theorem offset_changes_jitter :
    ∃ c : UInt32, ∃ d₁ d₁' d₂ d₂' : Arrival, Offset c d₁ d₁' ∧ Offset c d₂ d₂' ∧
      (sessionAfter 1000000 .zero d₁ [d₁', d₂']).jitter ≠
        (sessionAfter 1000000 .zero d₁ [d₁, d₂]).jitter := by
  let data (usec : UInt32) : Arrival :=
    ⟨.inet 6000 0x0A000002, (UdpDatagram.mk 1 0 usec).bytes, 1000⟩
  exact ⟨-110, data 1100, data 990, data 1115, data 1005,
    ⟨by decide +kernel, by decide +kernel⟩, ⟨by decide +kernel, by decide +kernel⟩,
    by decide +kernel⟩

theorem jitter_ignores_offset_steady :
    ∃ d d' : Arrival, Offset 50 d d' ∧
      (sessionAfter 1000000 .zero d' [d', d']).jitter =
        (sessionAfter 1000000 .zero d [d, d]).jitter := by
  let data (usec : UInt32) : Arrival :=
    ⟨.inet 6000 0x0A000002, (UdpDatagram.mk 1 0 usec).bytes, 1000⟩
  have moved : Offset 50 (data 1100) (data 1150) := ⟨by decide +kernel, by decide +kernel⟩
  refine ⟨data 1100, data 1150, moved, ?_⟩
  apply jitter_ignores_offset 1000000 .zero .zero (data 1100) (data 1150) 50
    [(data 1100, data 1150), (data 1100, data 1150)] (by simpa using moved)
    _ [(data 1100, data 1150), (data 1100, data 1150)] [] rfl
  intro pre x y post split
  have first : x ∈ [(data 1100, data 1150), (data 1100, data 1150)] := by simp [split]
  have second : y ∈ [(data 1100, data 1150), (data 1100, data 1150)] := by simp [split]
  obtain rfl : x = (data 1100, data 1150) := by simpa using first
  obtain rfl : y = (data 1100, data 1150) := by simpa using second
  exact ⟨by decide +kernel, fun _ => rfl⟩

end Zperf
