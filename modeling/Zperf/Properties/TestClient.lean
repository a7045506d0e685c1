import Zperf.Base.Progress
import Zperf.Core.UdpTest

/-!
The uploader of a test is `udp_upload`.

What it returns after any run is what `udp_upload` returns for some results of its calls:
the calls that are still to come are gathered backwards, from the return on.
-/

namespace Zperf

open Base

/-- `zperf_upload_fin` from the condition of its loop on. -/
def finRest (left : Nat) (s : FinLoop) (turns : List FinTurn)
    (spurious : List (Except SockError (List UInt8))) (results : Results) :
    Option (Int × Results) :=
  match finLoop left s turns with
  | none => none
  | some s =>
      if s.ret > 0 then
        if drains spurious then some (0, zperfUploadDecodeStat s.stats results) else none
      else some (s.ret, results)

namespace UploadArgs

variable (u : UploadArgs)

/-- `udp_upload` behind `zperf_upload_fin`, as a function of what that returns. -/
def finishes (nbPackets endTick : UInt32) (fin : Option (Int × Results)) (ret : Int)
    (results : Results) : Prop :=
  ∃ out, fin = some out ∧ u.finish nbPackets endTick out.1 out.2 = .returned ret results

/-- From `pc` on, some results of the calls that are left make `udp_upload` return so. -/
def Completes (ret : Int) (results : Results) : UploadPc → Prop
  | .sending s => ∃ turns,
      (∃ s', ∃ errno : Errno, uploadLoop u.config s turns = some (false, s') ∧ ret = -errno ∧
        results = u.before) ∨
      ∃ s' endTick fin spurious, uploadLoop u.config s turns = some (true, s') ∧
        u.finishes s'.nbPackets endTick (zperfUploadFin fin spurious u.before) ret results
  | .sent nbPackets => ∃ endTick fin spurious,
      u.finishes nbPackets endTick (zperfUploadFin fin spurious u.before) ret results
  | .asking nbPackets endTick left s => ∃ t fin spurious,
      u.finishes nbPackets endTick (finRest left (finAttempt s t) fin spurious u.before) ret results
  | .receiving nbPackets endTick left s => ∃ answer fin spurious,
      u.finishes nbPackets endTick
        (finRest left (finAttempt s ⟨0, 0, answer⟩) fin spurious u.before) ret results
  | .draining nbPackets endTick after => ret = 0 ∧
      results = u.finalResults nbPackets endTick after
  | .returned ret' results' => ret = ret' ∧ results = results'

variable {u : UploadArgs} {ret : Int} {results : Results}

theorem finish_of_completes {nbPackets endTick : UInt32} {fin : Int} {after : Results}
    (h : u.Completes ret results (u.finish nbPackets endTick fin after)) :
    u.finish nbPackets endTick fin after = .returned ret results := by
  unfold finish at h ⊢
  split at h
  · rename_i failed
    obtain ⟨rfl, rfl⟩ := h
    exact if_pos failed
  · rename_i succeeded
    obtain ⟨rfl, rfl⟩ := h
    exact if_neg succeeded

theorem askAgain_completes {nbPackets endTick : UInt32} {left : Nat} {s : FinLoop}
    (h : u.Completes ret results (u.askAgain nbPackets endTick left s)) :
    ∃ fin spurious,
      u.finishes nbPackets endTick (finRest left s fin spurious u.before) ret results := by
  unfold askAgain at h
  split at h
  · rename_i more
    cases left with
    | zero =>
        refine ⟨[], [], (s.ret, u.before), ?_, finish_of_completes h⟩
        simp [finRest, finLoop, Int.not_lt.mpr more]
    | succ left =>
        obtain ⟨t, fin, spurious, out, rest, ends⟩ := h
        refine ⟨t :: fin, spurious, out, ?_, ends⟩
        rw [← rest]
        simp [finRest, finLoop, more]
  · rename_i got
    obtain ⟨rfl, rfl⟩ := h
    have left_loop : finLoop left s [] = some s := by
      cases left with
      | zero => rfl
      | succ left => simp [finLoop, got]
    refine ⟨[], [.error ⟨-1, by decide⟩], (0, zperfUploadDecodeStat s.stats u.before), ?_, ?_⟩
    · simp only [finRest, left_loop]
      rw [if_pos (Int.not_le.mp got)]
      rfl
    · rfl

theorem zperfUploadFin_eq_finRest (turns : List FinTurn)
    (spurious : List (Except SockError (List UInt8))) (before : Results) :
    zperfUploadFin turns spurious before = finRest 2 .start turns spurious before := rfl

/-- Each step of the uploader can be traced back. -/
theorem completes_back (pc : UploadPc) (call : UploadCall ⊕ List UInt8)
    (h : u.Completes ret results (u.step pc call).2) : u.Completes ret results pc := by
  unfold step at h
  split at h
  · rename_i s t errno
    split at h
    · rename_i failed
      obtain ⟨rfl, rfl⟩ := h
      exact ⟨[t], .inl ⟨s, errno, by simp [uploadLoop, failed], rfl, rfl⟩⟩
    · rename_i sent
      dsimp only at h
      split at h
      · rename_i again
        have first (turns : List Turn) : uploadLoop u.config s (t :: turns) =
            uploadLoop u.config (nextLoop u.config s t.tick) turns := by
          rw [uploadLoop, if_neg sent]
          exact if_pos again
        obtain ⟨turns, cases⟩ := h
        refine ⟨t :: turns, ?_⟩
        rwa [first]
      · rename_i ended
        obtain ⟨endTick, fin, spurious, ends⟩ := h
        refine ⟨[t], .inr ⟨nextLoop u.config s t.tick, endTick, fin, spurious, ?_, ends⟩⟩
        rw [uploadLoop, if_neg sent]
        exact if_neg ended
  · obtain ⟨t, fin, spurious, ends⟩ := h
    exact ⟨_, t :: fin, spurious, ends⟩
  · rename_i nbPackets endTick left s send setsockopt
    split at h
    · rename_i failed
      obtain ⟨fin, spurious, ends⟩ := askAgain_completes h
      refine ⟨⟨send, setsockopt, .ok []⟩, fin, spurious, ?_⟩
      rwa [finAttempt, if_pos failed]
    · rename_i sent
      split at h
      · rename_i failed
        obtain ⟨fin, spurious, ends⟩ := askAgain_completes h
        refine ⟨⟨send, setsockopt, .ok []⟩, fin, spurious, ?_⟩
        rwa [finAttempt, if_neg sent, if_pos failed]
      · obtain ⟨answer, fin, spurious, ends⟩ := h
        exact ⟨⟨0, 0, answer⟩, fin, spurious, ends⟩
  · rename_i nbPackets endTick left s fails
    obtain ⟨fin, spurious, ends⟩ := askAgain_completes h
    exact ⟨.error fails, fin, spurious, ends⟩
  · rename_i nbPackets endTick left s data
    obtain ⟨fin, spurious, ends⟩ := askAgain_completes h
    exact ⟨.ok data, fin, spurious, ends⟩
  · exact h
  · exact h

/-- The value of `udp_upload` and its results, for an uploader that completes so. -/
theorem udpUpload_of_completes {port durationInMs packetSize rateInKbps : UInt32}
    {loop : UploadLoop}
    (started : startUpload u.hz port durationInMs packetSize rateInKbps u.startTick =
      some (u.config, loop))
    (h : u.Completes ret results (.sending loop)) :
    ∃ calls, calls.startTick = u.startTick ∧
      udpUpload u.hz port durationInMs packetSize rateInKbps calls u.before =
        some (ret, results) := by
  obtain ⟨turns, ⟨s', errno, run, rfl, rfl⟩ | ⟨s', endTick, fin, spurious, run, ends⟩⟩ := h
  · refine ⟨⟨u.startTick, turns, errno, 0, [], []⟩, rfl, ?_⟩
    simp [udpUpload, started, run]
  · refine ⟨⟨u.startTick, turns, ⟨1, by decide⟩, endTick, fin, spurious⟩, rfl, ?_⟩
    obtain ⟨⟨ret', after⟩, returned, finished⟩ := ends
    simp only [udpUpload, started, run, returned]
    unfold finish at finished
    split at finished
    · rename_i failed
      obtain ⟨rfl, rfl⟩ := UploadPc.returned.inj finished
      exact if_pos failed
    · rename_i succeeded
      obtain ⟨rfl, rfl⟩ := UploadPc.returned.inj finished
      exact if_neg succeeded

end UploadArgs

/-- Everything a stretch of the uploader can do. -/
inductive UploadMove (u : UploadArgs) :
    UploadPc → UploadCall ⊕ List UInt8 → List (List UInt8) → UploadPc → Prop where
  | stay (pc : UploadPc) (x : UploadCall ⊕ List UInt8) : UploadMove u pc x [] pc
  | send (s : UploadLoop) (t : Turn) (errno : Errno) :
      UploadMove u (.sending s) (.inl (.turn t errno)) [turnPacket u.hz u.config s t.tick]
        (if (nextLoop u.config s t.tick).again then .sending (nextLoop u.config s t.tick)
          else .sent (s.nbPackets + 1))
  | fail (s : UploadLoop) (t : Turn) (errno : Errno) :
      UploadMove u (.sending s) (.inl (.turn t errno)) [] (.returned (-errno) u.before)
  | clock (nbPackets tick : UInt32) :
      UploadMove u (.sent nbPackets) (.inl (.clock tick)) [] (.asking nbPackets tick 1 .start)
  | ask (nbPackets endTick : UInt32) (left : Nat) (s : FinLoop) (send setsockopt : Int) :
      UploadMove u (.asking nbPackets endTick left s) (.inl (.ask send setsockopt))
        [u.endPacket nbPackets endTick] (.receiving nbPackets endTick left s)
  | askFails (nbPackets endTick : UInt32) (left : Nat) (s : FinLoop) (send setsockopt ret : Int)
      (out : List (List UInt8)) (failed : ret < 0)
      (sent : ∀ m ∈ out, m = u.endPacket nbPackets endTick) :
      UploadMove u (.asking nbPackets endTick left s) (.inl (.ask send setsockopt)) out
        (u.askAgain nbPackets endTick left { s with ret := ret })
  | recvFails (nbPackets endTick : UInt32) (left : Nat) (s : FinLoop) (ret : SockError) :
      UploadMove u (.receiving nbPackets endTick left s) (.inl (.recvFails ret)) []
        (u.askAgain nbPackets endTick left { s with ret := ret })
  | recv (nbPackets endTick : UInt32) (left : Nat) (s : FinLoop) (data : List UInt8) :
      UploadMove u (.receiving nbPackets endTick left s) (.inr data) []
        (u.answered nbPackets endTick left s (.ok data))
  | drained (nbPackets endTick : UInt32) (results : Results) (ret : SockError) :
      UploadMove u (.draining nbPackets endTick results) (.inl (.recvFails ret)) []
        (.returned 0 (u.finalResults nbPackets endTick results))

theorem uploadMove_step (u : UploadArgs) (pc : UploadPc) (x : UploadCall ⊕ List UInt8) :
    UploadMove u pc x (u.step pc x).1 (u.step pc x).2 := by
  unfold UploadArgs.step
  split
  · rename_i s t errno
    split
    · exact .fail s t errno
    · exact .send s t errno
  · rename_i nbPackets tick
    exact .clock nbPackets tick
  · rename_i nbPackets endTick left s send setsockopt
    split
    · rename_i failed
      exact .askFails nbPackets endTick left s send setsockopt send [] failed (by simp)
    · split
      · rename_i failed
        exact .askFails nbPackets endTick left s send setsockopt setsockopt _ failed (by simp)
      · exact .ask nbPackets endTick left s send setsockopt
  · rename_i nbPackets endTick left s ret
    exact .recvFails nbPackets endTick left s ret
  · rename_i nbPackets endTick left s data
    exact .recv nbPackets endTick left s data
  · rename_i nbPackets endTick results ret
    exact .drained nbPackets endTick results ret
  · exact .stay _ _

/-- After a failed attempt the uploader asks again, or it returns the error. -/
theorem askAgain_failed (u : UploadArgs) (nbPackets endTick : UInt32) (left : Nat) {s : FinLoop}
    (failed : s.ret < 0) :
    u.askAgain nbPackets endTick left s = .returned s.ret u.before ∨
      ∃ left', u.askAgain nbPackets endTick left s = .asking nbPackets endTick left' s := by
  unfold UploadArgs.askAgain
  rw [if_pos failed.le]
  cases left with
  | zero => exact .inl (if_pos failed)
  | succ left => exact .inr ⟨left, rfl⟩

/-- A whole reply ends the attempts. -/
theorem answered_whole (u : UploadArgs) (nbPackets endTick : UInt32) (left : Nat) {s : FinLoop}
    {data : List UInt8} (buffer : s.stats.length = sizeofStats)
    (long : data.length = sizeofStats) :
    u.answered nbPackets endTick left s (.ok data) =
      .draining nbPackets endTick (zperfUploadDecodeStat data u.before) := by
  have taken : data.take sizeofStats = data := List.take_of_length_le long.le
  have dropped : s.stats.drop sizeofStats = [] := List.drop_eq_nil_of_le buffer.le
  have attempt : finAttempt s ⟨0, 0, .ok data⟩ = ⟨sizeofStats, data⟩ := by
    simp [finAttempt, taken, long, dropped]
  rw [UploadArgs.answered, attempt]
  unfold UploadArgs.askAgain
  have whole : ¬ (sizeofStats : Int) ≤ 0 := by decide
  exact if_neg whole

/-- What a test's uploader returns is what `udp_upload` returns, whatever the network and
the server do. -/
theorem udpTest_returned {u : UploadArgs} {hz : UInt64} {cb : Bool} {client : Peer} {row : Row}
    {port durationInMs packetSize rateInKbps : UInt32} {loop : UploadLoop}
    (started : startUpload u.hz port durationInMs packetSize rateInKbps u.startTick =
      some (u.config, loop))
    {steps : List (ExchangeStep UploadCall Arrival UInt32)}
    {log : List (ExchangeEvent (List UInt8) (List UInt8) Event)}
    {e : Exchange UploadPc (Option Row) (List UInt8) (List UInt8)}
    (run : (udpTest u hz cb client).exchange.Reaches (startTest loop row) steps log e)
    {ret : Int} {results : Results} (returned : e.left = .returned ret results) :
    ∃ calls, calls.startTick = u.startTick ∧
      udpUpload u.hz port durationInMs packetSize rateInKbps calls u.before =
        some (ret, results) := by
  refine u.udpUpload_of_completes started (run.traced
    (fun e => u.Completes ret results e.left) ?_ (by rw [returned]; exact ⟨rfl, rfl⟩))
  intro e x out e' step ends
  rcases Parties.exchange_step _ step with ⟨-, rfl⟩ | ⟨y, -, eq⟩ | ⟨y, -, -, eq⟩
  · exact ends
  · obtain ⟨-, rfl⟩ := goesOn_inj eq
    exact u.completes_back e.left y ends
  · obtain ⟨-, rfl⟩ := goesOn_inj eq
    exact ends

end Zperf
