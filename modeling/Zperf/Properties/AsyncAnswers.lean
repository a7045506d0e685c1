import Zperf.Properties.AsyncContext

/-!
What the callers of asynchronous uploads are told.

The pending flag guards the context up to the start of the handler only. Where no call
passes the check later than that and before the last callback, each call is answered
with its own context, and the answers come.
-/

namespace Zperf

open Base

variable {κ π : Type} [DecidableEq κ]

theorem given_append (p : SessionProto) (log log' : List (AsyncEvent π)) :
    given p (log ++ log') = given p log ++ given p log' :=
  List.filterMap_append

theorem due_append (p : SessionProto) (log log' : List (AsyncEvent π)) :
    due p (log ++ log') = due p log ++ due p log' := by
  rw [due, List.filterMap_append, List.flatMap_append]
  rfl

/-- What is due is given or still owed. -/
structure Answered (log : List (AsyncEvent π)) (s : AsyncUploads κ π) : Prop where
  ok : AsyncOk s
  settled : ∀ p, due p log = given p log ++ owed s p

omit [DecidableEq κ] in
theorem Answered.init (ctx : SessionProto → UploadCtx π) :
    Answered [] (AsyncUploads.init ctx : AsyncUploads κ π) where
  ok := AsyncOk.init ctx
  settled := fun _ => rfl

theorem Answered.step {log out : List (AsyncEvent π)} {s t : AsyncUploads κ π}
    {past : List (AsyncStep κ π)} {a : AsyncStep κ π} (h : Answered log s)
    (apart : ChecksApart past s a) (step : (asyncUploads κ π).step s a = (out, some t)) :
    Answered (log ++ out) t := by
  cases a with
  | call k p args =>
      obtain ⟨rfl, rfl⟩ := goesOn_inj step
      have kept := h.ok.call apart
      exact ⟨kept.1, fun q => by rw [List.append_nil, kept.2 q, h.settled q]⟩
  | caller k =>
      obtain ⟨rfl, rfl⟩ := goesOn_inj step
      have kept := h.ok.caller k
      refine ⟨kept.1, fun q => ?_⟩
      rw [due_append, given_append, (kept.2 q).1, (kept.2 q).2, h.settled q]
      simp
  | worker ret =>
      obtain ⟨rfl, rfl⟩ := goesOn_inj step
      have kept := h.ok.worker ret
      refine ⟨kept.1, fun q => ?_⟩
      rw [due_append, given_append, (kept.2 q).1, h.settled q, (kept.2 q).2]
      simp

theorem Answered.run {log out : List (AsyncEvent π)} {s t : AsyncUploads κ π}
    {past as : List (AsyncStep κ π)} (h : Answered log s)
    (apart : (asyncUploads κ π).Along ChecksApart past s as)
    (run : (asyncUploads κ π).Reaches s as out t) : Answered (log ++ out) t :=
  run.invariant_along (fun _ => Answered)
    (fun _ _ _ _ _ _ kept here step => kept.step here step) h apart

/-! ### Progress -/

def AsyncStep.isWorker : AsyncStep κ π → Bool
  | .worker _ => true
  | .call _ _ _ | .caller _ => false

/-- The steps the worker needs to be done with what it has. -/
def stepsLeft : Worker SessionProto → AsyncWork → Nat
  | .receiving, _ => 0
  | .received _, _ => 6
  | .loaded _ _, _ => 5
  | .toggled _, _ => 4
  | .handling _, .starting => 3
  | .handling _, .uploading => 2
  | .handling _, .ending _ => 1

/-- The steps of the worker until nothing more is owed for `p`: it needs seven for each
item of the queue. -/
def wait (s : AsyncUploads κ π) (p : SessionProto) : Nat :=
  stepsLeft s.work.worker s.handler +
    if p ∈ s.work.queue then 7 * (s.work.queue.idxOf p + 1) else 0

omit [DecidableEq κ] in
theorem wait_le (s : AsyncUploads κ π) (p : SessionProto) :
    wait s p ≤ 7 * (s.work.queue.length + 1) := by
  have left : stepsLeft s.work.worker s.handler ≤ 6 := by
    unfold stepsLeft
    split <;> omega
  unfold wait
  split
  · rename_i queued
    have := List.idxOf_lt_length_of_mem queued
    omega
  · omega

theorem AsyncOk.wait_caller {s : AsyncUploads κ π} (h : AsyncOk s) (k : κ) {p : SessionProto}
    (more : owed s p ≠ []) : wait (continueCall s k).2 p = wait s p := by
  unfold continueCall
  cases hc : s.call k with
  | none => rfl
  | some c =>
      have item := (h.calling k c hc).1
      have ne : p ≠ c.proto := by
        intro same
        apply more
        rw [same]
        exact owed_of_untaken (h.work.apart k c.proto item).1 (h.apart k c.proto item)
      dsimp only
      split
      · rfl
      · unfold kWorkSubmitToQueue
        cases here : s.work.submitter k with
        | idle => rfl
        | checked i => rfl
        | loaded i word => rfl
        | sending i =>
            obtain rfl : i = c.proto := by simpa [here, Submitter.item] using item
            dsimp only
            by_cases room : s.work.queue.length < defaultQueueSize
            · rw [if_pos room]
              unfold wait
              by_cases queued : p ∈ s.work.queue
              · simp [setSubmitter_frame, queued, List.idxOf_append_of_mem queued]
              · simp [setSubmitter_frame, queued, ne]
            · rw [if_neg room]

omit [DecidableEq κ] in
theorem AsyncOk.wait_worker {s : AsyncUploads κ π} (h : AsyncOk s) (ret : Int)
    {p : SessionProto} (more : owed s p ≠ []) : wait (continueWork s ret).2 p + 1 = wait s p := by
  unfold continueWork
  cases worker : s.work.worker with
  | receiving =>
      cases queue : s.work.queue with
      | nil =>
          refine absurd (owed_of_untaken ?_ ?_) more
          · simp [queue]
          · simp [worker, Worker.item]
      | cons i is =>
          have once := h.work.once
          rw [queue, List.nodup_cons] at once
          by_cases own : p = i
          · subst own
            simp [wait, workTask, worker, queue, stepsLeft, once.1]
          · by_cases queued : p ∈ is
            · simp [wait, workTask, worker, queue, stepsLeft, queued,
                List.idxOf_cons_ne _ (Ne.symm own)]
              omega
            · refine absurd (owed_of_untaken ?_ ?_) more
              · simp [queue, own, queued]
              · simp [worker, Worker.item]
  | received i | loaded i word | toggled i =>
      have starting : s.handler = .starting := by
        by_contra busy
        obtain ⟨q, hq⟩ := h.starting busy
        simp [worker] at hq
      simp [wait, workTask, worker, stepsLeft, starting, setPending_frame]
      omega
  | handling i =>
      cases handler : s.handler with
      | starting | uploading =>
          simp [wait, worker, handler, stepsLeft]
          omega
      | ending r =>
          simp [wait, workTask, worker, handler, stepsLeft]
          omega

omit [DecidableEq κ] in
theorem Answered.of_nothing_owed {log : List (AsyncEvent π)} {s : AsyncUploads κ π}
    (h : Answered log s) {p : SessionProto} (none : owed s p = [])
    (out : List (AsyncEvent π)) : due p log <+: given p (log ++ out) := by
  rw [h.settled p, none, List.append_nil, given_append]
  exact List.prefix_append _ _

theorem AsyncOk.wait_step {s t : AsyncUploads κ π} (h : AsyncOk s) {p : SessionProto}
    (more : owed s p ≠ []) {a : AsyncStep κ π} {out : List (AsyncEvent π)}
    (step : (asyncUploads κ π).step s a = (out, some t)) :
    wait t p + (if a.isWorker then 1 else 0) = wait s p := by
  cases a with
  | call k q args =>
      obtain ⟨-, rfl⟩ := goesOn_inj step
      dsimp only [AsyncStep.isWorker]
      unfold zperfUploadAsync
      split
      · rfl
      · unfold requestWork
        split
        · split <;> rfl
        · rfl
  | caller k =>
      obtain ⟨-, rfl⟩ := goesOn_inj step
      exact h.wait_caller k more
  | worker ret =>
      obtain ⟨-, rfl⟩ := goesOn_inj step
      exact h.wait_worker ret more

/-- After enough steps of the worker, whatever the callers do meanwhile, all that was due
before is given. -/
theorem Answered.progress {log out : List (AsyncEvent π)} {s t : AsyncUploads κ π}
    {past as : List (AsyncStep κ π)} (h : Answered log s)
    (apart : (asyncUploads κ π).Along ChecksApart past s as)
    (run : (asyncUploads κ π).Reaches s as out t) (p : SessionProto)
    (enough : wait s p ≤ as.countP AsyncStep.isWorker) :
    due p log <+: given p (log ++ out) := by
  induction as generalizing log s past out with
  | nil =>
      by_cases none : owed s p = []
      · exact h.of_nothing_owed none out
      · have positive := h.ok.wait_worker 0 none
        rw [List.countP_nil] at enough
        omega
  | cons a as ih =>
      by_cases none : owed s p = []
      · exact h.of_nothing_owed none out
      · obtain ⟨first, mid, rest, step, later, rfl⟩ :=
          (Machine.reaches_cons _ s a as out t).mp run
        obtain ⟨here, apart⟩ := apart
        rw [step] at apart
        have shorter := h.ok.wait_step none step
        rw [List.countP_cons] at enough
        have all := ih (h.step here step) apart later (by omega)
        rw [due_append, List.append_assoc] at all
        exact (List.prefix_append _ _).trans all

/-- If every call that passes the check of the pending flag does so when no other call
for its protocol is under way, the answers are those due, in the order of the calls, and
all that are due come. -/
theorem async_uploads_answered {κ π : Type} [DecidableEq κ] (ctx : SessionProto → UploadCtx π)
    {as bs : List (AsyncStep κ π)} {out more : List (AsyncEvent π)} {s t : AsyncUploads κ π}
    (run : (asyncUploads κ π).Reaches (AsyncUploads.init ctx) as out s)
    (apart : (asyncUploads κ π).Along ChecksApart [] (AsyncUploads.init ctx) as)
    (onward : (asyncUploads κ π).Reaches s bs more t)
    (stillApart : (asyncUploads κ π).Along ChecksApart as s bs) (p : SessionProto) :
    given p out <+: due p out ∧
      (7 * (s.work.queue.length + 1) ≤ bs.countP AsyncStep.isWorker →
        due p out <+: given p (out ++ more)) := by
  have now : Answered out s := (Answered.init ctx).run apart run
  constructor
  · rw [now.settled p]
    exact List.prefix_append _ _
  · intro enough
    exact now.progress stillApart onward p ((wait_le s p).trans enough)

instance [Fintype κ] (past : List (AsyncStep κ π)) (s : AsyncUploads κ π) (a : AsyncStep κ π) :
    Decidable (ChecksApart past s a) :=
  match a with
  | .call k p args =>
      inferInstanceAs (Decidable
        (args.callback ≠ 0 → s.call k = none → kWorkIsPending s.work p = false → Quiet s p))
  | .caller _ | .worker _ => .isTrue trivial

/-- A call with all its steps up to its return. -/
def wholeCall (p : SessionProto) (args : UploadCtx π) : List (AsyncStep Unit π) :=
  .call () p args :: List.replicate 6 (.caller ())

/-- One caller, which waits for the end of its first upload before it asks for the next. -/
theorem async_uploads_answered_two_calls :
    let m := asyncUploads Unit Nat
    let start := AsyncUploads.init fun _ => ⟨0, 0, 0⟩
    let as := wholeCall .udp ⟨1, 10, 100⟩ ++ List.replicate 7 (.worker 0) ++
      wholeCall .udp ⟨2, 20, 200⟩
    let s := (m.run start as).2.getD start
    let bs := List.replicate 14 (.worker (-1))
    given .udp (m.run start as).1 <+: due .udp (m.run start as).1 ∧
      (7 * (s.work.queue.length + 1) ≤ bs.countP AsyncStep.isWorker →
        due .udp (m.run start as).1 <+: given .udp ((m.run start as).1 ++ (m.run s bs).1)) := by
  intro m start as s bs
  have run : m.Reaches start as (m.run start as).1 s :=
    m.reaches_of_isSome start as (by decide +kernel)
  have onward := m.reaches_of_isSome s bs (by decide +kernel)
  have apart : m.Along ChecksApart [] start as := by decide +kernel
  have stillApart : m.Along ChecksApart as s bs := by decide +kernel
  exact async_uploads_answered _ run apart onward stillApart .udp

/-- A caller whose first call has returned calls again when the worker has cleared the
flag and not yet made the first callback: that goes to the second call's. -/
theorem started_through_other_callback :
    let m := asyncUploads Unit Nat
    let start := AsyncUploads.init fun _ => ⟨0, 0, 0⟩
    let as := wholeCall .udp ⟨1, 10, 100⟩ ++ List.replicate 4 (.worker 0) ++
      wholeCall .udp ⟨2, 20, 200⟩ ++ [.worker 0]
    (m.run start as).2.isSome = true ∧
      given .udp (m.run start as).1 = [.started 20 200] ∧
      ¬ given .udp (m.run start as).1 <+: due .udp (m.run start as).1 := by
  decide +kernel

end Zperf
