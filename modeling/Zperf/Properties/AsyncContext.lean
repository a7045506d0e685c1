import Mathlib.Data.Fintype.Basic
import Zperf.Core.AsyncUpload
import Zperf.Properties.PendingFlag

/-!
Whose context it is that an asynchronous upload uses.

The context of a protocol belongs to one call from the check of the pending flag to the
last callback, if no other call passes the check meanwhile. Each step keeps that, and
what is owed to the call changes by what the step gives it.
-/

namespace Zperf

open Base

variable {κ π : Type}

/-- What a call is told or given, without the outcome of the upload. -/
inductive Answer (π : Type) where
  | started (callback userData : UInt32)
  | uploaded (param : π)
  | ended (callback userData : UInt32)
  deriving DecidableEq, Repr

/-- The answers given for protocol `p`. -/
def AsyncEvent.answer (p : SessionProto) : AsyncEvent π → Option (Answer π)
  | .returned _ _ => none
  | .callback q cb .started userData => if q = p then some (.started cb userData) else none
  | .callback q cb .finished userData | .callback q cb .error userData =>
      if q = p then some (.ended cb userData) else none
  | .upload q param => if q = p then some (.uploaded param) else none

/-- The arguments of the calls for protocol `p` that returned 0. -/
def AsyncEvent.returnedFor (p : SessionProto) : AsyncEvent π → Option (UploadCtx π)
  | .returned q args => if q = p then some args else none
  | .callback _ _ _ _ | .upload _ _ => none

/-- The answer that a call is due. -/
def UploadCtx.answer (args : UploadCtx π) : List (Answer π) :=
  [.started args.callback args.userData, .uploaded args.param,
    .ended args.callback args.userData]

/-- The answers given, and those due to the calls that returned 0. -/
def given (p : SessionProto) (log : List (AsyncEvent π)) : List (Answer π) :=
  log.filterMap (AsyncEvent.answer p)

def due (p : SessionProto) (log : List (AsyncEvent π)) : List (Answer π) :=
  (log.filterMap (AsyncEvent.returnedFor p)).flatMap UploadCtx.answer

/-- No call for `p` is between its check and its last callback. -/
def Quiet (s : AsyncUploads κ π) (p : SessionProto) : Prop :=
  (∀ k, (s.work.submitter k).item ≠ some p) ∧ p ∉ s.work.queue ∧ s.work.worker.item ≠ some p

instance [Fintype κ] (s : AsyncUploads κ π) (p : SessionProto) : Decidable (Quiet s p) :=
  inferInstanceAs (Decidable (_ ∧ _))

/-- A call that passes the check of the pending flag does so when its protocol is
quiet. -/
def ChecksApart (_ : List (AsyncStep κ π)) (s : AsyncUploads κ π) : AsyncStep κ π → Prop
  | .call k p args =>
      args.callback ≠ 0 → s.call k = none → kWorkIsPending s.work p = false → Quiet s p
  | .caller _ | .worker _ => True

/-- What is still due to the call that the worker has, or that is in the queue. -/
def owed (s : AsyncUploads κ π) (p : SessionProto) : List (Answer π) :=
  if p ∈ s.work.queue then (s.ctx p).answer
  else if s.work.worker.item = some p then
    if s.work.worker = .handling p then
      match s.handler with
      | .starting => (s.ctx p).answer
      | .uploading => (s.ctx p).answer.drop 1
      | .ending _ => (s.ctx p).answer.drop 2
    else (s.ctx p).answer
  else []

/-- The first `n` assignments of a call are in the context. -/
def Written (ctx args : UploadCtx π) (n : Nat) : Prop :=
  (0 < n → ctx.param = args.param) ∧ (1 < n → ctx.callback = args.callback) ∧
    (2 < n → ctx.userData = args.userData)

/-- The context of each protocol belongs to one call at most. -/
structure AsyncOk (s : AsyncUploads κ π) : Prop where
  work : WorkOk s.work
  queued : ∀ p ∈ s.work.queue, s.work.worker.item ≠ some p
  calling : ∀ k c, s.call k = some c →
    (s.work.submitter k).item = some c.proto ∧ c.written ≤ 3 ∧
      Written (s.ctx c.proto) c.args c.written ∧
      (c.written < 3 → s.work.submitter k = .checked c.proto)
  resting : ∀ k, s.call k = none → s.work.submitter k = .idle
  apart : ∀ k p, (s.work.submitter k).item = some p → s.work.worker.item ≠ some p
  starting : s.handler ≠ .starting → ∃ p, s.work.worker = .handling p

theorem AsyncOk.init (ctx : SessionProto → UploadCtx π) :
    AsyncOk (AsyncUploads.init ctx : AsyncUploads κ π) where
  work := WorkOk.init
  queued := by simp [AsyncUploads.init, WorkQueue.init]
  calling := by simp [AsyncUploads.init]
  resting := by simp [AsyncUploads.init, WorkQueue.init]
  apart := by simp [AsyncUploads.init, WorkQueue.init, Submitter.item]
  starting := by simp [AsyncUploads.init]

theorem owed_congr {s s' : AsyncUploads κ π} {p : SessionProto}
    (queue : p ∈ s'.work.queue ↔ p ∈ s.work.queue) (worker : s'.work.worker = s.work.worker)
    (handler : s'.handler = s.handler)
    (ctx : p ∈ s.work.queue ∨ s.work.worker.item = some p → s'.ctx p = s.ctx p) :
    owed s' p = owed s p := by
  unfold owed
  rw [worker, handler]
  by_cases queued : p ∈ s.work.queue
  · rw [if_pos queued, if_pos (queue.mpr queued), ctx (.inl queued)]
  · rw [if_neg queued, if_neg fun h => queued (queue.mp h)]
    by_cases taken : s.work.worker.item = some p
    · rw [if_pos taken, if_pos taken, ctx (.inr taken)]
    · rw [if_neg taken, if_neg taken]

theorem owed_of_queued {s : AsyncUploads κ π} {p : SessionProto} (h : p ∈ s.work.queue) :
    owed s p = (s.ctx p).answer := by
  rw [owed, if_pos h]

theorem owed_of_untaken {s : AsyncUploads κ π} {p : SessionProto} (h : p ∉ s.work.queue)
    (h' : s.work.worker.item ≠ some p) : owed s p = [] := by
  rw [owed, if_neg h, if_neg h']

variable [DecidableEq κ]

theorem AsyncOk.call {s : AsyncUploads κ π} (h : AsyncOk s) {k : κ} {p : SessionProto}
    {args : UploadCtx π} (apart : ChecksApart [] s (.call k p args)) :
    AsyncOk (zperfUploadAsync s k p args) ∧
      ∀ q, owed (zperfUploadAsync s k p args) q = owed s q := by
  unfold zperfUploadAsync
  split
  · exact ⟨h, fun _ => rfl⟩
  · rename_i passes
    simp only [not_or, ne_eq, Decidable.not_not, Bool.not_eq_true] at passes
    obtain ⟨valid, free, clear⟩ := passes
    have quiet := apart valid free clear
    have idle := h.resting k free
    have next : requestWork s.work k p = s.work.setSubmitter k (.checked p) := by
      simp [requestWork, idle, clear]
    rw [next]
    constructor
    · refine ⟨h.work.checked idle quiet.1 clear, h.queued, ?calling, ?resting, ?apart, h.starting⟩
      case calling =>
        intro k' c hc
        simp only [submitter_setSubmitter]
        by_cases own : k' = k
        · subst own
          obtain rfl : AsyncCall.mk p args 0 = c := by simpa using hc
          simp [Submitter.item, Written]
        · rw [if_neg own]
          exact h.calling k' c (by simpa [own] using hc)
      case resting =>
        intro k' hk'
        simp only [submitter_setSubmitter]
        by_cases own : k' = k
        · simp [own] at hk'
        · rw [if_neg own]
          exact h.resting k' (by simpa [own] using hk')
      case apart =>
        intro k' q hq
        simp only [submitter_setSubmitter] at hq
        by_cases own : k' = k
        · rw [if_pos own] at hq
          obtain rfl : p = q := by simpa [Submitter.item] using hq
          exact quiet.2.2
        · rw [if_neg own] at hq
          exact h.apart k' q hq
    · exact fun q => owed_congr Iff.rfl rfl rfl fun _ => rfl

theorem AsyncOk.assign {s : AsyncUploads κ π} (h : AsyncOk s) {k : κ} {c : AsyncCall π}
    (hc : s.call k = some c) (more : c.written < 3) :
    AsyncOk { s with
      ctx := Function.update s.ctx c.proto ((s.ctx c.proto).assign c.args c.written)
      call := Function.update s.call k (some { c with written := c.written + 1 }) } ∧
    ∀ q, owed { s with
      ctx := Function.update s.ctx c.proto ((s.ctx c.proto).assign c.args c.written)
      call := Function.update s.call k (some { c with written := c.written + 1 }) } q =
        owed s q := by
  obtain ⟨item, -, written, checked⟩ := h.calling k c hc
  have place := h.work.apart k c.proto item
  have free := h.apart k c.proto item
  constructor
  · refine ⟨h.work, h.queued, ?calling, ?resting, h.apart, h.starting⟩
    case calling =>
      intro k' c' hc'
      by_cases own : k' = k
      · subst own
        obtain rfl : { c with written := c.written + 1 } = c' := by simpa using hc'
        refine ⟨item, more, ?_, fun _ => checked more⟩
        dsimp only
        rw [Function.update_self]
        have steps : c.written = 0 ∨ c.written = 1 ∨ c.written = 2 := by omega
        unfold Written at written ⊢
        rcases steps with zero | one | two
        · simp [zero, UploadCtx.assign]
        · simp_all [UploadCtx.assign]
        · simp_all [UploadCtx.assign]
      · have others := h.calling k' c' (by simpa [own] using hc')
        have ne : c'.proto ≠ c.proto := fun same =>
          own (h.work.alone k' k c.proto (same ▸ others.1) item)
        dsimp only
        rw [Function.update_of_ne ne]
        exact others
    case resting =>
      intro k' hk'
      by_cases own : k' = k
      · simp [own] at hk'
      · exact h.resting k' (by simpa [own] using hk')
  · intro q
    refine owed_congr ?_ ?_ ?_ ?_
    · exact Iff.rfl
    · rfl
    · rfl
    intro busy
    by_cases own : q = c.proto
    · subst own
      exact absurd busy (not_or.mpr ⟨place.1, free⟩)
    · exact Function.update_of_ne own _ _

/-- A step of the submission that does not send yet. -/
theorem AsyncOk.submits {s : AsyncUploads κ π} (h : AsyncOk s) {k : κ} {c : AsyncCall π}
    (hc : s.call k = some c) (done : c.written = 3) {work : WorkQueue κ SessionProto}
    (ok : WorkOk work) (queue : work.queue = s.work.queue)
    (worker : work.worker = s.work.worker)
    (own : (work.submitter k).item = (s.work.submitter k).item)
    (others : ∀ k', k' ≠ k → work.submitter k' = s.work.submitter k') :
    AsyncOk { s with work := work } ∧ ∀ q, owed { s with work := work } q = owed s q := by
  have items (k' : κ) : (work.submitter k').item = (s.work.submitter k').item := by
    by_cases same : k' = k
    · rw [same, own]
    · rw [others k' same]
  constructor
  · refine ⟨ok, ?queued, ?calling, ?resting, ?apart, ?starting⟩
    case queued =>
      intro p hp
      exact worker ▸ h.queued p (queue ▸ hp)
    case calling =>
      intro k' c' hc'
      obtain ⟨item, few, written, checked⟩ := h.calling k' c' hc'
      refine ⟨(items k').trans item, few, written, fun more => ?_⟩
      have ne : k' ≠ k := by
        rintro rfl
        obtain rfl := Option.some.inj (hc'.symm.trans hc)
        omega
      exact (others k' ne).trans (checked more)
    case resting =>
      intro k' hk'
      have ne : k' ≠ k := by
        rintro rfl
        exact Option.some_ne_none c (hc.symm.trans hk')
      exact (others k' ne).trans (h.resting k' hk')
    case apart =>
      intro k' p hp
      have there := h.apart k' p ((items k').symm.trans hp)
      exact worker ▸ there
    case starting =>
      intro busy
      obtain ⟨p, hp⟩ := h.starting busy
      exact ⟨p, worker.trans hp⟩
  · intro q
    refine owed_congr ?_ worker rfl fun _ => rfl
    rw [show ({ s with work := work } : AsyncUploads κ π).work.queue = work.queue from rfl, queue]

theorem AsyncOk.sends {s : AsyncUploads κ π} (h : AsyncOk s) {k : κ} {c : AsyncCall π}
    (hc : s.call k = some c) (done : c.written = 3)
    (sending : s.work.submitter k = .sending c.proto) :
    AsyncOk { s with
      work := { s.work.setSubmitter k .idle with queue := s.work.queue ++ [c.proto] }
      call := Function.update s.call k none } ∧
    owed s c.proto = [] ∧
    ∀ q, owed { s with
      work := { s.work.setSubmitter k .idle with queue := s.work.queue ++ [c.proto] }
      call := Function.update s.call k none } q =
        if q = c.proto then c.args.answer else owed s q := by
  obtain ⟨item, -, written, -⟩ := h.calling k c hc
  have place := h.work.apart k c.proto item
  have free := h.apart k c.proto item
  refine ⟨?_, owed_of_untaken place.1 free, ?_⟩
  · refine ⟨h.work.send sending, ?queued, ?calling, ?resting, ?apart, h.starting⟩
    case queued =>
      intro p hp
      cases List.mem_append.mp hp with
      | inl queued => exact h.queued p queued
      | inr last =>
          obtain rfl : p = c.proto := by simpa using last
          exact free
    case calling =>
      intro k' c' hc'
      have ne : k' ≠ k := by
        rintro rfl
        simp at hc'
      simp only [submitter_setSubmitter, if_neg ne]
      exact h.calling k' c' (by simpa [ne] using hc')
    case resting =>
      intro k' hk'
      simp only [submitter_setSubmitter]
      by_cases same : k' = k
      · rw [if_pos same]
      · rw [if_neg same]
        exact h.resting k' (by simpa [same] using hk')
    case apart =>
      intro k' p hp
      simp only [submitter_setSubmitter] at hp
      by_cases same : k' = k
      · simp [same, Submitter.item] at hp
      · rw [if_neg same] at hp
        exact h.apart k' p hp
  · intro q
    by_cases same : q = c.proto
    · subst same
      rw [if_pos rfl, owed_of_queued (by simp)]
      have whole : s.ctx c.proto = c.args := by
        rw [done] at written
        obtain ⟨param, callback, userData⟩ := written
        cases hctx : s.ctx c.proto
        cases hargs : c.args
        simp_all
      exact congrArg UploadCtx.answer whole
    · rw [if_neg same]
      refine owed_congr ?_ ?_ ?_ ?_
      · simp [same]
      · rfl
      · rfl
      · exact fun _ => rfl

theorem AsyncOk.caller {s : AsyncUploads κ π} (h : AsyncOk s) (k : κ) :
    AsyncOk (continueCall s k).2 ∧
      ∀ p, given p (continueCall s k).1 = [] ∧
        owed (continueCall s k).2 p = owed s p ++ due p (continueCall s k).1 := by
  have quiet {t : AsyncUploads κ π} (ht : AsyncOk t ∧ ∀ q, owed t q = owed s q) :
      AsyncOk t ∧ ∀ p, given p ([] : List (AsyncEvent π)) = [] ∧
        owed t p = owed s p ++ due p [] :=
    ⟨ht.1, fun p => ⟨rfl, by rw [ht.2 p]; simp [due]⟩⟩
  unfold continueCall
  cases hc : s.call k with
  | none => exact quiet ⟨h, fun _ => rfl⟩
  | some c =>
      dsimp only
      split
      · rename_i more
        exact quiet (h.assign hc more)
      · rename_i notMore
        have few := (h.calling k c hc).2.1
        have item := (h.calling k c hc).1
        have done : c.written = 3 := by omega
        unfold kWorkSubmitToQueue
        cases here : s.work.submitter k with
        | idle => simp [here, Submitter.item] at item
        | checked i =>
            apply quiet
            apply h.submits hc done (h.work.load here) rfl rfl
            · simp [submitter_setSubmitter, here, Submitter.item]
            · exact fun k' ne => by rw [submitter_setSubmitter, if_neg ne]
        | loaded i word =>
            apply quiet
            apply h.submits hc done (h.work.store here) rfl rfl
            · simp [setPending_frame, submitter_setSubmitter, here, Submitter.item]
            · exact fun k' ne => by
                rw [(setPending_frame _ _ _).2.1, submitter_setSubmitter, if_neg ne]
        | sending i =>
            obtain rfl : i = c.proto := by simpa [here, Submitter.item] using item
            dsimp only
            split
            · rename_i heq
              split at heq
              · simp at heq
              · obtain ⟨-, rfl⟩ := Prod.mk.inj heq
                exact quiet ⟨h, fun _ => rfl⟩
            · rename_i heq
              split at heq
              · obtain ⟨-, rfl⟩ := Prod.mk.inj heq
                obtain ⟨ok, none, owes⟩ := h.sends hc done here
                refine ⟨ok, fun p => ⟨rfl, ?_⟩⟩
                rw [owes p]
                by_cases same : p = c.proto
                · subst same
                  simp [none, due, AsyncEvent.returnedFor]
                · simp [same, due, AsyncEvent.returnedFor, Ne.symm same]
              · simp at heq

omit [DecidableEq κ] in
theorem owed_of_taken {s : AsyncUploads κ π} {p : SessionProto} (taken : s.work.worker.item = some p)
    (starting : s.handler = .starting) : owed s p = (s.ctx p).answer := by
  rw [owed, if_pos taken, starting]
  split
  · rfl
  · split <;> rfl

omit [DecidableEq κ] in
theorem owed_of_handling {s : AsyncUploads κ π} {p : SessionProto} (h : p ∉ s.work.queue)
    (handling : s.work.worker = .handling p) :
    owed s p = match s.handler with
      | .starting => (s.ctx p).answer
      | .uploading => (s.ctx p).answer.drop 1
      | .ending _ => (s.ctx p).answer.drop 2 := by
  rw [owed, if_neg h, if_pos (by simp [handling, Worker.item]), if_pos handling]

omit [DecidableEq κ] in
/-- A step of the worker before the handler starts: it keeps the item it has. -/
theorem AsyncOk.keeps {s : AsyncUploads κ π} (h : AsyncOk s) {work : WorkQueue κ SessionProto}
    (ok : WorkOk work) (queue : work.queue = s.work.queue)
    (submitter : work.submitter = s.work.submitter)
    (item : work.worker.item = s.work.worker.item) (starting : s.handler = .starting) :
    AsyncOk { s with work := work } ∧ ∀ q, owed { s with work := work } q = owed s q := by
  constructor
  · refine ⟨ok, ?queued, ?calling, ?resting, ?apart, fun busy => absurd starting busy⟩
    case queued =>
      intro p hp
      exact fun hw => h.queued p (queue ▸ hp) (item.symm.trans hw)
    case calling =>
      intro k c hc
      have there := h.calling k c hc
      simp only [submitter]
      exact there
    case resting =>
      intro k hk
      simp only [submitter]
      exact h.resting k hk
    case apart =>
      intro k p hp
      simp only [submitter] at hp
      exact fun hw => h.apart k p hp (item.symm.trans hw)
  · intro q
    by_cases taken : s.work.worker.item = some q
    · rw [owed_of_taken taken starting]
      exact owed_of_taken (item.trans taken) starting
    · by_cases queued : q ∈ s.work.queue
      · rw [owed_of_queued queued]
        exact owed_of_queued (show q ∈ work.queue from queue ▸ queued)
      · rw [owed_of_untaken queued taken]
        exact owed_of_untaken (show q ∉ work.queue from queue ▸ queued)
          fun hw => taken (item.symm.trans hw)

omit [DecidableEq κ] in
theorem AsyncOk.receives {s : AsyncUploads κ π} (h : AsyncOk s) {i : SessionProto}
    {is : List SessionProto} (receiving : s.work.worker = .receiving)
    (queue : s.work.queue = i :: is) :
    AsyncOk { s with work := { s.work with queue := is, worker := .received i } } ∧
      ∀ q, owed { s with work := { s.work with queue := is, worker := .received i } } q =
        owed s q := by
  have starting : s.handler = .starting := by
    by_contra busy
    obtain ⟨p, hp⟩ := h.starting busy
    simp [receiving] at hp
  have once := h.work.once
  rw [queue, List.nodup_cons] at once
  constructor
  · refine ⟨h.work.receive receiving queue, ?queued, h.calling, h.resting, ?apart,
      fun busy => absurd starting busy⟩
    case queued =>
      intro p hp
      have ne : p ≠ i := fun same => once.1 (same ▸ hp)
      simpa [Worker.item] using Ne.symm ne
    case apart =>
      intro k p hp
      have notQueued := (h.work.apart k p hp).1
      rw [queue, List.mem_cons, not_or] at notQueued
      simpa [Worker.item] using Ne.symm notQueued.1
  · intro q
    by_cases own : q = i
    · subst own
      rw [owed_of_queued (s := s) (by simp [queue])]
      exact owed_of_taken rfl starting
    · by_cases queued : q ∈ is
      · rw [owed_of_queued (s := s) (by simp [queue, queued])]
        exact owed_of_queued queued
      · rw [owed_of_untaken (s := s) (by simp [queue, queued, own])
          (by simp [receiving, Worker.item])]
        exact owed_of_untaken queued (by simpa [Worker.item] using Ne.symm own)

omit [DecidableEq κ] in
/-- One step of the handler: it gives the next answer that is owed. -/
theorem AsyncOk.handles {s : AsyncUploads κ π} (h : AsyncOk s) {p : SessionProto}
    (handling : s.work.worker = .handling p) (ret : Int) :
    AsyncOk (continueWork s ret).2 ∧
      ∀ q, due q (continueWork s ret).1 = [] ∧
        owed s q = given q (continueWork s ret).1 ++ owed (continueWork s ret).2 q := by
  have notQueued : p ∉ s.work.queue := fun hp => h.queued p hp (by simp [handling, Worker.item])
  have next {handler : AsyncWork} : AsyncOk { s with handler := handler } :=
    ⟨h.work, h.queued, h.calling, h.resting, h.apart, fun _ => ⟨p, handling⟩⟩
  have owes := owed_of_handling notQueued handling
  have others {t : AsyncUploads κ π} {q : SessionProto} (own : q ≠ p)
      (queue : t.work.queue = s.work.queue) (item : t.work.worker.item ≠ some q)
      (ctx : t.ctx = s.ctx) : owed t q = owed s q := by
    by_cases queued : q ∈ s.work.queue
    · rw [owed_of_queued queued, owed_of_queued (queue ▸ queued), ctx]
    · rw [owed_of_untaken queued (by simpa [handling, Worker.item] using Ne.symm own),
        owed_of_untaken (queue ▸ queued) item]
  have elsewhere {q : SessionProto} (own : q ≠ p) : s.work.worker.item ≠ some q := by
    simpa [handling, Worker.item] using Ne.symm own
  unfold continueWork
  rw [handling]
  cases handler : s.handler with
  | starting =>
      refine ⟨next, fun q => ⟨rfl, ?_⟩⟩
      by_cases own : q = p
      · subst own
        rw [owes, handler, owed_of_handling (s := { s with handler := .uploading }) notQueued handling]
        simp [given, AsyncEvent.answer, UploadCtx.answer]
      · rw [others (t := { s with handler := .uploading }) own rfl (elsewhere own) rfl]
        simp [given, AsyncEvent.answer, Ne.symm own]
  | uploading =>
      refine ⟨next, fun q => ⟨rfl, ?_⟩⟩
      by_cases own : q = p
      · subst own
        rw [owes, handler,
          owed_of_handling (s := { s with handler := .ending ret }) notQueued handling]
        simp [given, AsyncEvent.answer, UploadCtx.answer]
      · rw [others (t := { s with handler := .ending ret }) own rfl (elsewhere own) rfl]
        simp [given, AsyncEvent.answer, Ne.symm own]
  | ending ret =>
      have done : (workTask s.work).2 = { s.work with worker := .receiving } := by
        simp [workTask, handling]
      have ok := h.work.work
      rw [done] at ok
      dsimp only
      rw [done]
      constructor
      · exact ⟨ok, by simp [Worker.item], h.calling, h.resting, by simp [Worker.item], by simp⟩
      · intro q
        refine ⟨rfl, ?_⟩
        by_cases own : q = p
        · subst own
          rw [owes, handler, owed_of_untaken (s := { s with
            handler := .starting, work := { s.work with worker := .receiving } }) notQueued
            (by simp [Worker.item])]
          by_cases failed : ret < 0 <;>
            simp [failed, given, AsyncEvent.answer, UploadCtx.answer]
        · rw [others (t := { s with
            handler := .starting, work := { s.work with worker := .receiving } }) own rfl
            (by simp [Worker.item]) rfl]
          by_cases failed : ret < 0 <;>
            simp [failed, given, AsyncEvent.answer, Ne.symm own]

omit [DecidableEq κ] in
theorem AsyncOk.worker {s : AsyncUploads κ π} (h : AsyncOk s) (ret : Int) :
    AsyncOk (continueWork s ret).2 ∧
      ∀ q, due q (continueWork s ret).1 = [] ∧
        owed s q = given q (continueWork s ret).1 ++ owed (continueWork s ret).2 q := by
  have quiet {t : AsyncUploads κ π} (ht : AsyncOk t ∧ ∀ q, owed t q = owed s q) :
      AsyncOk t ∧ ∀ q, due q ([] : List (AsyncEvent π)) = [] ∧
        owed s q = given q [] ++ owed t q :=
    ⟨ht.1, fun q => ⟨rfl, by rw [ht.2 q]; rfl⟩⟩
  have starting (busy : ∀ p, s.work.worker ≠ .handling p) : s.handler = .starting := by
    by_contra notStarting
    obtain ⟨p, hp⟩ := h.starting notStarting
    exact busy p hp
  have ok := h.work.work
  cases worker : s.work.worker with
  | handling p => exact h.handles worker ret
  | receiving =>
      unfold continueWork
      rw [worker]
      apply quiet
      unfold workTask
      rw [worker]
      cases queue : s.work.queue with
      | nil => exact ⟨h, fun _ => rfl⟩
      | cons i is => exact h.receives worker queue
  | received i | loaded i word | toggled i =>
      unfold continueWork
      rw [worker]
      apply quiet
      refine h.keeps ok ?_ ?_ ?_ (starting (by simp [worker]))
      · simp [workTask, worker, setPending_frame]
      · simp [workTask, worker, setPending_frame]
      · simp [workTask, worker, Worker.item]

end Zperf
