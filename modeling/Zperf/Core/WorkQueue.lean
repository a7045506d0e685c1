import Mathlib.Logic.Function.Basic
import Zperf.Base.Machine

/-!
The work queue of the kernel shim, one access to memory at a time.

Tasks submit items to the queue and one worker task takes them from it. The flag of an
item is set by `|=` and cleared by `^=`, which load and store a word in two steps. A
step of a task that is blocked leaves everything as it is.
-/

namespace Zperf

open Base

/-- `DEFAULT_QUEUE_SIZE`. -/
def defaultQueueSize : Nat := 10

/-- `WORK_ITEM_IS_PENDING_BIT_MASK`. -/
def workItemIsPendingBitMask : UInt32 := 1

/-- Where a task is in a submission: past its check of `k_work_is_pending`, past the
load of `|=`, or past its store and about to send. -/
inductive Submitter (ι : Type) where
  | idle
  | checked (i : ι)
  | loaded (i : ι) (word : UInt32)
  | sending (i : ι)
  deriving DecidableEq, Repr

/-- Where `_work_task` is: about to receive, past `xQueueReceive`, past the load of
`^=`, past its store, or in the handler. -/
inductive Worker (ι : Type) where
  | receiving
  | received (i : ι)
  | loaded (i : ι) (word : UInt32)
  | toggled (i : ι)
  | handling (i : ι)
  deriving DecidableEq, Repr

/-- The item a task is about to submit. -/
def Submitter.item {ι : Type} : Submitter ι → Option ι
  | .idle => none
  | .checked i | .loaded i _ | .sending i => some i

/-- The item that has been taken from the queue, its flag not yet cleared. -/
def Worker.flagged {ι : Type} : Worker ι → Option ι
  | .received i | .loaded i _ => some i
  | .receiving | .toggled _ | .handling _ => none

/-- The item the worker is busy with. -/
def Worker.item {ι : Type} : Worker ι → Option ι
  | .receiving => none
  | .received i | .loaded i _ | .toggled i | .handling i => some i

structure WorkQueue (κ ι : Type) where
  queue : List ι
  isPending : ι → UInt32
  submitter : κ → Submitter ι
  worker : Worker ι

/-- Nothing submitted yet. -/
def WorkQueue.init (κ ι : Type) : WorkQueue κ ι := ⟨[], fun _ => 0, fun _ => .idle, .receiving⟩

inductive WorkEvent (ι : Type) where
  | submitted (i : ι)
  | dequeued (i : ι)
  | handled (i : ι)
  deriving DecidableEq, Repr

section Steps

variable {κ ι : Type} [DecidableEq κ] [DecidableEq ι]

def kWorkIsPending (q : WorkQueue κ ι) (i : ι) : Bool :=
  q.isPending i &&& workItemIsPendingBitMask ≠ 0

def WorkQueue.setSubmitter (q : WorkQueue κ ι) (k : κ) (r : Submitter ι) : WorkQueue κ ι :=
  { q with submitter := Function.update q.submitter k r }

def WorkQueue.setPending (q : WorkQueue κ ι) (i : ι) (word : UInt32) : WorkQueue κ ι :=
  { q with isPending := Function.update q.isPending i word }

/-- A task that is not submitting asks for item `i`, and goes on if it is not pending. -/
def requestWork (q : WorkQueue κ ι) (k : κ) (i : ι) : WorkQueue κ ι :=
  match q.submitter k with
  | .idle => if kWorkIsPending q i then q else q.setSubmitter k (.checked i)
  | _ => q

/-- The next step of `k_work_submit_to_queue`; `xQueueSend` blocks on a full queue. -/
def kWorkSubmitToQueue (q : WorkQueue κ ι) (k : κ) : List (WorkEvent ι) × WorkQueue κ ι :=
  match q.submitter k with
  | .idle => ([], q)
  | .checked i => ([], q.setSubmitter k (.loaded i (q.isPending i)))
  | .loaded i word =>
      ([], (q.setSubmitter k (.sending i)).setPending i (word ||| workItemIsPendingBitMask))
  | .sending i =>
      if q.queue.length < defaultQueueSize then
        ([.submitted i], { q.setSubmitter k .idle with queue := q.queue ++ [i] })
      else ([], q)

/-- The next step of `_work_task`; `xQueueReceive` blocks on an empty queue. -/
def workTask (q : WorkQueue κ ι) : List (WorkEvent ι) × WorkQueue κ ι :=
  match q.worker with
  | .receiving =>
      match q.queue with
      | [] => ([], q)
      | i :: is => ([.dequeued i], { q with queue := is, worker := .received i })
  | .received i => ([], { q with worker := .loaded i (q.isPending i) })
  | .loaded i word =>
      ([], { q.setPending i (word ^^^ workItemIsPendingBitMask) with worker := .toggled i })
  | .toggled i => ([.handled i], { q with worker := .handling i })
  | .handling _ => ([], { q with worker := .receiving })

/-- Whose step is next. -/
inductive WorkStep (κ ι : Type) where
  | request (k : κ) (i : ι)
  | submit (k : κ)
  | work
  deriving DecidableEq, Repr

/-- Any interleaving of the tasks. -/
def workQueue (κ ι : Type) [DecidableEq κ] [DecidableEq ι] :
    Machine (WorkQueue κ ι) (WorkStep κ ι) (WorkEvent ι) where
  step q a :=
    match a with
    | .request k i => ([], some (requestWork q k i))
    | .submit k => ((kWorkSubmitToQueue q k).1, some (kWorkSubmitToQueue q k).2)
    | .work => ((workTask q).1, some (workTask q).2)

end Steps

end Zperf
