import Zperf.Core.WorkQueue

/-!
Asynchronous uploads: the callers, the one context of each protocol and the handler
that the work queue runs.

A caller writes the context in three assignments between its check of the pending flag
and its submission. `zperf_udp_upload` and `zperf_tcp_upload` are one step here, with
their result as input; both protocols have the same code up to the context's name.
-/

namespace Zperf

open Base

inductive SessionProto where
  | udp
  | tcp
  deriving DecidableEq, Repr

/-- `struct zperf_async_upload_context` without its work item; pointers are numbers. -/
structure UploadCtx (π : Type) where
  param : π
  callback : UInt32
  userData : UInt32
  deriving DecidableEq, Repr

inductive AsyncStatus where
  | started
  | finished
  | error
  deriving DecidableEq, Repr

/-- What can be seen of asynchronous uploads: a call that returns 0, the callbacks and
the uploads. -/
inductive AsyncEvent (π : Type) where
  | returned (p : SessionProto) (args : UploadCtx π)
  | callback (p : SessionProto) (callback : UInt32) (status : AsyncStatus) (userData : UInt32)
  | upload (p : SessionProto) (param : π)
  deriving DecidableEq, Repr

/-- A call of `zperf_udp_upload_async` or `zperf_tcp_upload_async` past its check;
`written` counts the assignments to the context that are done. -/
structure AsyncCall (π : Type) where
  proto : SessionProto
  args : UploadCtx π
  written : Nat
  deriving DecidableEq, Repr

/-- Where `udp_upload_async_work` or `tcp_upload_async_work` is. -/
inductive AsyncWork where
  | starting
  | uploading
  | ending (ret : Int)
  deriving DecidableEq, Repr

structure AsyncUploads (κ π : Type) where
  work : WorkQueue κ SessionProto
  ctx : SessionProto → UploadCtx π
  call : κ → Option (AsyncCall π)
  handler : AsyncWork

section Steps

variable {κ π : Type} [DecidableEq κ]

/-- Before the first call; the contexts are static. -/
def AsyncUploads.init (ctx : SessionProto → UploadCtx π) : AsyncUploads κ π :=
  ⟨WorkQueue.init κ SessionProto, ctx, fun _ => none, .starting⟩

/-- The beginning of `zperf_udp_upload_async`, up to its check: `-EINVAL` without a
callback, `-EBUSY` if the work is pending. A caller makes one call at a time. -/
def zperfUploadAsync (s : AsyncUploads κ π) (k : κ) (p : SessionProto) (args : UploadCtx π) :
    AsyncUploads κ π :=
  if args.callback = 0 ∨ s.call k ≠ none ∨ kWorkIsPending s.work p then s
  else { s with
    work := requestWork s.work k p
    call := Function.update s.call k (some ⟨p, args, 0⟩) }

/-- The next of the three assignments to the context. -/
def UploadCtx.assign (ctx args : UploadCtx π) : Nat → UploadCtx π
  | 0 => { ctx with param := args.param }
  | 1 => { ctx with callback := args.callback }
  | _ => { ctx with userData := args.userData }

/-- The next step of a call: an assignment, then `zperf_async_work_submit`. -/
def continueCall (s : AsyncUploads κ π) (k : κ) : List (AsyncEvent π) × AsyncUploads κ π :=
  match s.call k with
  | none => ([], s)
  | some c =>
      if c.written < 3 then
        ([], { s with
          ctx := Function.update s.ctx c.proto ((s.ctx c.proto).assign c.args c.written)
          call := Function.update s.call k (some { c with written := c.written + 1 }) })
      else match kWorkSubmitToQueue s.work k with
        | ([], work) => ([], { s with work := work })
        | (_ :: _, work) =>
            ([.returned c.proto c.args],
              { s with work := work, call := Function.update s.call k none })

/-- The next step of the worker, with the result of the upload if it comes to that. -/
def continueWork (s : AsyncUploads κ π) (ret : Int) : List (AsyncEvent π) × AsyncUploads κ π :=
  match s.work.worker with
  | .handling p =>
      match s.handler with
      | .starting =>
          ([.callback p (s.ctx p).callback .started (s.ctx p).userData],
            { s with handler := .uploading })
      | .uploading => ([.upload p (s.ctx p).param], { s with handler := .ending ret })
      | .ending ret =>
          ([.callback p (s.ctx p).callback (if ret < 0 then .error else .finished)
              (s.ctx p).userData],
            { s with handler := .starting, work := (workTask s.work).2 })
  | _ => ([], { s with work := (workTask s.work).2 })

inductive AsyncStep (κ π : Type) where
  | call (k : κ) (p : SessionProto) (args : UploadCtx π)
  | caller (k : κ)
  | worker (ret : Int)
  deriving DecidableEq, Repr

/-- Any interleaving of the callers and the worker. -/
def asyncUploads (κ π : Type) [DecidableEq κ] :
    Machine (AsyncUploads κ π) (AsyncStep κ π) (AsyncEvent π) where
  step s a :=
    match a with
    | .call k p args => ([], some (zperfUploadAsync s k p args))
    | .caller k => ((continueCall s k).1, some (continueCall s k).2)
    | .worker ret => ((continueWork s ret).1, some (continueWork s ret).2)

end Steps

end Zperf
