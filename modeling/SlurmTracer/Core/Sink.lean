import SlurmTracer.Lib.Bytes

/-! The bounded queue and worker thread of `StdoutJsonSink` and `HttpSink`.
The two classes carry the same members and differ in how the capacity is taken
from the config and in what handling a batch amounts to. Every critical
section under `mu_` is one step. -/
namespace SlurmTracer.Core

variable {ρ : Type}

/-- The members both classes guard with `mu_`, and `dropped_`. -/
structure SinkQueue (ρ : Type) where
  queue : List (List ρ) := []
  stopping : Bool := false
  writtenBatches : Nat := 0
  queuedBatches : Nat := 0
  dropped : Nat := 0

namespace SinkQueue

/-- The eviction loop of `write`. `none` is `pop_front` on an empty deque. -/
def evictLoop (capacity : Nat) : List (List ρ) → Nat → Nat → Option (List (List ρ) × Nat × Nat)
  | [], written, dropped => if 0 ≥ capacity then none else some ([], written, dropped)
  | batch :: queue, written, dropped =>
    if (batch :: queue).length ≥ capacity then evictLoop capacity queue (written + 1) (dropped + 1)
    else some (batch :: queue, written, dropped)

/-- `write`: drops the oldest batches to make room, never the new one. -/
def write (capacity : Nat) (q : SinkQueue ρ) (batch : List ρ) : Option (SinkQueue ρ) :=
  if batch = [] then some q
  else match evictLoop capacity q.queue q.writtenBatches q.dropped with
    | none => none
    | some (queue, writtenBatches, dropped) =>
      some { q with queue := queue ++ [batch], writtenBatches, dropped,
                    queuedBatches := q.queuedBatches + 1 }

/-- The lifetime count `flush` waits for. -/
def flushTarget (q : SinkQueue ρ) : Nat := q.queuedBatches

/-- The predicate of the wait in `flush`. -/
def flushPasses (q : SinkQueue ρ) (target : Nat) : Bool := q.writtenBatches ≥ target || q.stopping

end SinkQueue

/-- Where the worker stands in `run`. -/
inductive Worker (ρ : Type) where
  /-- At the `cv_` wait. -/
  | waiting
  /-- Holding a popped batch; `failedPosts` posts of it have failed. -/
  | handling (batch : List ρ) (failedPosts : Nat)
  /-- The batch's fate is settled, `written_batches_` not yet advanced. -/
  | settled
  | exited
  deriving DecidableEq

/-- What one attempt at the batch in hand leads to. -/
inductive Attempt where
  | retry | delivered | lost
  deriving DecidableEq

structure QueueSink (ρ : Type) extends SinkQueue ρ where
  worker : Worker ρ := .waiting

/-- One step of the caller, the worker or the destructor. -/
inductive SinkStep (ρ : Type) where
  | write (batch : List ρ)
  | pop
  /-- An attempt at the batch in hand; for HTTP, what `post` returned. -/
  | attempt (ok : Bool)
  | finish
  | stop
  | exit

namespace QueueSink

/-- The steps both classes share, over the capacity and the class's own
reading of an attempt. `none` where the step is not enabled. -/
def step (capacity : Nat) (attempt : Nat → Bool → Attempt) (s : QueueSink ρ) :
    SinkStep ρ → Option (QueueSink ρ)
  | .write batch =>
    if s.stopping then none -- the owner is destroying the sink
    else (s.toSinkQueue.write capacity batch).map fun q => { s with toSinkQueue := q }
  | .pop =>
    match s.worker, s.queue with
    | .waiting, batch :: queue => some { s with queue, worker := .handling batch 0 }
    | _, _ => none
  | .attempt ok =>
    match s.worker with
    | .handling batch failedPosts =>
      match attempt failedPosts ok with
      | .retry => some { s with worker := .handling batch (failedPosts + 1) }
      | .delivered => some { s with worker := .settled }
      | .lost => some { s with worker := .settled, dropped := s.dropped + 1 }
    | _ => none
  | .finish =>
    match s.worker with
    | .settled => some { s with worker := .waiting, writtenBatches := s.writtenBatches + 1 }
    | _ => none
  | .stop => some { s with stopping := true }
  | .exit =>
    match s.worker, s.queue with
    | .waiting, [] => if s.stopping then some { s with worker := .exited } else none
    | _, _ => none

end QueueSink

namespace StdoutJsonSink

/-- The constructor turns a capacity of 0 into 1. -/
def maxQueued (maxQueuedBatches : UInt64) : Nat :=
  if maxQueuedBatches = 0 then 1 else maxQueuedBatches.toNat

/-- `fwrite`'s result is not looked at. -/
def attempt (_ : Nat) (_ : Bool) : Attempt := .delivered

def step (maxQueuedBatches : UInt64) (s : QueueSink ρ) (l : SinkStep ρ) : Option (QueueSink ρ) :=
  s.step (maxQueued maxQueuedBatches) attempt l

end StdoutJsonSink

namespace HttpSink

/-- `opt_.max_queued_batches` is used as it came. -/
def maxQueued (maxQueuedBatches : UInt64) : Nat := maxQueuedBatches.toNat

/-- One retry against a fresh connection before the batch counts as lost. -/
def attempt (failedPosts : Nat) (ok : Bool) : Attempt :=
  if ok then .delivered else if failedPosts = 0 then .retry else .lost

def step (maxQueuedBatches : UInt64) (s : QueueSink ρ) (l : SinkStep ρ) : Option (QueueSink ρ) :=
  s.step (maxQueued maxQueuedBatches) attempt l

end HttpSink

/-- Where the one thread that calls a sink stands. -/
inductive Caller where
  | idle
  /-- At the wait in `flush`, for the lifetime count it took on entry. -/
  | flushing (target : Nat)

/-- A sink beside the thread that calls it. -/
structure CalledSink (ρ : Type) extends QueueSink ρ where
  caller : Caller := .idle

/-- One step of the calling thread (the first four) or of the worker. -/
inductive CallStep (ρ : Type) where
  | write (batch : List ρ)
  /-- `flush` is entered. -/
  | flush
  /-- The wait in `flush` ends. -/
  | pass
  /-- The destructor is entered. -/
  | destroy
  | pop
  | attempt (ok : Bool)
  | finish
  | exit

namespace CalledSink

/-- The calling thread does one thing at a time; the worker goes its own way. -/
def step (sink : QueueSink ρ → SinkStep ρ → Option (QueueSink ρ)) (s : CalledSink ρ) :
    CallStep ρ → Option (CalledSink ρ) :=
  let taken (a : SinkStep ρ) : Option (CalledSink ρ) :=
    (sink s.toQueueSink a).map fun q => { s with toQueueSink := q }
  fun
  | .write batch =>
    match s.caller with
    | .idle => taken (.write batch)
    | .flushing _ => none
  | .flush =>
    match s.caller with
    | .idle => if s.stopping then none else some { s with caller := .flushing s.flushTarget }
    | .flushing _ => none
  | .pass =>
    match s.caller with
    | .idle => none
    | .flushing target => if s.flushPasses target then some { s with caller := .idle } else none
  | .destroy =>
    match s.caller with
    | .idle => taken .stop
    | .flushing _ => none
  | .pop => taken .pop
  | .attempt ok => taken (.attempt ok)
  | .finish => taken .finish
  | .exit => taken .exit

end CalledSink

end SlurmTracer.Core
