import Mathlib.Algebra.GroupWithZero.Nat
import SlurmTracer.Core.Threads

/-! The end of `Daemon::run`. Once the main loop is left, the pipeline ships
what is pending and flushes one sink after the other while their workers go on,
and `report_shutdown` reads the counters. -/
namespace SlurmTracer.Core
open Lib

/-- What the message of `report_shutdown` is put together from. -/
structure ShutdownReport where
  events : Nat
  attribution : Option ResolverStats
  droppedBatches : Nat
  deriving DecidableEq

/-- How far `run` has come. -/
inductive RunStage where
  | looping
  /-- In `pipeline_->flush()`, with these sinks still to flush. -/
  | flushing (sinks : List SinkRef)
  /-- At the wait in the `flush` of a sink. `NullSink` has none, and no count
  it could wait for. -/
  | waiting (sink : SinkRef) (target : Nat) (sinks : List SinkRef)
  | reported (report : ShutdownReport)

structure Run where
  threads : Threads
  stage : RunStage := .looping

/-- One step of a run. -/
inductive RunStep where
  | thread (a : ThreadStep)
  /-- A signal, or a failed poll, ends the loop. -/
  | leave (now : Int64)
  /-- The `flush` of the next sink is entered. -/
  | flush
  /-- Its wait ends. -/
  | pass
  | report

namespace Run

/-- `report_shutdown`. -/
def reportShutdown (t : Threads) (pipeline : Pipeline) : ShutdownReport :=
  { events := pipeline.stats.records
    attribution := t.daemon.resolver.map CgroupResolver.stats
    droppedBatches := (t.daemon.sinks.map fun s => (t.queues s.ref).dropped).sum }

/-- The start of `pipeline_->flush()`: the pending batch is shipped. -/
def leave (t : Threads) (now : Int64) : Option (Threads × List SinkRef) :=
  match t.position, t.daemon.pipeline with
  | .polling, some pipeline =>
    let (pipeline, shipments, sinks) := pipeline.flush now
    let trace := t.daemon.trace ++ shipments.map .shipped
    (Threads.deliver { t with daemon := { t.daemon with pipeline := some pipeline, trace } } shipments).map
      fun t => (t, sinks)
  | _, _ => none

/-- Once the loop is left, only the workers still take steps of their own. -/
def mayStep : RunStage → ThreadStep → Bool
  | .looping, _ => true
  | .flushing _, .worker _ _ | .waiting _ _ _, .worker _ _ => true
  | _, _ => false

def step (run : Run) : RunStep → Option Run
  | .thread a =>
    if mayStep run.stage a then (run.threads.step a).map fun threads => { run with threads } else none
  | .leave now =>
    match run.stage with
    | .looping => (leave run.threads now).map fun left => { threads := left.1, stage := .flushing left.2 }
    | _ => none
  | .flush =>
    match run.stage with
    | .flushing (sink :: sinks) =>
      some { run with stage := .waiting sink (run.threads.queues sink).flushTarget sinks }
    | _ => none
  | .pass =>
    match run.stage with
    | .waiting sink target sinks =>
      if (run.threads.queues sink).flushPasses target then
        let t := run.threads
        let daemon := { t.daemon with trace := t.daemon.trace ++ [.flushed sink] }
        some { threads := { t with daemon }, stage := .flushing sinks }
      else none
    | _ => none
  | .report =>
    match run.stage, run.threads.daemon.pipeline with
    | .flushing [], some pipeline => some { run with stage := .reported (reportShutdown run.threads pipeline) }
    | _, _ => none

end Run

end SlurmTracer.Core
