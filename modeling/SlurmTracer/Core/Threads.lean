import SlurmTracer.Core.Daemon
import SlurmTracer.Core.Sink

/-! The daemon thread and the worker thread of every sink as independent
parties. The daemon thread polls, ticks and walks through the loops of
`reload_config`; on the way it can stop at the wait in `flush` and at the
`join` in a sink's destructor. -/
namespace SlurmTracer.Core
open Lib

/-- The queue steps of a sink's class. `NullSink` has no queue and no worker. -/
def SinkKind.step : SinkKind → QueueSink Record → SinkStep Record → Option (QueueSink Record)
  | .null, s, .write _ => some s
  | .null, _, _ => none
  | .stdoutJson maxQueuedBatches, s, a => StdoutJsonSink.step maxQueuedBatches s a
  | .http opt, s, a => HttpSink.step opt.maxQueuedBatches s a

/-- An accepted reload under way. -/
structure Reload where
  o : Outcomes
  next : Config
  diff : ConfigDiff

/-- Where the daemon thread stands: in the main loop, or in one of the loops of
`reload_config` with the ids that are left. -/
inductive Position where
  | polling
  | removingSinks (r : Reload) (ids : List Bytes)
  /-- In `doomed->flush()`. -/
  | flushing (r : Reload) (ids : List Bytes) (doomed : LoadedSink) (target : Nat)
  /-- In `doomed.reset()`, at the `join`. -/
  | joining (r : Reload) (ids : List Bytes) (doomed : LoadedSink)
  | addingSinks (r : Reload) (ids : List Bytes)
  | removingProbes (r : Reload) (ids : List Bytes)
  | addingProbes (r : Reload) (ids : List Bytes)

structure Threads where
  daemon : Daemon
  position : Position := .polling
  /-- The queue and worker of every sink instance. -/
  queues : SinkRef → QueueSink Record := fun _ => {}

/-- One step of one of the parties. -/
inductive ThreadStep where
  /-- The daemon thread dispatches a record within a poll. -/
  | emit (out : Emitter) (bootOffsetNs : UInt64) (passwd : PasswdReply) (r : Record)
  /-- The daemon thread ticks the resolver and the pipeline. -/
  | tick (monotonicNs : UInt64) (now : Int64)
  /-- The daemon thread reads a config file for a reload. -/
  | reload (o : Outcomes) (next : Config)
  /-- The daemon thread goes on with the reload. -/
  | proceed
  /-- A sink's worker pops, attempts, finishes or exits. -/
  | worker (sink : LoadedSink) (a : SinkStep Record)

namespace Threads

def setQueue (t : Threads) (ref : SinkRef) (q : QueueSink Record) : Threads :=
  { t with queues := fun other => if other = ref then q else t.queues other }

/-- The shipments a call appended to the trace. -/
def shippedSince (before after : Daemon) : List Shipment :=
  (after.trace.drop before.trace.length).filterMap fun
    | .shipped s => some s
    | _ => none

/-- The `write` of one shipment to one sink. -/
def deliverTo (batch : List Record) (t : Threads) (ref : SinkRef) : Option Threads :=
  match t.daemon.sinks.find? (·.ref = ref) with
  | none => some t
  | some sink => (sink.kind.step (t.queues ref) (.write batch)).map (t.setQueue ref)

/-- The writes of a call's shipments, in order. -/
def deliver (t : Threads) (shipments : List Shipment) : Option Threads :=
  shipments.foldlM (fun t s => s.sinks.foldlM (deliverTo s.batch) t) t

/-- `add_sink` in a reload: a new instance starts with an empty queue. -/
def addSink (t : Threads) (r : Reload) (id : Bytes) : Threads :=
  { t.setQueue t.daemon.loader.nextRef {} with daemon := Daemon.addSinkFrom r.next r.o t.daemon id }

/-- What the daemon thread does next in a reload. `none` where it has to wait. -/
def proceed (t : Threads) : Option Threads :=
  match t.position with
  | .polling => none
  | .removingSinks r [] => some { t with position := .addingSinks r r.diff.addedSinks }
  | .removingSinks r (id :: ids) =>
    match t.daemon.unlinkSink id with
    | none => some { t with position := .removingSinks r ids }
    | some (doomed, daemon) =>
      if doomed.kind = .null then
        some { t with daemon := daemon.discardSink doomed, position := .removingSinks r ids }
      else
        let target := (t.queues doomed.ref).flushTarget
        some { t with daemon, position := .flushing r ids doomed target }
  | .flushing r ids doomed target =>
    if (t.queues doomed.ref).flushPasses target then
      (doomed.kind.step (t.queues doomed.ref) .stop).map fun q =>
        { t.setQueue doomed.ref q with position := .joining r ids doomed }
    else none
  | .joining r ids doomed =>
    match (t.queues doomed.ref).worker with
    | .exited => some { t with daemon := t.daemon.discardSink doomed, position := .removingSinks r ids }
    | _ => none
  | .addingSinks r [] => some { t with position := .removingProbes r r.diff.removedProbes }
  | .addingSinks r (id :: ids) => some { t.addSink r id with position := .addingSinks r ids }
  | .removingProbes r [] => some { t with position := .addingProbes r r.diff.addedProbes }
  | .removingProbes r (id :: ids) =>
    some { t with daemon := t.daemon.removeProbe r.o id, position := .removingProbes r ids }
  | .addingProbes r [] =>
    let config := { t.daemon.config with sinks := r.next.sinks, probes := r.next.probes }
    some { t with daemon := { t.daemon with config }, position := .polling }
  | .addingProbes r (id :: ids) =>
    some { t with daemon := Daemon.addProbeFrom r.next r.o t.daemon id, position := .addingProbes r ids }

/-- The instances whose worker runs: those listed, and the one being removed. -/
def Running (t : Threads) (sink : LoadedSink) : Prop :=
  sink ∈ t.daemon.sinks ∨
    match t.position with
    | .flushing _ _ doomed _ | .joining _ _ doomed => sink = doomed
    | _ => False

instance (t : Threads) (sink : LoadedSink) : Decidable (t.Running sink) := by
  unfold Running
  cases t.position <;> infer_instance

/-- The steps of a sink that its worker takes. -/
def IsWorkers : SinkStep Record → Bool
  | .pop | .attempt _ | .finish | .exit => true
  | .write _ | .stop => false

def step (t : Threads) : ThreadStep → Option Threads
  | .emit out bootOffsetNs passwd r =>
    match t.position with
    | .polling =>
      let daemon := t.daemon.emit out bootOffsetNs passwd r
      deliver { t with daemon } (shippedSince t.daemon daemon)
    | _ => none
  | .tick monotonicNs now =>
    match t.position with
    | .polling =>
      let daemon := t.daemon.tick monotonicNs now
      deliver { t with daemon } (shippedSince t.daemon daemon)
    | _ => none
  | .reload o next =>
    match t.position with
    | .polling =>
      if t.daemon.configPath = [] then none
      else (diffForReload t.daemon.config next).map fun diff =>
        { t with position := .removingSinks ⟨o, next, diff⟩ diff.removedSinks }
    | _ => none
  | .proceed => t.proceed
  | .worker sink a =>
    if IsWorkers a ∧ t.Running sink then (sink.kind.step (t.queues sink.ref) a).map (t.setQueue sink.ref)
    else none

end Threads

end SlurmTracer.Core
