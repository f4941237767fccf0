import Std.Data.TreeMap
import SlurmTracer.Core.Attribution
import SlurmTracer.Core.Record

/-! `pipeline.cpp`: enrichment, batching and the fan-out to the sinks. A sink
is named by its address. What a call ships is a value, so that the batches
each sink was handed can be read off a run. -/
namespace SlurmTracer.Core
open Lib

/-- The address of a sink instance. -/
abbrev SinkRef := Nat

/-- One pass of the loop in `ship`: a copy of the batch was written to each
of these sinks, in this order. -/
structure Shipment where
  batch : List Record
  sinks : List SinkRef
  deriving DecidableEq

/-- What one `getpwuid_r` call comes back with. -/
inductive PasswdReply where
  /-- A non-zero return. -/
  | failed
  /-- Success without an entry. -/
  | notFound
  | found (name : Bytes)
  deriving DecidableEq

/-- `Pipeline::Options`. -/
structure PipelineOptions where
  node : Bytes := []
  cluster : Bytes := []
  batchSize : UInt64 := 64
  /-- Milliseconds. -/
  flushInterval : Int64 := 1000

/-- `Pipeline::Stats`. -/
structure PipelineStats where
  records : Nat := 0
  unattributed : Nat := 0

structure Pipeline where
  opt : PipelineOptions
  sinks : List SinkRef
  batch : List Record := []
  /-- `steady_clock` nanoseconds. -/
  lastFlush : Int64
  userCache : Std.TreeMap UInt32 Bytes := ∅
  stats : PipelineStats := {}

/-- What `emit` finds around the pipeline: the resolver it shares with the
cgroup watcher, the sampled clock offset, and the passwd database's answer,
should it be asked. -/
structure Surroundings where
  resolver : CgroupResolver
  bootOffsetNs : UInt64
  passwd : PasswdReply

namespace Pipeline

/-- The constructor, with the clock it reads, where `batch_.reserve` returns:
`Daemon.startOrThrow` has it throw. -/
def new (opt : PipelineOptions) (sinks : List SinkRef) (now : Int64) : Pipeline :=
  { opt, sinks, lastFlush := now }

/-- `lookup_user`. Negative results are cached too, as an empty name. -/
def lookupUser (p : Pipeline) (uid : UInt32) (passwd : PasswdReply) : Option Bytes × Pipeline :=
  match p.userCache[uid]? with
  | some name => (if name = [] then none else some name, p)
  | none =>
    let name := match passwd with
      | .found name => name
      | .notFound | .failed => []
    (if name = [] then none else some name, { p with userCache := p.userCache.insert uid name })

/-- The user half of `enrich`. -/
def enrichUser (p : Pipeline) (passwd : PasswdReply) (r : Record) : Record × Pipeline :=
  match r.uid with
  | none => (r, p)
  | some uid =>
    match p.lookupUser uid passwd with
    | (some user, p) => ({ r with user := some user }, p)
    | (none, p) => (r, p)

/-- `enrich`. The kernel's stamp is kept for the resolver before it becomes
wall clock. -/
def enrich (p : Pipeline) (s : Surroundings) (r : Record) : Record × Pipeline × CgroupResolver :=
  let eventMonotonicNs := r.tsNs
  let r := { r with tsNs := eventMonotonicNs + s.bootOffsetNs, node := p.opt.node, cluster := p.opt.cluster }
  let (r, p) := p.enrichUser s.passwd r
  match s.resolver.resolve r.cgroupId eventMonotonicNs with
  | (some attr, resolver) =>
    ({ r with
        jobId := some attr.jobId
        stepId := if attr.stepId = [] then r.stepId else some attr.stepId
        taskId := attr.taskId }, p, resolver)
  | (none, resolver) => (r, { p with stats.unattributed := p.stats.unattributed + 1 }, resolver)

/-- `ship`: swaps the pending batch out and hands it to every wired sink. The
room it reserves anew is as much as the constructor had. -/
def ship (p : Pipeline) : Pipeline × List Shipment :=
  if p.batch = [] then (p, []) else ({ p with batch := [] }, [{ batch := p.batch, sinks := p.sinks }])

/-- `emit`. -/
def emit (p : Pipeline) (s : Surroundings) (r : Record) : Pipeline × List Shipment × CgroupResolver :=
  let (r, p, resolver) := p.enrich s r
  let p := { p with stats.records := p.stats.records + 1, batch := p.batch ++ [r] }
  if p.batch.length ≥ p.opt.batchSize.toNat then
    let (p, shipments) := p.ship
    (p, shipments, resolver)
  else (p, [], resolver)

/-- The interval check of `tick`: chrono compares in signed 64-bit
nanoseconds. -/
def intervalElapsed (p : Pipeline) (now : Int64) : Bool :=
  ¬ (now - p.lastFlush < p.opt.flushInterval * 1000000)

/-- `tick`. -/
def tick (p : Pipeline) (now : Int64) : Pipeline × List Shipment :=
  if p.intervalElapsed now then
    let (p, shipments) := p.ship
    ({ p with lastFlush := now }, shipments)
  else (p, [])

/-- `flush`, with the clock it reads at the end, and the sinks it flushes. -/
def flush (p : Pipeline) (now : Int64) : Pipeline × List Shipment × List SinkRef :=
  let (p, shipments) := p.ship
  ({ p with lastFlush := now }, shipments, p.sinks)

/-- `set_sinks`. -/
def setSinks (p : Pipeline) (sinks : List SinkRef) : Pipeline := { p with sinks }

end Pipeline

end SlurmTracer.Core
