import SlurmTracer.Core.CgroupTree
import SlurmTracer.Core.PluginLoader
import SlurmTracer.Core.Sockets

/-! `daemon.cpp`: assembly at start-up, the turns of the main loop, and the
live reload. What the world answers to each attempt is passed in; what the
daemon does to the world is appended to `trace`. -/
namespace SlurmTracer.Core
open Lib

/-- Which of the shipped sink classes a plugin built, with what its constructor
was given. -/
inductive SinkKind where
  | null
  | stdoutJson (maxQueuedBatches : UInt64)
  | http (opt : SocketOptions)
  deriving DecidableEq

/-- `Daemon::LoadedSink`. Every instance has a mapping of its own, whose
reference also serves as the instance's address. -/
structure LoadedSink where
  id : Bytes
  home : Handle
  kind : SinkKind
  deriving DecidableEq

def LoadedSink.ref (s : LoadedSink) : SinkRef := s.home.ref

/-- `Daemon::LoadedProbe`, and whether its `ring_fd` offers a ring. -/
structure LoadedProbe where
  id : Bytes
  home : Handle
  offersRing : Bool
  deriving DecidableEq

def LoadedProbe.ptr (p : LoadedProbe) : ProbePtr := .probe p.home.ref

/-- What a component's `open`, `load` and `attach`, and the arming of its
ring, return. -/
structure Stages where
  opened : Bool
  loaded : Bool
  attached : Bool
  armed : Bool

/-- What the world answers during one `start` or one reload, in which every id
is added at most once. A built probe says whether it offers a ring. -/
structure Outcomes where
  sink : Bytes → PluginOutcome SinkKind
  probe : Bytes → PluginOutcome Bool
  stages : Bytes → Stages
  /-- libbpf's answer to re-arming a component while another is removed. -/
  rearm : (removed : Bytes) → ProbePtr → Bool

/-- What else `start` meets. -/
structure StartOutcomes extends Outcomes where
  /-- `discover_cgroup_root`'s answer. -/
  cgroupRoot : Option Path
  tree : CgroupTree
  bootOffsetNs : UInt64
  now : Int64
  /-- Whether `vector<Record>::reserve` returns for this many records. It throws
  `length_error` past `max_size()`, and `bad_alloc` where the memory is not
  there. -/
  reserves : UInt64 → Bool
  watcher : Stages

structure Daemon where
  config : Config
  configPath : Bytes
  loader : PluginLoader
  resolver : Option CgroupResolver := none
  /-- Whether `cgroup_watcher_` holds an attached watcher. -/
  cgroupWatcher : Bool := false
  sinks : List LoadedSink := []
  probes : List LoadedProbe := []
  pipeline : Option Pipeline := none
  loop : EventLoop := {}
  trace : List Event := []

/-- `InstanceEmitter::emit` stamps the instance's id; the watcher's emitter is
the pipeline itself. -/
def Emitter.stamp : Emitter → Record → Record
  | .pipeline, r => r
  | .instance id, r => { r with probe := id }

namespace Daemon

/-- The constructor. -/
def new (config : Config) (configPath : Bytes) : Daemon :=
  { config, configPath, loader := { pluginDir := config.pluginDir } }

/-- `wire_sinks`. -/
def wireSinks (d : Daemon) : Daemon :=
  match d.pipeline with
  | none => d
  | some pipeline => { d with pipeline := some (pipeline.setSinks (d.sinks.map LoadedSink.ref)) }

/-- `add_sink`. -/
def addSink (d : Daemon) (o : Outcomes) (id : Bytes) (config : ComponentConfig) : Daemon :=
  match d.loader.loadSink id (pluginOf id config) (o.sink id) with
  | (none, events, loader) => { d with loader, trace := d.trace ++ events }
  | (some (kind, home), events, loader) =>
    wireSinks { d with loader, sinks := d.sinks ++ [⟨id, home, kind⟩], trace := d.trace ++ events }

/-- `remove_sink` up to the flush. -/
def unlinkSink (d : Daemon) (id : Bytes) : Option (LoadedSink × Daemon) :=
  match d.sinks.find? (·.id = id) with
  | none => none
  | some doomed => some (doomed, wireSinks { d with sinks := d.sinks.erase doomed })

/-- `remove_sink` after the flush: the sink is destroyed before its plugin is
unmapped. -/
def discardSink (d : Daemon) (doomed : LoadedSink) : Daemon :=
  let (events, loader) := d.loader.unloadSink doomed.id
  { d with loader, trace := d.trace ++ .flushed doomed.ref :: .destroyed doomed.home :: events }

/-- `remove_sink`. -/
def removeSink (d : Daemon) (id : Bytes) : Daemon :=
  match d.unlinkSink id with
  | none => d
  | some (doomed, d) => d.discardSink doomed

/-- Destroys a probe the daemon does not list and unmaps its plugin. -/
def discardProbe (d : Daemon) (probe : LoadedProbe) : Daemon :=
  let (events, loader) := d.loader.unloadProbe probe.id
  { d with loader, trace := d.trace ++ .destroyed probe.home :: events }

/-- `add_probe`. -/
def addProbe (d : Daemon) (o : Outcomes) (id : Bytes) (config : ComponentConfig) : Daemon :=
  match d.loader.loadProbe id (pluginOf id config) (o.probe id) with
  | (none, events, loader) => { d with loader, trace := d.trace ++ events }
  | (some (offersRing, home), events, loader) =>
    let d := { d with loader, trace := d.trace ++ events }
    let probe : LoadedProbe := ⟨id, home, offersRing⟩
    let stages := o.stages id
    if !(stages.opened && stages.loaded && stages.attached) then d.discardProbe probe
    else match d.loop.add probe.ptr (.instance id) offersRing stages.armed with
      | (false, loop) => discardProbe { d with loop, trace := d.trace ++ [.detached probe.ptr] } probe
      | (true, loop) => { d with loop, probes := d.probes ++ [probe] }

/-- The detach-and-forget treatment in `remove_probe`. -/
def forgetProbe (d : Daemon) (probe : LoadedProbe) : Daemon :=
  discardProbe
    { d with probes := d.probes.erase probe, trace := d.trace ++ [.detached probe.ptr] } probe

/-- One turn of the loop over `also_dropped`: a pointer that is none of
`probes_` is passed over. -/
def forgetDropped (d : Daemon) (dead : ProbePtr) : Daemon :=
  match d.probes.find? (·.ptr = dead) with
  | none => d
  | some probe => d.forgetProbe probe

/-- `remove_probe`. -/
def removeProbe (d : Daemon) (o : Outcomes) (id : Bytes) : Daemon :=
  match d.probes.find? (·.id = id) with
  | none => d
  | some probe =>
    let (alsoDropped, loop) := d.loop.remove probe.ptr (o.rearm id)
    let d := forgetProbe { d with loop, trace := d.trace ++ alsoDropped.map .rearmFailed } probe
    alsoDropped.foldl forgetDropped d

/-- `start_cgroup_watcher`. A watcher that fails a stage is reset. -/
def startCgroupWatcher (d : Daemon) (stages : Stages) : Bool × Daemon :=
  if !(stages.opened && stages.loaded && stages.attached) then (false, d)
  else match d.loop.add .watcher .pipeline true stages.armed with
    | (false, loop) => (false, { d with loop, trace := d.trace ++ [.detached .watcher] })
    | (true, loop) => (true, { d with loop, cgroupWatcher := true })

def pipelineOptions (d : Daemon) : PipelineOptions :=
  { node := d.config.node, cluster := d.config.cluster, batchSize := d.config.batchSize
    flushInterval := d.config.flushInterval }

/-- The sink loop of `start`. -/
def startSinks (d : Daemon) (o : Outcomes) : Daemon :=
  d.config.sinks.toList.foldl (fun d entry => d.addSink o entry.1 entry.2) d

/-- The probe loop of `start`. -/
def startProbes (d : Daemon) (o : Outcomes) : Daemon :=
  d.config.probes.toList.foldl (fun d entry => d.addProbe o entry.1 entry.2) d

/-- `start` up to the sinks, and whether it goes on from there. -/
def startToPipeline (d : Daemon) (env : StartOutcomes) : Bool × Daemon :=
  if d.config.pluginDir = [] then (false, d)
  else match env.cgroupRoot with
  | none => (false, d)
  | some root =>
    match CgroupResolver.start env.bootOffsetNs env.tree { root } with
    | (false, resolver) => (false, { d with resolver := some resolver })
    | (true, resolver) =>
      let d := startSinks { d with resolver := some resolver } env.toOutcomes
      (d.sinks ≠ [], d)

/-- `start` from the pipeline on. -/
def startFromPipeline (d : Daemon) (env : StartOutcomes) : Bool × Daemon :=
  let d := wireSinks { d with pipeline := some (.new d.pipelineOptions [] env.now) }
  match d.startCgroupWatcher env.watcher with
  | (false, d) => (false, d)
  | (true, d) =>
    let d := d.startProbes env.toOutcomes
    (d.probes ≠ [], d)

/-- `start`, where the pipeline's constructor returns. -/
def start (d : Daemon) (env : StartOutcomes) : Bool × Daemon :=
  match d.startToPipeline env with
  | (false, d) => (false, d)
  | (true, d) => d.startFromPipeline env

/-- `start`; `none` where `batch_.reserve(opt_.batch_size)` in the pipeline's
constructor throws, which nothing catches. -/
def startOrThrow (d : Daemon) (env : StartOutcomes) : Option (Bool × Daemon) :=
  match d.startToPipeline env with
  | (false, d) => some (false, d)
  | (true, d) => if env.reserves d.config.batchSize then some (d.startFromPipeline env) else none

/-- A call of `add_sink` in a reload; `at` would throw for an id the file
lacks. -/
def addSinkFrom (next : Config) (o : Outcomes) (d : Daemon) (id : Bytes) : Daemon :=
  match next.sinks[id]? with
  | none => d
  | some config => d.addSink o id config

/-- A call of `add_probe` in a reload. -/
def addProbeFrom (next : Config) (o : Outcomes) (d : Daemon) (id : Bytes) : Daemon :=
  match next.probes[id]? with
  | none => d
  | some config => d.addProbe o id config

/-- The four loops of `reload_config`, and the commit of the new file. -/
def applyReload (d : Daemon) (o : Outcomes) (next : Config) (diff : ConfigDiff) : Daemon :=
  let d := diff.removedSinks.foldl removeSink d
  let d := diff.addedSinks.foldl (addSinkFrom next o) d
  let d := diff.removedProbes.foldl (fun d id => d.removeProbe o id) d
  let d := diff.addedProbes.foldl (addProbeFrom next o) d
  { d with config := { d.config with sinks := next.sinks, probes := next.probes } }

/-- `reload_config`, where `loaded` is what `load_config_file` returned. -/
def reloadConfig (d : Daemon) (o : Outcomes) (loaded : Option Config) : Daemon :=
  if d.configPath = [] then d
  else match loaded with
  | none => d
  | some next =>
    match diffForReload d.config next with
    | none => d
    | some diff => d.applyReload o next diff

/-- A record on its way from a component to the pipeline, within a poll. -/
def emit (d : Daemon) (out : Emitter) (bootOffsetNs : UInt64) (passwd : PasswdReply) (r : Record) :
    Daemon :=
  match d.pipeline, d.resolver with
  | some pipeline, some resolver =>
    let emitted := pipeline.emit ⟨resolver, bootOffsetNs, passwd⟩ (out.stamp r)
    { d with pipeline := some emitted.1, resolver := some emitted.2.2
             trace := d.trace ++ emitted.2.1.map .shipped }
  | _, _ => d

/-- The two ticks of one turn of `run`. -/
def tick (d : Daemon) (monotonicNs : UInt64) (now : Int64) : Daemon :=
  match d.pipeline, d.resolver with
  | some pipeline, some resolver =>
    let ticked := pipeline.tick now
    { d with pipeline := some ticked.1, resolver := some (resolver.tick monotonicNs)
             trace := d.trace ++ ticked.2.map .shipped }
  | _, _ => d

/-- The end of `run` and the destructors: what is pending is shipped and every
sink flushed, the probes are detached, and the members go in the reverse of
their order, the probes before the sinks. -/
def shutdown (d : Daemon) (now : Int64) : Daemon :=
  match d.pipeline with
  | none => d
  | some pipeline =>
    let (_, shipments, flushed) := pipeline.flush now
    { d with
        pipeline := none, probes := [], sinks := [], cgroupWatcher := false
        trace := d.trace ++ (shipments.map .shipped ++ flushed.map .flushed ++
          (if d.cgroupWatcher then [.detached .watcher] else []) ++ d.probes.map (.detached ·.ptr) ++
          d.probes.map (.destroyed ·.home) ++ d.sinks.map (.destroyed ·.home)) }

end Daemon

end SlurmTracer.Core
