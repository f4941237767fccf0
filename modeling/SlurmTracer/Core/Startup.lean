import SlurmTracer.Core.CgroupWatcher
import SlurmTracer.Core.Daemon

/-! `Daemon::start` step by step beside a kernel that goes on creating and
removing cgroups. The walk takes one directory at a time from the tree as it
is at that moment; from the attach on, the tracepoints append to the watcher's
ring, which the first poll after `start` drains. -/
namespace SlurmTracer.Core
open Lib CgroupResolver

/-- How far `start` has come. -/
inductive Stage where
  | called
  /-- In `add_subtree`. -/
  | scanning (w : Walk)
  | loadingSinks
  | buildingPipeline
  | openingWatcher
  | loadingWatcher
  | attachingWatcher
  | armingWatcher
  | startingProbes
  | returned (ok : Bool)

structure Startup where
  daemon : Daemon
  stage : Stage := .called
  tree : CgroupTree
  /-- `CLOCK_MONOTONIC`. -/
  now : UInt64
  /-- Whether the watcher's programs are attached to their tracepoints. -/
  attached : Bool := false
  ring : List StCgroupEvent := []

/-- One step of the kernel (the first three) or of the daemon thread. -/
inductive StartupStep where
  | advance (later : UInt64)
  | mkdir (n : Node) (lost : Bool)
  | rmdir (path : Path) (lost : Bool)
  /-- `start` goes on. -/
  | proceed
  /-- A poll hands the oldest event to the watcher. -/
  | dispatch

namespace Startup

/-- What a tracepoint leaves in the ring, if its program is attached and finds
room. -/
def traced (s : Startup) (type : UInt32) (n : Node) (lost : Bool) : List StCgroupEvent :=
  if s.attached && !lost then [CgroupWatcher.emit type n.ino (some (pathString n.path)) s.now] else []

/-- What `start` does next. `env.tree` is not looked at. -/
def proceed (env : StartOutcomes) (s : Startup) : Option Startup :=
  let d := s.daemon
  match s.stage with
  | .called =>
    if d.config.pluginDir = [] then some { s with stage := .returned false }
    else match env.cgroupRoot with
    | none => some { s with stage := .returned false }
    | some root =>
      if s.tree.isDir root then some { s with stage := .scanning ⟨{ root }, [root]⟩ }
      else some { s with daemon := { d with resolver := some { root } }, stage := .returned false }
  | .scanning w =>
    if w.stack = [] then
      let scanned := { w.resolver with stats.rescans := w.resolver.stats.rescans + 1 }
      some { s with daemon := { d with resolver := some scanned }, stage := .loadingSinks }
    else some { s with stage := .scanning (addSubtreeStep env.bootOffsetNs s.tree w) }
  | .loadingSinks =>
    let d := d.startSinks env.toOutcomes
    some { s with daemon := d, stage := if d.sinks = [] then .returned false else .buildingPipeline }
  | .buildingPipeline =>
    let d := Daemon.wireSinks { d with pipeline := some (.new d.pipelineOptions [] env.now) }
    some { s with daemon := d, stage := .openingWatcher }
  | .openingWatcher => some { s with stage := if env.watcher.opened then .loadingWatcher else .returned false }
  | .loadingWatcher => some { s with stage := if env.watcher.loaded then .attachingWatcher else .returned false }
  | .attachingWatcher =>
    if env.watcher.attached then some { s with attached := true, stage := .armingWatcher }
    else some { s with stage := .returned false }
  | .armingWatcher =>
    match d.loop.add .watcher .pipeline true env.watcher.armed with
    | (false, loop) =>
      let d := { d with loop, trace := d.trace ++ [.detached .watcher] }
      some { s with daemon := d, attached := false, stage := .returned false }
    | (true, loop) => some { s with daemon := { d with loop, cgroupWatcher := true }, stage := .startingProbes }
  | .startingProbes =>
    let d := d.startProbes env.toOutcomes
    some { s with daemon := d, stage := .returned (d.probes ≠ []) }
  | .returned _ => none

def step (env : StartOutcomes) (s : Startup) : StartupStep → Option Startup
  | .advance later => if s.now ≤ later then some { s with now := later } else none
  | .mkdir n lost =>
    (s.tree.mkdir n).map fun tree => { s with tree, ring := s.ring ++ s.traced stCgroupEventCreate n lost }
  | .rmdir path lost =>
    match s.tree.stat path with
    | none => none
    | some n =>
      (s.tree.rmdir path).map fun tree => { s with tree, ring := s.ring ++ s.traced stCgroupEventRemove n lost }
  | .proceed => s.proceed env
  | .dispatch =>
    match s.stage, s.ring, s.daemon.resolver with
    | .returned true, e :: rest, some resolver =>
      let resolver := CgroupWatcher.onEvent resolver e
      some { s with daemon := { s.daemon with resolver := some resolver }, ring := rest }
    | _, _, _ => none

end Startup

end SlurmTracer.Core
