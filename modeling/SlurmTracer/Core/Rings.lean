import SlurmTracer.Core.CgroupWatcher
import SlurmTracer.Core.Daemon

/-! The kernel and the poll loop as two parties. The kernel creates and removes
cgroups and appends to one ring for the watcher and one for every probe; a poll
drains the rings it was woken for, one after the other, while the kernel goes
on. What a sample is about is kept beside it and read by nothing in the daemon. -/
namespace SlurmTracer.Core
open Lib

/-- One cgroup, from its mkdir to its rmdir. Ids come back, serials do not. -/
structure Cgroup where
  serial : Nat
  id : UInt64
  path : Bytes
  createdNs : UInt64
  /-- Created with the watcher attached, and its CREATE found room in the ring. -/
  announced : Bool
  deriving DecidableEq

/-- A sample in the watcher's ring, by what it tells. -/
inductive Note where
  | created (x : Cgroup)
  | removed (x : Cgroup) (removedNs : UInt64)
  deriving DecidableEq

namespace Note

/-- The bytes of the sample. -/
def event : Note → StCgroupEvent
  | .created x => CgroupWatcher.emit stCgroupEventCreate x.id (some x.path) x.createdNs
  | .removed x removedNs => CgroupWatcher.emit stCgroupEventRemove x.id (some x.path) removedNs

def about : Note → Cgroup
  | .created x | .removed x _ => x

end Note

/-- The event of one of the two probes. -/
inductive ProbeEvent where
  | procLifecycle (e : ProcLifecycle.StProcEvent)
  | oom (e : Oom.StOomEvent)

namespace ProbeEvent

def hdr : ProbeEvent → StEventHdr
  | .procLifecycle e => e.hdr
  | .oom e => e.hdr

def translate : ProbeEvent → Option Record
  | .procLifecycle e => ProcLifecycle.translate e
  | .oom e => Oom.translate e

end ProbeEvent

/-- A sample in a probe's ring, with the cgroup that was live under its id. -/
structure ProbeSample where
  event : ProbeEvent
  owner : Option Cgroup

/-- One call of `resolve`, for which sample, and whether it counted a miss. -/
structure Resolution where
  sample : ProbeSample
  answer : Option Attribution
  missed : Bool

structure Rings where
  /-- `CLOCK_MONOTONIC`. -/
  now : UInt64
  nextSerial : Nat := 0
  live : List Cgroup := []
  watcherRing : List Note := []
  probeRings : Nat → List ProbeSample := fun _ => []
  /-- The rings a poll was woken for and has not left; empty between polls. -/
  ready : List ProbePtr := []
  resolver : CgroupResolver
  pipeline : Pipeline
  resolutions : List Resolution := []

/-- One step of the kernel (the first four) or of the daemon thread. -/
inductive RingStep where
  | advance (later : UInt64)
  | mkdir (id : UInt64) (path : Bytes) (lost : Bool)
  | rmdir (id : UInt64) (lost : Bool)
  /-- A probe's program submits an event. -/
  | submit (ref : Nat) (event : ProbeEvent)
  /-- A poll finds these rings ready. -/
  | wake (ready : List ProbePtr)
  /-- The next sample of the ring being drained goes through `on_event`. -/
  | dispatch (out : Emitter) (bootOffsetNs : UInt64) (passwd : PasswdReply)
  /-- The ring being drained has run empty. -/
  | leave
  /-- Between two polls. -/
  | tick (steadyNow : Int64)

namespace Rings

def isEmpty (w : Rings) : ProbePtr → Bool
  | .watcher => w.watcherRing.isEmpty
  | .probe ref => (w.probeRings ref).isEmpty

def setProbeRing (w : Rings) (ref : Nat) (ring : List ProbeSample) : Rings :=
  { w with probeRings := fun other => if other = ref then ring else w.probeRings other }

/-- The live cgroup an id names. -/
def owner (w : Rings) (id : UInt64) : Option Cgroup := w.live.find? fun x => x.id = id

/-- `on_event` of a probe: a record goes through `emit`, which resolves it. -/
def onProbeEvent (w : Rings) (out : Emitter) (bootOffsetNs : UInt64) (passwd : PasswdReply)
    (sample : ProbeSample) : Rings :=
  match sample.event.translate with
  | none => w
  | some r =>
    let (pipeline, _, resolver) := w.pipeline.emit ⟨w.resolver, bootOffsetNs, passwd⟩ (out.stamp r)
    let resolved : Resolution :=
      { sample
        answer := (w.resolver.resolve (out.stamp r).cgroupId (out.stamp r).tsNs).1
        missed := resolver.stats.misses != w.resolver.stats.misses }
    { w with pipeline, resolver, resolutions := w.resolutions ++ [resolved] }

def step (w : Rings) : RingStep → Option Rings
  | .advance later => if w.now ≤ later then some { w with now := later } else none
  | .mkdir id path lost =>
    if (w.owner id).isSome then none
    else
      let x : Cgroup := { serial := w.nextSerial, id, path, createdNs := w.now, announced := !lost }
      some { w with nextSerial := w.nextSerial + 1, live := w.live ++ [x],
                    watcherRing := if lost then w.watcherRing else w.watcherRing ++ [.created x] }
  | .rmdir id lost =>
    match w.owner id with
    | none => none
    | some x =>
      some { w with live := w.live.filter (·.id ≠ id),
                    watcherRing := if lost then w.watcherRing else w.watcherRing ++ [.removed x w.now] }
  | .submit ref event =>
    if event.hdr.tsNs = w.now then
      some (w.setProbeRing ref (w.probeRings ref ++ [⟨event, w.owner event.hdr.cgroupId⟩]))
    else none
  | .wake ready =>
    if w.ready = [] ∧ ready.Nodup ∧ ready.all (fun ring => !w.isEmpty ring) then some { w with ready }
    else none
  | .dispatch out bootOffsetNs passwd =>
    match w.ready with
    | [] => none
    | .watcher :: _ =>
      match w.watcherRing with
      | [] => none
      | note :: rest =>
        some { w with watcherRing := rest, resolver := CgroupWatcher.onEvent w.resolver note.event }
    | .probe ref :: _ =>
      match w.probeRings ref with
      | [] => none
      | sample :: rest => some ((w.setProbeRing ref rest).onProbeEvent out bootOffsetNs passwd sample)
  | .leave =>
    match w.ready with
    | [] => none
    | ring :: others => if w.isEmpty ring then some { w with ready := others } else none
  | .tick steadyNow =>
    if w.ready = [] then
      some { w with resolver := w.resolver.tick w.now, pipeline := (w.pipeline.tick steadyNow).1 }
    else none

end Rings

end SlurmTracer.Core
