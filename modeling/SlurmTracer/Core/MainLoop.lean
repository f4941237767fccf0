import SlurmTracer.Core.Daemon
import SlurmTracer.Core.Http
import SlurmTracer.Core.Wire

/-! `Daemon::run` and the signals around it. A signal can arrive between any two
accesses to the flags, so the loop is known by the access it makes next; what a
plugin's `on_event` makes of a sample is a parameter. -/
namespace SlurmTracer.Core
open Lib

/-- `g_stop` and `g_reload`. -/
structure Flags where
  stop : Bool := false
  reload : Bool := false
  deriving DecidableEq

/-- `on_stop_signal` and `on_reload_signal`, as `main` installs them. -/
def Flags.raise (f : Flags) : Signal → Flags
  | .sigint | .sigterm => { f with stop := true }
  | .sighup => { f with reload := true }
  | .sigpipe => f

/-- `EventLoop::poll`, where `err` is what `ring_buffer__poll` returned:
`-EINTR` is no failure. -/
def EventLoop.poll (l : EventLoop) (err : Int) : Bool :=
  match l.rb with
  | none => true
  | some _ => ¬ (err < 0 ∧ err ≠ -4)

/-- `on_event` of a plugin: the record it emits for a sample, should it emit one. -/
abbrev Plugins := Handle → Bytes → Option Record

/-- The callback libbpf calls for a sample, with the context it was handed.
`none` where the context is no binding's any more, or the component is gone. -/
def Daemon.onSample (plugins : Plugins) (d : Daemon) (ctx : Nat) (data : Bytes) (bootOffsetNs : UInt64)
    (passwd : PasswdReply) : Option Daemon :=
  match d.loop.bindings.find? (·.addr = ctx) with
  | none => none
  | some b =>
    match b.probe with
    | .watcher =>
      if d.cgroupWatcher then some { d with resolver := d.resolver.map (CgroupWatcher.onSample · data) } else none
    | .probe ref =>
      match d.probes.find? (·.ptr = .probe ref) with
      | none => none
      | some probe =>
        match plugins probe.home data with
        | none => some d
        | some r => some (d.emit b.out bootOffsetNs passwd r)

inductive LoopStage where
  /-- At the loop's condition. -/
  | condition
  | polling
  | ticking
  /-- At `if (reload != 0)`. -/
  | checking
  /-- At `reload = 0`. -/
  | clearing
  /-- `reload_config` is called next. -/
  | reloading
  /-- Out of the loop, with `rc`. -/
  | left (rc : Nat)
  deriving DecidableEq

structure MainLoop where
  daemon : Daemon
  flags : Flags
  stage : LoopStage

/-- One step of the loop, or a signal. -/
inductive LoopStep where
  | signal (s : Signal)
  /-- The condition is evaluated. -/
  | enter
  /-- `ring_buffer__poll` calls back for a sample of one of its rings. -/
  | sample (ring : ArmedRing) (data : Bytes) (bootOffsetNs : UInt64) (passwd : PasswdReply)
  /-- `ring_buffer__poll` returns. -/
  | polled (err : Int)
  | tick (monotonicNs : UInt64) (now : Int64)
  /-- The reload flag is read. -/
  | check
  /-- It is cleared, whatever it is by now. -/
  | clear
  | reload (o : Outcomes) (loaded : Option Config)

namespace MainLoop

/-- `run` is called, by which time signals may have come in. -/
def run (daemon : Daemon) (flags : Flags) : MainLoop := { daemon, flags, stage := .condition }

def step (plugins : Plugins) (m : MainLoop) : LoopStep → Option MainLoop
  | .signal s => if handled s then some { m with flags := m.flags.raise s } else none
  | .enter =>
    match m.stage with
    | .condition => some { m with stage := if m.flags.stop then .left 0 else .polling }
    | _ => none
  | .sample ring data bootOffsetNs passwd =>
    match m.stage with
    | .polling =>
      if ring ∈ m.daemon.loop.rb.getD [] then
        (m.daemon.onSample plugins ring.ctx data bootOffsetNs passwd).map fun daemon => { m with daemon }
      else none
    | _ => none
  | .polled err =>
    match m.stage with
    | .polling => some { m with stage := if m.daemon.loop.poll err then .ticking else .left 1 }
    | _ => none
  | .tick monotonicNs now =>
    match m.stage with
    | .ticking => some { m with daemon := m.daemon.tick monotonicNs now, stage := .checking }
    | _ => none
  | .check =>
    match m.stage with
    | .checking => some { m with stage := if m.flags.reload then .clearing else .condition }
    | _ => none
  | .clear =>
    match m.stage with
    | .clearing => some { m with flags.reload := false, stage := .reloading }
    | _ => none
  | .reload o loaded =>
    match m.stage with
    | .reloading => some { m with daemon := m.daemon.reloadConfig o loaded, stage := .condition }
    | _ => none

end MainLoop

end SlurmTracer.Core
