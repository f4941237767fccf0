import SlurmTracer.Core.Config
import SlurmTracer.Core.EventLoop
import SlurmTracer.Core.Pipeline

/-! `plugin_loader.cpp`: instances from `dlopen`ed files, and the references
they hold on them. -/
namespace SlurmTracer.Core
open Lib

/-- One reference `dlopen` handed out on a file. -/
structure Handle where
  path : Bytes
  ref : Nat
  deriving DecidableEq

/-- What a daemon does to the world outside it, in order. -/
inductive Event where
  | dlopen (handle : Handle)
  | dlclose (handle : Handle)
  /-- A registry exists that holds a factory of this mapping. -/
  | registryUp (handle : Handle)
  | registryDown (handle : Handle)
  | constructed (handle : Handle)
  | destroyed (handle : Handle)
  | detached (probe : ProbePtr)
  | rearmFailed (probe : ProbePtr)
  | shipped (shipment : Shipment)
  | flushed (sink : SinkRef)
  deriving DecidableEq

/-- How opening one plugin goes, from a missing file to a built component. -/
inductive PluginOutcome (α : Type) where
  | noFile
  | noSymbol
  | registersElse
  | rejected
  | built (component : α)

/-- `plugin_path`. -/
def pluginPath (dir kind name : Bytes) : Bytes :=
  dir ++ ascii "/" ++ kind ++ ascii "s/libst_" ++ kind ++ ascii "_" ++ name ++ ascii ".so"

structure PluginLoader where
  pluginDir : Bytes
  probeHandles : Std.TreeMap Bytes Handle := ∅
  sinkHandles : Std.TreeMap Bytes Handle := ∅
  nextRef : Nat := 0

namespace PluginLoader

/-- `open_plugin`: every failure path closes the handle again, after the
registry is gone. -/
def openPlugin {α : Type} (l : PluginLoader) (path : Bytes) (outcome : PluginOutcome α) :
    Option (α × Handle) × List Event × PluginLoader :=
  let handle : Handle := ⟨path, l.nextRef⟩
  let opened := { l with nextRef := l.nextRef + 1 }
  match outcome with
  | .noFile => (none, [], l)
  | .noSymbol => (none, [.dlopen handle, .dlclose handle], opened)
  | .registersElse | .rejected =>
    (none, [.dlopen handle, .registryUp handle, .registryDown handle, .dlclose handle], opened)
  | .built component =>
    (some (component, handle),
      [.dlopen handle, .registryUp handle, .constructed handle, .registryDown handle], opened)

/-- `load_probe`. -/
def loadProbe {α : Type} (l : PluginLoader) (id plugin : Bytes) (outcome : PluginOutcome α) :
    Option (α × Handle) × List Event × PluginLoader :=
  match l.openPlugin (pluginPath l.pluginDir (ascii "probe") plugin) outcome with
  | (none, events, l) => (none, events, l)
  | (some (probe, handle), events, l) =>
    (some (probe, handle), events, { l with probeHandles := l.probeHandles.insert id handle })

/-- `load_sink`. -/
def loadSink {α : Type} (l : PluginLoader) (id plugin : Bytes) (outcome : PluginOutcome α) :
    Option (α × Handle) × List Event × PluginLoader :=
  match l.openPlugin (pluginPath l.pluginDir (ascii "sink") plugin) outcome with
  | (none, events, l) => (none, events, l)
  | (some (sink, handle), events, l) =>
    (some (sink, handle), events, { l with sinkHandles := l.sinkHandles.insert id handle })

/-- `close_handle`. -/
def closeHandle (handles : Std.TreeMap Bytes Handle) (id : Bytes) :
    List Event × Std.TreeMap Bytes Handle :=
  match handles[id]? with
  | none => ([], handles)
  | some handle => ([.dlclose handle], handles.erase id)

/-- `unload_probe`. -/
def unloadProbe (l : PluginLoader) (id : Bytes) : List Event × PluginLoader :=
  let (events, probeHandles) := closeHandle l.probeHandles id
  (events, { l with probeHandles })

/-- `unload_sink`. -/
def unloadSink (l : PluginLoader) (id : Bytes) : List Event × PluginLoader :=
  let (events, sinkHandles) := closeHandle l.sinkHandles id
  (events, { l with sinkHandles })

end PluginLoader

end SlurmTracer.Core
