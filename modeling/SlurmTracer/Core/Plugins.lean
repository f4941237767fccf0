import SlurmTracer.Core.Daemon

/-! `registry.h` and the entry points of the sink plugins: what `open_plugin`
builds from the file it finds and an instance's settings. -/
namespace SlurmTracer.Core
open Lib

/-- `Registry`. -/
structure Registry (α : Type) where
  factories : Std.TreeMap Bytes (ComponentConfig → Option α) := ∅

namespace Registry
variable {α : Type}

/-- `emplace` leaves a name that is taken to the factory it has. -/
def add (r : Registry α) (name : Bytes) (factory : ComponentConfig → Option α) : Registry α :=
  { factories := r.factories.insertIfNew name factory }

def contains (r : Registry α) (name : Bytes) : Bool := r.factories.contains name

def create (r : Registry α) (name : Bytes) (config : ComponentConfig) : Option α :=
  match r.factories[name]? with
  | none => none
  | some factory => factory config

end Registry

/-- A file that `dlopen` takes, and what `dlsym` finds in it. -/
structure PluginFile (α : Type) where
  entry : Option (Registry α → Registry α)

/-- How `open_plugin` goes with what is found under its path. -/
def pluginOutcome {α : Type} (file : Option (PluginFile α)) (plugin : Bytes) (config : ComponentConfig) :
    PluginOutcome α :=
  match file with
  | none => .noFile
  | some file =>
    match file.entry with
    | none => .noSymbol
    | some entry =>
      let registry := entry {}
      if registry.contains plugin then
        match registry.create plugin config with
        | none => .rejected
        | some component => .built component
      else .registersElse

/-! ### The sinks of the tree -/

/-- `st_register_sink` of `sinks/null`. -/
def NullSink.stRegisterSink (r : Registry SinkKind) : Registry SinkKind := r.add (ascii "null") fun _ => some .null

/-- `st_register_sink` of `sinks/stdout_json`. -/
def StdoutJsonSink.stRegisterSink (r : Registry SinkKind) : Registry SinkKind :=
  r.add (ascii "stdout_json") fun config => some (.stdoutJson (config.getUint (ascii "max_queued_batches") 1024))

/-- `st_register_sink` of `sinks/http`. -/
def HttpSink.stRegisterSink (r : Registry SinkKind) : Registry SinkKind :=
  r.add (ascii "http") fun config =>
    match parseHttpEndpoint (config.get (ascii "endpoint") []) with
    | none => none
    | some parsed => some (.http
      { host := parsed.host, port := parsed.port, path := parsed.path
        maxQueuedBatches := config.getUint (ascii "max_queued_batches") 1024
        timeout := config.getDuration (ascii "timeout") 5000 })

/-- The sink plugins under `dir` as the build lays them out. -/
def shippedSinks (dir path : Bytes) : Option (PluginFile SinkKind) :=
  if path = pluginPath dir (ascii "sink") (ascii "null") then some ⟨some NullSink.stRegisterSink⟩
  else if path = pluginPath dir (ascii "sink") (ascii "stdout_json") then some ⟨some StdoutJsonSink.stRegisterSink⟩
  else if path = pluginPath dir (ascii "sink") (ascii "http") then some ⟨some HttpSink.stRegisterSink⟩
  else none

end SlurmTracer.Core
