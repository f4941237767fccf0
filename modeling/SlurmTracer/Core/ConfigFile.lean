import SlurmTracer.Core.Daemon

/-! `config_file.cpp`: from the text of the config file to a `Config`, and the
reload that reads it. The JSON library is a parameter; what it throws is a
value, and what nothing catches is an error of the function it leaves. -/
namespace SlurmTracer.Core
open Lib

/-- A value of the JSON library. A double is known by what `std::to_string`
makes of it, an object by its members in the order of its keys. -/
inductive Json where
  | null
  | boolean (value : Bool)
  | integer (value : Int64)
  | unsigned (value : UInt64)
  | float (printed : Bytes)
  | string (value : Bytes)
  | array (elements : List Json)
  | object (members : List (Bytes × Json))

/-- The classes under `Json::exception` that can come up here. -/
inductive JsonError where
  | parseError
  /-- A number that is no finite double (406). -/
  | outOfRange
  | typeError
  deriving DecidableEq

structure JsonException where
  error : JsonError
  what : Bytes

/-- What `parse` throws. -/
inductive ParseFailure where
  | syntaxError (what : Bytes)
  | numberOverflow (what : Bytes)

def ParseFailure.exception : ParseFailure → JsonException
  | .syntaxError what => ⟨.parseError, what⟩
  | .numberOverflow what => ⟨.outOfRange, what⟩

/-- The parts of the JSON library the loader calls. -/
structure JsonLibrary where
  parse : Bytes → Except ParseFailure Json
  dump : Json → Except JsonException Bytes
  /-- The text of the `type_error` for a value that is no string. -/
  notString : Json → Bytes

namespace ConfigFile

/-- `std::to_string(int64_t)`. -/
def toStringInt (value : Int64) : Bytes :=
  if value < 0 then 45 :: toDecimal value.toInt.natAbs else toDecimal value.toInt.natAbs

/-- `get<std::string>`. -/
def getString (lib : JsonLibrary) : Json → Except JsonException Bytes
  | .string value => .ok value
  | v => .error ⟨.typeError, lib.notString v⟩

/-- `one_shot`. -/
def oneShot (value : Bytes) : ComponentConfig := ({} : ComponentConfig).set (ascii "v") value

/-- `stringify`. An unsigned number is read as an `int64_t`. -/
def stringify (lib : JsonLibrary) : Json → Except JsonException Bytes
  | .string value => .ok value
  | .boolean value => .ok (if value then ascii "true" else ascii "false")
  | .integer value => .ok (toStringInt value)
  | .unsigned value => .ok (toStringInt value.toInt64)
  | .float printed => .ok printed
  | v => lib.dump v

/-- `drop_disabled`. -/
def dropDisabled (components : Components) : Components :=
  components.filter fun _ config => config.getBool (ascii "enabled") true

def quoted (text : Bytes) : Bytes := ascii "\"" ++ text ++ ascii "\""

/-- The settings loop of `load_components`. -/
def loadSettings (lib : JsonLibrary) (c : ComponentConfig) (settings : List (Bytes × Json)) :
    Except JsonException ComponentConfig :=
  settings.foldlM (fun c entry => (stringify lib entry.2).map fun value => c.set entry.1 value) c

/-- `load_components`. The inner error is the text written to `error`. -/
def loadComponents (lib : JsonLibrary) (sectionName : Bytes) :
    List (Bytes × Json) → Components → Except JsonException (Except Bytes Components)
  | [], components => .ok (.ok components)
  | (name, .object settings) :: members, components =>
    match loadSettings lib ((components[name]?).getD {}) settings with
    | .error e => .error e
    | .ok c => loadComponents lib sectionName members (components.insert name c)
  | (name, _) :: _, _ => .ok (.error (quoted (sectionName ++ ascii "." ++ name) ++ ascii " must be an object"))

/-- The loop of `load_object`. A handler returns `none` for a key it does not
know. -/
def loadMembers (sectionName : Bytes) (handler : Config → Bytes → Json → Except JsonException (Option Config)) :
    List (Bytes × Json) → Config → Except JsonException (Except Bytes Config)
  | [], config => .ok (.ok config)
  | (key, v) :: members, config =>
    match handler config key v with
    | .error e => .error e
    | .ok none => .ok (.error (ascii "unknown key " ++ quoted key ++ ascii " in " ++ quoted sectionName))
    | .ok (some config) => loadMembers sectionName handler members config

/-- `load_object`. -/
def loadObject (sectionName : Bytes) (handler : Config → Bytes → Json → Except JsonException (Option Config))
    (config : Config) : Json → Except JsonException (Except Bytes Config)
  | .object members => loadMembers sectionName handler members config
  | _ => .ok (.error (quoted sectionName ++ ascii " must be an object"))

/-- The keys of `node`. -/
def nodeHandler (lib : JsonLibrary) (config : Config) (key : Bytes) (v : Json) :
    Except JsonException (Option Config) :=
  if key = ascii "cluster" then (getString lib v).map fun cluster => some { config with cluster }
  else if key = ascii "node" then (getString lib v).map fun node => some { config with node }
  else if key = ascii "plugin_dir" then (getString lib v).map fun pluginDir => some { config with pluginDir }
  else if key = ascii "batch_size" then (stringify lib v).map fun value =>
    some { config with batchSize := (oneShot value).getUint (ascii "v") config.batchSize }
  else if key = ascii "flush_interval" then (stringify lib v).map fun value =>
    some { config with flushInterval := (oneShot value).getDuration (ascii "v") config.flushInterval }
  else if key = ascii "verbose" then (stringify lib v).map fun value =>
    some { config with verbose := (oneShot value).getBool (ascii "v") config.verbose }
  else .ok none

/-- The keys of `slurm`. -/
def slurmHandler (lib : JsonLibrary) (config : Config) (key : Bytes) (v : Json) :
    Except JsonException (Option Config) :=
  if key = ascii "cgroup_root" then (getString lib v).map fun cgroupRoot => some { config with cgroupRoot }
  else .ok none

/-- The `probes` and the `sinks` section. -/
def componentsSection (lib : JsonLibrary) (sectionName : Bytes) (components : Components) :
    Json → Except JsonException (Except Bytes Components)
  | .object members => loadComponents lib sectionName members components
  | _ => .ok (.error (quoted sectionName ++ ascii " must be an object"))

/-- One section of the file. -/
def loadSection (lib : JsonLibrary) (config : Config) (name : Bytes) (value : Json) :
    Except JsonException (Except Bytes Config) :=
  if name = ascii "node" then loadObject (ascii "node") (nodeHandler lib) config value
  else if name = ascii "slurm" then loadObject (ascii "slurm") (slurmHandler lib) config value
  else if name = ascii "probes" then
    (componentsSection lib (ascii "probes") config.probes value).map fun loaded =>
      loaded.map fun probes => { config with probes }
  else if name = ascii "sinks" then
    (componentsSection lib (ascii "sinks") config.sinks value).map fun loaded =>
      loaded.map fun sinks => { config with sinks }
  else .ok (.error (ascii "unknown top-level key " ++ quoted name))

/-- The loop over the sections. -/
def loadSections (lib : JsonLibrary) : List (Bytes × Json) → Config → Except JsonException (Except Bytes Config)
  | [], config => .ok (.ok config)
  | (name, value) :: members, config =>
    match loadSection lib config name value with
    | .error e => .error e
    | .ok (.error subError) => .ok (.error subError)
    | .ok (.ok config) => loadSections lib members config

/-- The first `try` of `load_config_file`: only a `parse_error` is caught. -/
def parseRoot (lib : JsonLibrary) (path content : Bytes) : Except JsonException (Except Bytes Json) :=
  match lib.parse content with
  | .ok root => .ok (.ok root)
  | .error failure =>
    if failure.exception.error = .parseError then .ok (.error (path ++ ascii ": " ++ failure.exception.what))
    else .error failure.exception

/-- The second `try` and the end of `load_config_file`: every exception of the
library is caught. -/
def loadRoot (lib : JsonLibrary) (path : Bytes) : Json → Except Bytes Config
  | .object members =>
    match loadSections lib members {} with
    | .error e => .error (path ++ ascii ": " ++ e.what)
    | .ok (.error subError) => .error (path ++ ascii ": " ++ subError)
    | .ok (.ok config) =>
      .ok { config with probes := dropDisabled config.probes, sinks := dropDisabled config.sinks }
  | _ => .error (path ++ ascii ": top level must be an object")

/-- `load_config_file` over what the file holds, if it can be opened. The inner
error is the text written to `error`; the outer one leaves the function. -/
def loadConfigFile (lib : JsonLibrary) (path : Bytes) (file : Option Bytes) :
    Except JsonException (Except Bytes Config) :=
  match file with
  | none => .ok (.error (ascii "cannot open " ++ path))
  | some content =>
    match parseRoot lib path content with
    | .error e => .error e
    | .ok (.error error) => .ok (.error error)
    | .ok (.ok root) => .ok (loadRoot lib path root)

/-- What a path comes to. -/
inductive FileRead where
  /-- It cannot be opened. -/
  | absent
  /-- It can, as a directory can, but a read throws. -/
  | unreadable
  | holds (content : Bytes)

/-- What leaves `load_config_file`: an exception of the JSON library, or the
stream's `std::ios_base::failure`. -/
inductive LoadException where
  | json (e : JsonException)
  | stream

/-- `load_config_file` over what becomes of its path. -/
def loadConfigPath (lib : JsonLibrary) (path : Bytes) : FileRead → Except LoadException (Except Bytes Config)
  | .absent => (loadConfigFile lib path none).mapError .json
  | .unreadable => .error .stream
  | .holds content => (loadConfigFile lib path (some content)).mapError .json

end ConfigFile

/-- `reload_config` with the file it reads. An exception that leaves it leaves
`main` too. -/
def Daemon.reloadFile (lib : JsonLibrary) (file : Option Bytes) (d : Daemon) (o : Outcomes) :
    Except JsonException Daemon :=
  if d.configPath = [] then .ok d
  else (ConfigFile.loadConfigFile lib d.configPath file).map fun loaded => d.reloadConfig o loaded.toOption

end SlurmTracer.Core
