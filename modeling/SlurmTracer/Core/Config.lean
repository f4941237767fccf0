import Std.Data.TreeMap
import SlurmTracer.Lib.Bytes

/-! `config.cpp`: per-component settings, the whole configuration, and what a
reload may change of it. -/
namespace SlurmTracer.Core
open Lib

/-- `parse_duration_ms`: `"10s"`, `"500ms"`, `"2m"`, `"1500"`. The unit is
applied in chrono's signed 64-bit milliseconds. -/
def parseDurationMs (text : Bytes) : Option Int64 :=
  let digits := text.takeWhile isDigit
  let unit := text.dropWhile isDigit
  if digits = [] then none
  else match strtoul digits with
    | none => none
    | some value =>
      let count := Int64.ofNat value
      if unit = [] ∨ unit = ascii "ms" then some count
      else if unit = ascii "s" then some (count * 1000)
      else if unit = ascii "m" then some (count * 60000)
      else if unit = ascii "h" then some (count * 3600000)
      else none

/-- `std::tolower` in the C locale. -/
def toLower (c : UInt8) : UInt8 := if 65 ≤ c ∧ c ≤ 90 then c + 32 else c

/-- Settings of one instance, kept as strings and converted on read. -/
structure ComponentConfig where
  values : Std.TreeMap Bytes Bytes := ∅

namespace ComponentConfig

def set (c : ComponentConfig) (key value : Bytes) : ComponentConfig :=
  { c with values := c.values.insert key value }

def get (c : ComponentConfig) (key fallback : Bytes) : Bytes := (c.values[key]?).getD fallback

def getBool (c : ComponentConfig) (key : Bytes) (fallback : Bool) : Bool :=
  match c.values[key]? with
  | none => fallback
  | some value =>
    let v := value.map toLower
    if v = ascii "true" ∨ v = ascii "yes" ∨ v = ascii "1" ∨ v = ascii "on" then true
    else if v = ascii "false" ∨ v = ascii "no" ∨ v = ascii "0" ∨ v = ascii "off" then false
    else fallback

def getUint (c : ComponentConfig) (key : Bytes) (fallback : UInt64) : UInt64 :=
  match c.values[key]? with
  | none => fallback
  | some value =>
    if value = [] ∨ value.any (fun c => !isDigit c) then fallback
    else match strtoul value with
      | none => fallback
      | some n => UInt64.ofNat n

def getDuration (c : ComponentConfig) (key : Bytes) (fallback : Int64) : Int64 :=
  match c.values[key]? with
  | none => fallback
  | some value => (parseDurationMs value).getD fallback

end ComponentConfig

/-- `std::map` of instances, in id order. -/
abbrev Components := Std.TreeMap Bytes ComponentConfig

structure Config where
  cluster : Bytes := ascii "local"
  node : Bytes := []
  cgroupRoot : Bytes := []
  pluginDir : Bytes := []
  batchSize : UInt64 := 64
  /-- Milliseconds. -/
  flushInterval : Int64 := 1000
  verbose : Bool := false
  probes : Components := ∅
  sinks : Components := ∅

/-- `plugin_of`: an instance that names no plugin is its own. -/
def pluginOf (id : Bytes) (config : ComponentConfig) : Bytes := config.get (ascii "plugin") id

/-- `ConfigDiff`. -/
structure ConfigDiff where
  addedProbes : List Bytes
  removedProbes : List Bytes
  addedSinks : List Bytes
  removedSinks : List Bytes
  deriving DecidableEq

/-- One of the two loops of `diff_components`: the ids of `these` that the
other side lacks or builds from another plugin. -/
def diffLoop (these others : Components) : List Bytes :=
  these.toList.filterMap fun (id, config) =>
    match others[id]? with
    | none => some id
    | some other => if pluginOf id config ≠ pluginOf id other then some id else none

/-- `diff_components`: removed ids, then added ids. -/
def diffComponents (current next : Components) : List Bytes × List Bytes :=
  (diffLoop current next, diffLoop next current)

/-- `diff_for_reload`. -/
def diffForReload (current next : Config) : Option ConfigDiff :=
  if next.cluster ≠ current.cluster ∨ next.node ≠ current.node ∨
      next.cgroupRoot ≠ current.cgroupRoot ∨ next.pluginDir ≠ current.pluginDir ∨
      next.batchSize ≠ current.batchSize ∨ next.flushInterval ≠ current.flushInterval ∨
      next.verbose ≠ current.verbose then none
  else
    let (removedProbes, addedProbes) := diffComponents current.probes next.probes
    let (removedSinks, addedSinks) := diffComponents current.sinks next.sinks
    some { addedProbes, removedProbes, addedSinks, removedSinks }

end SlurmTracer.Core
