import Mathlib.Data.List.AList
import SlurmTracer.Lib.Bytes

/-! `attribution.cpp`: cgroup paths to Slurm attributions, and the resolver's
map from cgroup ids to them. Cgroup ids and stamps are the source's own
64-bit words; the two clocks are read by the caller and passed in. -/
namespace SlurmTracer.Core
open Lib

/-- `struct Attribution`. -/
structure Attribution where
  jobId : UInt32 := 0
  /-- `"0"`, `"batch"`, `"extern"`, `"interactive"`; empty when unset. -/
  stepId : Bytes := []
  taskId : Option UInt32 := none
  deriving DecidableEq

/-- `'/'`. -/
def slash : UInt8 := 47

/-- `split_path`, from `start` on. `part` holds the bytes between `start` and
the byte `find` is looking at. -/
def splitPathFrom (part : Bytes) : Bytes → List Bytes
  | [] => if part = [] then [] else [part]
  | c :: rest =>
    if c = slash then
      if part = [] then splitPathFrom [] rest else part :: splitPathFrom [] rest
    else splitPathFrom (part ++ [c]) rest

def splitPath (path : Bytes) : List Bytes := splitPathFrom [] path

/-- `parse_numeric_suffix`: rejects trailing junk, and values over
`UINT32_MAX` as well as `strtoul`'s `ERANGE`. -/
def parseNumericSuffix (seg pfx : Bytes) : Option UInt32 :=
  if seg.length ≤ pfx.length ∨ seg.take pfx.length ≠ pfx then none
  else
    let digits := seg.drop pfx.length
    if digits = [] then none
    else if digits.any (fun c => !isDigit c) then none
    else match strtoul digits with
      | none => none
      | some value => if value > 4294967295 then none else some (UInt32.ofNat value)

/-- The locals of `parse_cgroup_path`. -/
structure PathParse where
  attr : Attribution := {}
  sawJob : Bool := false

/-- One turn of the loop over the segments. -/
def parseSegment (s : PathParse) (seg : Bytes) : PathParse :=
  match parseNumericSuffix seg (ascii "job_") with
  | some job =>
    -- A nested job_ segment resets the finer-grained fields.
    { attr := { s.attr with jobId := job, stepId := [], taskId := none }, sawJob := true }
  | none =>
    if (ascii "step_").isPrefixOf seg ∧ seg.length > 5 then
      { s with attr := { s.attr with stepId := seg.drop 5, taskId := none } }
    else match parseNumericSuffix seg (ascii "task_") with
      | some task => { s with attr := { s.attr with taskId := some task } }
      | none => s

def parseCgroupPath (relativePath : Bytes) : Option Attribution :=
  let s := (splitPath relativePath).foldl parseSegment {}
  if !s.sawJob then none else some s.attr

/-- `CgroupResolver::Entry`. -/
structure Entry where
  attr : Attribution
  createdNs : UInt64 := 0
  /-- 0 while live, else the start of the grace period. -/
  removedNs : UInt64 := 0
  deriving DecidableEq

/-- `CgroupResolver::Stats`. -/
structure ResolverStats where
  hits : Nat := 0
  misses : Nat := 0
  rescans : Nat := 0
  stale : Nat := 0
  deriving DecidableEq

/-- `entries_`, an `unordered_map` from cgroup ids. -/
abbrev EntryMap := AList fun _ : UInt64 => Entry

/-- An absolute path, name by name. -/
abbrev Path := List Bytes

/-- The string the source holds for a path. -/
def pathString (path : Path) : Bytes := path.flatMap (slash :: ·)

structure CgroupResolver where
  root : Path := []
  graceNs : UInt64 := 30 * 1000000000
  entries : EntryMap := ∅
  stats : ResolverStats := {}

namespace CgroupResolver

/-- `on_created`: a path that is not job work returns before the map is
touched. -/
def onCreated (r : CgroupResolver) (cgroupId : UInt64) (path : Bytes) (createdNs : UInt64) :
    CgroupResolver :=
  match parseCgroupPath path with
  | none => r
  | some attr => { r with entries := r.entries.insert cgroupId { attr, createdNs } }

/-- `on_removed`: only starts the grace period. -/
def onRemoved (r : CgroupResolver) (cgroupId removedNs : UInt64) : CgroupResolver :=
  match r.entries.lookup cgroupId with
  | none => r
  | some e =>
    if e.removedNs = 0 then
      { r with entries := r.entries.insert cgroupId { e with removedNs } }
    else r

/-- The test in `expire`, in the source's wrapping 64-bit subtraction. -/
def expired (graceNs now : UInt64) (e : Entry) : Bool :=
  e.removedNs != 0 && now - e.removedNs > graceNs

/-- `expire`: the erase-while-iterating loop over the map. -/
def expire (r : CgroupResolver) (now : UInt64) : CgroupResolver :=
  let keep := fun (kept : EntryMap) (entry : Sigma fun _ : UInt64 => Entry) =>
    if expired r.graceNs now entry.2 then kept.erase entry.1 else kept
  { r with entries := r.entries.entries.foldl keep r.entries }

/-- `tick`, with the monotonic clock read inside `expire` passed in. -/
def tick (r : CgroupResolver) (now : UInt64) : CgroupResolver := r.expire now

/-- `resolve`: a plain lookup behind the inode-reuse guard. -/
def resolve (r : CgroupResolver) (cgroupId eventTsNs : UInt64) : Option Attribution × CgroupResolver :=
  match r.entries.lookup cgroupId with
  | none => (none, { r with stats.misses := r.stats.misses + 1 })
  | some e =>
    if eventTsNs ≠ 0 ∧ eventTsNs < e.createdNs then
      (none, { r with stats.stale := r.stats.stale + 1 })
    else (some e.attr, { r with stats.hits := r.stats.hits + 1 })

end CgroupResolver

end SlurmTracer.Core
