import SlurmTracer.Core.Config
import SlurmTracer.Lib.Strip

/-! `discover_cgroup_root` of `attribution.cpp`: the override, `cgroup.conf`, and
the known layouts below the mountpoint. -/
namespace SlurmTracer.Core
open Lib

/-- `" \t\r\n"`. -/
def isTrimmable (c : UInt8) : Bool := c = 32 ∨ c = 9 ∨ c = 13 ∨ c = 10

/-- `trim`. -/
def trim (s : Bytes) : Bytes := strip isTrimmable s

/-- What `std::getline` reads off a file, line by line. What follows the last
newline is a line only if there is something of it. -/
def getlines (text : Bytes) : List Bytes :=
  let pieces := text.splitOn 10
  if pieces.getLast? = some [] then pieces.dropLast else pieces

/-- The key and the value of a line of `cgroup.conf`, the key in lower case. -/
def confLine (line : Bytes) : Option (Bytes × Bytes) :=
  let t := trim line
  if t = [] ∨ t.head? = some 35 then none
  else match t.dropWhile (· ≠ 61) with
  | [] => none
  | _ :: value => some ((trim (t.takeWhile (· ≠ 61))).map toLower, trim value)

/-- What `discover_cgroup_root` takes from `cgroup.conf`. It has no use for the
second. -/
structure CgroupConf where
  mountpoint : Bytes := ascii "/sys/fs/cgroup"
  ignoreSystemd : Bool := false
  deriving DecidableEq

/-- The body of the loop over the lines. -/
def CgroupConf.read (c : CgroupConf) (line : Bytes) : CgroupConf :=
  match confLine line with
  | none => c
  | some (key, value) =>
    if key = ascii "cgroupmountpoint" ∧ value ≠ [] then { c with mountpoint := value }
    else if key = ascii "ignoresystemd" then
      { c with ignoreSystemd := value = ascii "yes" ∨ value = ascii "Yes" ∨ value = ascii "YES" }
    else c

/-- The loop over the lines, of a file that may not open. -/
def CgroupConf.load : Option Bytes → CgroupConf
  | none => {}
  | some text => (getlines text).foldl read {}

def rootPatterns (mountpoint : Bytes) : List Bytes :=
  [mountpoint ++ ascii "/system.slice/*slurmstepd*.scope", mountpoint ++ ascii "/*.slice/*slurmstepd*.scope",
    mountpoint ++ ascii "/slurm"]

/-- `discover_cgroup_root`. `glob` is the paths `glob(3)` comes back with, none
of them if it fails. -/
def discoverCgroupRoot (isDir : Bytes → Bool) (glob : Bytes → List Bytes) (conf : Option Bytes) (overridePath : Bytes) :
    Option Bytes :=
  if overridePath ≠ [] then if isDir overridePath then some overridePath else none
  else (rootPatterns (CgroupConf.load conf).mountpoint).findSome? fun pattern => (glob pattern).head?

end SlurmTracer.Core
