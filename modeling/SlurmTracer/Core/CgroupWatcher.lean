import Mathlib.Data.List.TakeWhile
import SlurmTracer.Core.Attribution
import SlurmTracer.Core.Record

/-! The cgroup watcher, from its two tracepoints (`cgroup_watcher.bpf.c`)
through the wire format to the resolver it feeds. -/
namespace SlurmTracer.Core
open Lib

/-- `ST_CGROUP_PATH_LEN`. -/
def stCgroupPathLen : Nat := 256

/-- `enum st_cgroup_event_type`, as it travels in the header. -/
def stCgroupEventCreate : UInt32 := 1
def stCgroupEventRemove : UInt32 := 2

/-- `struct st_cgroup_event`. Of the path buffer, the bytes that were written. -/
structure StCgroupEvent where
  hdr : StEventHdr
  path : Bytes
  deriving DecidableEq

/-- `bpf_probe_read_kernel_str`: copies up to the NUL, cuts what does not fit
and always terminates. -/
def probeReadKernelStr (size : Nat) (src : Bytes) : Bytes :=
  (src.takeWhile (· ≠ 0)).take (size - 1) ++ [0]

/-- `CgroupLifecycleUpdate`. -/
structure CgroupLifecycleUpdate where
  /-- False means removed. -/
  created : Bool := false
  cgroupId : UInt64 := 0
  tsNs : UInt64 := 0
  path : Bytes := []

namespace CgroupWatcher

/-- What `emit` submits once the ring has had room for it. -/
def emit (type : UInt32) (kernfsId : UInt64) (path : Option Bytes) (ktimeNs : UInt64) : StCgroupEvent where
  hdr := { tsNs := ktimeNs, cgroupId := kernfsId, type, pid := 0, tid := 0, uid := 0 }
  path := match path with
    | some path => probeReadKernelStr stCgroupPathLen path
    | none => [0]

/-- `translate`. -/
def translate (e : StCgroupEvent) : Option CgroupLifecycleUpdate :=
  let update (created : Bool) : CgroupLifecycleUpdate :=
    { created, cgroupId := e.hdr.cgroupId, tsNs := e.hdr.tsNs, path := untilNul stCgroupPathLen e.path }
  if e.hdr.type = stCgroupEventCreate then some (update true)
  else if e.hdr.type = stCgroupEventRemove then some (update false)
  else none

/-- `on_event`, for an event of full size. -/
def onEvent (r : CgroupResolver) (e : StCgroupEvent) : CgroupResolver :=
  match translate e with
  | none => r
  | some update =>
    if update.created then r.onCreated update.cgroupId update.path update.tsNs
    else r.onRemoved update.cgroupId update.tsNs

/-- The path that reaches `on_created` for a cgroup the kernel calls `path`. -/
def delivered (path : Bytes) : Bytes := untilNul stCgroupPathLen (probeReadKernelStr stCgroupPathLen path)

/-- The path arrives up to its first NUL or its 255th byte. -/
theorem delivered_eq (path : Bytes) : delivered path = (path.takeWhile (· ≠ 0)).take 255 := by
  have plain : ∀ c ∈ (path.takeWhile (· ≠ 0)).take 255, decide (c ≠ 0) = true := by
    intro c member
    exact @List.mem_takeWhile_imp _ (· ≠ 0) path c (List.mem_of_mem_take member)
  have fits : ((path.takeWhile (· ≠ 0)).take 255 ++ [0]).length ≤ 256 := by
    rw [List.length_append, List.length_take, List.length_singleton]
    omega
  simp only [delivered, untilNul, probeReadKernelStr, stCgroupPathLen, Nat.reduceSub]
  rw [List.take_of_length_le fits, List.takeWhile_append_of_pos plain]
  simp

@[simp] theorem on_event_created (r : CgroupResolver) (id : UInt64) (path : Bytes) (ns : UInt64) :
    onEvent r (emit stCgroupEventCreate id (some path) ns) = r.onCreated id (delivered path) ns := rfl

@[simp] theorem on_event_removed (r : CgroupResolver) (id : UInt64) (path : Bytes) (ns : UInt64) :
    onEvent r (emit stCgroupEventRemove id (some path) ns) = r.onRemoved id ns := rfl

end CgroupWatcher

end SlurmTracer.Core
