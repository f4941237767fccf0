import SlurmTracer.Core.CgroupWatcher
import SlurmTracer.Lib.Memory

/-! The events as they lie in a ring buffer. A BPF program fills the memory it
reserved, whose bytes are whatever the ring held there before, and `on_event`
casts the sample back. The layouts are those of a 64-bit little-endian node. -/
namespace SlurmTracer.Core
open Lib Lib.Memory

/-- What `bpf_ringbuf_reserve` hands out. -/
abbrev Reserved (size : Nat) := { block : Bytes // block.length = size }

/-! ### The layouts -/

/-- With the padding at its end. -/
def sizeofStProcEvent : Nat := 56

def sizeofStOomEvent : Nat := 48

def sizeofStCgroupEvent : Nat := 288

/-- The header's fields, in the order the programs assign them. -/
def StEventHdr.store (h : StEventHdr) (e : Bytes) : Bytes :=
  e |> storeWord 16 4 h.type.toNat |> storeWord 0 8 h.tsNs.toNat |> storeWord 8 8 h.cgroupId.toNat
    |> storeWord 20 4 h.pid.toNat |> storeWord 24 4 h.tid.toNat |> storeWord 28 4 h.uid.toNat

def StEventHdr.load (data : Bytes) : StEventHdr where
  tsNs := .ofNat (loadWord 0 8 data)
  cgroupId := .ofNat (loadWord 8 8 data)
  type := .ofNat (loadWord 16 4 data)
  pid := .ofNat (loadWord 20 4 data)
  tid := .ofNat (loadWord 24 4 data)
  uid := .ofNat (loadWord 28 4 data)

def ProcLifecycle.StProcEvent.load (data : Bytes) : ProcLifecycle.StProcEvent where
  hdr := .load data
  exitCode := .ofNat (loadWord 32 4 data)
  comm := Memory.load 36 stCommLen data

def Oom.StOomEvent.load (data : Bytes) : Oom.StOomEvent where
  hdr := .load data
  comm := Memory.load 32 stCommLen data

def StCgroupEvent.load (data : Bytes) : StCgroupEvent where
  hdr := .load data
  path := Memory.load 32 stCgroupPathLen data

/-! ### `on_event` -/

/-- `on_event` of the proc_lifecycle probe: what it emits for a sample. -/
def ProcLifecycle.onEvent (data : Bytes) : Option Record :=
  if data.length < sizeofStProcEvent then none else translate (.load data)

/-- `on_event` of the oom probe. -/
def Oom.onEvent (data : Bytes) : Option Record :=
  if data.length < sizeofStOomEvent then none else translate (.load data)

/-- `on_event` of the watcher, for a sample of any size. -/
def CgroupWatcher.onSample (r : CgroupResolver) (data : Bytes) : CgroupResolver :=
  if data.length < sizeofStCgroupEvent then r else onEvent r (.load data)

/-! ### The tasks the programs see -/

/-- A `task_struct`'s `comm`: at most 15 bytes and their NUL. -/
structure TaskComm where
  bytes : Bytes
  plain : 0 ∉ bytes
  short : bytes.length < stCommLen

/-- What of a `task_struct` the programs read. -/
structure TaskStruct where
  pid : UInt32
  tgid : UInt32
  exitCode : UInt32
  /-- `cgroups->dfl_cgrp->kn->id`. -/
  cgroupId : UInt64
  uid : UInt32
  gid : UInt32
  comm : TaskComm

/-- `bpf_get_current_pid_tgid`. -/
def TaskStruct.pidTgid (t : TaskStruct) : UInt64 := t.tgid.toUInt64 <<< 32 ||| t.pid.toUInt64

/-- `bpf_get_current_uid_gid`. -/
def TaskStruct.uidGid (t : TaskStruct) : UInt64 := t.gid.toUInt64 <<< 32 ||| t.uid.toUInt64

/-- `bpf_get_current_comm`: the rest of the buffer is zeroed. -/
def TaskComm.current (comm : TaskComm) : Bytes := comm.bytes ++ List.replicate (stCommLen - comm.bytes.length) 0

namespace ProcLifecycle

/-- `emit`, on behalf of the running task. -/
def emit (filterCgroupId : UInt64) (current : TaskStruct) (ktimeNs : UInt64) (type exitCode : UInt32)
    (reserved : Option (Reserved sizeofStProcEvent)) : Option Bytes :=
  if filterCgroupId ≠ 0 ∧ current.cgroupId ≠ filterCgroupId then none
  else reserved.map fun e =>
    let hdr : StEventHdr :=
      { type, tsNs := ktimeNs, cgroupId := current.cgroupId, pid := (current.pidTgid >>> 32).toUInt32
        tid := current.pidTgid.toUInt32, uid := current.uidGid.toUInt32 }
    e.val |> hdr.store |> storeWord 32 4 exitCode.toNat |> store 36 current.comm.current

/-- `on_exec`. -/
def onExec (filterCgroupId : UInt64) (current : TaskStruct) (ktimeNs : UInt64)
    (reserved : Option (Reserved sizeofStProcEvent)) : Option Bytes :=
  emit filterCgroupId current ktimeNs 1 0 reserved

/-- `on_exit`: the running task is the one that exits. -/
def onExit (filterCgroupId : UInt64) (p : TaskStruct) (ktimeNs : UInt64)
    (reserved : Option (Reserved sizeofStProcEvent)) : Option Bytes :=
  if p.pid ≠ p.tgid then none else emit filterCgroupId p ktimeNs 2 p.exitCode reserved

end ProcLifecycle

/-- `on_mark_victim`: everything is the victim's, nothing the running task's. -/
def Oom.onMarkVictim (victim : TaskStruct) (uid : UInt32) (ktimeNs : UInt64)
    (reserved : Option (Reserved sizeofStOomEvent)) : Option Bytes :=
  reserved.map fun e =>
    let hdr : StEventHdr :=
      { type := 1, tsNs := ktimeNs, cgroupId := victim.cgroupId, pid := victim.tgid, tid := victim.pid, uid }
    e.val |> hdr.store |> store 32 (probeReadKernelStr stCommLen victim.comm.bytes)

/-- `emit` of the watcher, into memory. -/
def CgroupWatcher.emitInto (type : UInt32) (kernfsId : UInt64) (path : Option Bytes) (ktimeNs : UInt64)
    (reserved : Option (Reserved sizeofStCgroupEvent)) : Option Bytes :=
  reserved.map fun e =>
    let filled := emit type kernfsId path ktimeNs
    e.val |> filled.hdr.store |> store 32 filled.path

end SlurmTracer.Core
