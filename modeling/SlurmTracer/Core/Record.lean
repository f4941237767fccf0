import SlurmTracer.Lib.Bytes

/-! The wide record, and the two probes' translations of their kernel events
into it. -/
namespace SlurmTracer.Core
open Lib

/-- `struct Record`. `value` is a double in the source; every probe sets it
to a whole number below 256, which is what is kept here. -/
structure Record where
  tsNs : UInt64 := 0
  node : Bytes := []
  cluster : Bytes := []
  probe : Bytes := []
  cgroupId : UInt64 := 0
  jobId : Option UInt32 := none
  stepId : Option Bytes := none
  taskId : Option UInt32 := none
  uid : Option UInt32 := none
  user : Option Bytes := none
  account : Option Bytes := none
  partition : Option Bytes := none
  eventType : Bytes := []
  pid : UInt32 := 0
  tid : UInt32 := 0
  comm : Bytes := []
  metric : Bytes := []
  value : Nat := 0
  unit : Bytes := []
  attrs : List (Bytes × Bytes) := []
  deriving DecidableEq

/-- `struct st_event_hdr`. -/
structure StEventHdr where
  tsNs : UInt64
  cgroupId : UInt64
  type : UInt32
  pid : UInt32
  tid : UInt32
  uid : UInt32
  deriving DecidableEq

/-- `assign(p, strnlen(p, size))`: the bytes of a buffer up to its first NUL. -/
def untilNul (size : Nat) (buffer : Bytes) : Bytes := (buffer.take size).takeWhile (· ≠ 0)

def stCommLen : Nat := 16

namespace ProcLifecycle

/-- `struct st_proc_event`, with the exit code's bits. -/
structure StProcEvent where
  hdr : StEventHdr
  exitCode : UInt32
  comm : Bytes

/-- `translate` of the proc_lifecycle probe. -/
def translate (e : StProcEvent) : Option Record :=
  let shared (r : Record) : Record :=
    { r with probe := ascii "proc_lifecycle", tsNs := e.hdr.tsNs, cgroupId := e.hdr.cgroupId,
             uid := some e.hdr.uid, pid := e.hdr.pid, tid := e.hdr.tid, comm := untilNul stCommLen e.comm }
  if e.hdr.type = 1 then
    some (shared { eventType := ascii "exec", metric := ascii "proc.exec", value := 1, unit := ascii "count" })
  else if e.hdr.type = 2 then
    let sig := e.exitCode &&& 0x7f
    some (shared
      { eventType := ascii "exit", metric := ascii "proc.exit", value := ((e.exitCode >>> 8) &&& 0xff).toNat
        unit := ascii "exit_status"
        attrs := if sig ≠ 0 then [(ascii "signal", toDecimal sig.toNat)] else [] })
  else none

end ProcLifecycle

namespace Oom

/-- `struct st_oom_event`. -/
structure StOomEvent where
  hdr : StEventHdr
  comm : Bytes

/-- `translate` of the oom probe. -/
def translate (e : StOomEvent) : Option Record :=
  if e.hdr.type = 1 then
    some { eventType := ascii "oom_kill", metric := ascii "oom.kill", value := 1, unit := ascii "count"
           probe := ascii "oom", tsNs := e.hdr.tsNs, cgroupId := e.hdr.cgroupId, uid := some e.hdr.uid
           pid := e.hdr.pid, tid := e.hdr.tid, comm := untilNul stCommLen e.comm }
  else none

end Oom

end SlurmTracer.Core
