import SlurmTracer.Core.Record
import SlurmTracer.Lib.Json

/-! From a batch of records to the text a worker writes out. `dump` is the
JSON library's, with `none` for the exception it throws. -/
namespace SlurmTracer.Core
open Lib Lib.Json

/-- `opt`: absent values are written as null. -/
def opt {α : Type} (json : α → Value) : Option α → Value
  | some value => json value
  | none => .null

namespace Record

/-- The `attrs` loop at the end of `to_json`. -/
def attrsJson (r : Record) : Members := .assign (r.attrs.map fun entry => (entry.1, .string entry.2))

/-- The assignments of `to_json`, in order. -/
def assignments (r : Record) : List (Bytes × Value) :=
  [(ascii "ts_ns", .unsigned r.tsNs.toNat),
    (ascii "node", .string r.node),
    (ascii "cluster", .string r.cluster),
    (ascii "probe", .string r.probe),
    (ascii "cgroup_id", .unsigned r.cgroupId.toNat),
    (ascii "job_id", opt (fun id => .unsigned id.toNat) r.jobId),
    (ascii "step_id", opt .string r.stepId),
    (ascii "task_id", opt (fun id => .unsigned id.toNat) r.taskId),
    (ascii "uid", opt (fun uid => .unsigned uid.toNat) r.uid),
    (ascii "user", opt .string r.user),
    (ascii "account", opt .string r.account),
    (ascii "partition", opt .string r.partition),
    (ascii "event_type", .string r.eventType),
    (ascii "pid", .unsigned r.pid.toNat),
    (ascii "tid", .unsigned r.tid.toNat),
    (ascii "comm", .string r.comm),
    (ascii "metric", .string r.metric),
    (ascii "value", .whole r.value),
    (ascii "unit", .string r.unit),
    (ascii "attrs", .object r.attrsJson)]

/-- The object `to_json` builds. -/
def json (r : Record) : Members := .assign r.assignments

end Record

/-- `to_json`. -/
def toJson (dump : Value → Option Bytes) (r : Record) : Option Bytes := dump (.object r.json)

/-- The loop over the batch in `run`. Nothing catches what `to_json` throws. -/
def jsonLines (dump : Value → Option Bytes) (batch : List Record) : Option Bytes :=
  batch.foldlM (fun out r => (toJson dump r).map fun line => out ++ line ++ [newline]) []

/-- What the worker hands to `fwrite`. -/
def StdoutJsonSink.out (dump : Value → Option Bytes) (batch : List Record) : Option Bytes := jsonLines dump batch

/-- What the worker hands to `post`. -/
def HttpSink.body (dump : Value → Option Bytes) (batch : List Record) : Option Bytes := jsonLines dump batch

end SlurmTracer.Core
