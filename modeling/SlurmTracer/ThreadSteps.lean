import SlurmTracer.Core.Shutdown
import SlurmTracer.Lib.Transition

/-! What one step of the daemon thread or of a worker can do, up to the end of
`run`, said once for everything that is kept along the way. -/
namespace SlurmTracer.ThreadSteps
open SlurmTracer.Core Lib Core.Threads

variable {t t' : Threads}

/-- What the daemon thread can do next in a reload. -/
inductive Proceeds (t : Threads) : Threads → Prop where
  | sinksRemoved {r : Reload} (place : t.position = .removingSinks r []) :
      Proceeds t { t with position := .addingSinks r r.diff.addedSinks }
  | notListed {r : Reload} {id : Bytes} {ids : List Bytes} (place : t.position = .removingSinks r (id :: ids))
      (absent : t.daemon.unlinkSink id = none) : Proceeds t { t with position := .removingSinks r ids }
  | discarded {r : Reload} {id : Bytes} {ids : List Bytes} {doomed : LoadedSink} {daemon : Daemon}
      (place : t.position = .removingSinks r (id :: ids)) (unlinked : t.daemon.unlinkSink id = some (doomed, daemon))
      (null : doomed.kind = .null) :
      Proceeds t { t with daemon := daemon.discardSink doomed, position := .removingSinks r ids }
  | unlinked {r : Reload} {id : Bytes} {ids : List Bytes} {doomed : LoadedSink} {daemon : Daemon}
      (place : t.position = .removingSinks r (id :: ids)) (unlinked : t.daemon.unlinkSink id = some (doomed, daemon))
      (backed : doomed.kind ≠ .null) :
      Proceeds t { t with daemon, position := .flushing r ids doomed (t.queues doomed.ref).flushTarget }
  | flushed {r : Reload} {ids : List Bytes} {doomed : LoadedSink} {target : Nat} {q : QueueSink Record}
      (place : t.position = .flushing r ids doomed target)
      (passes : (t.queues doomed.ref).flushPasses target = true)
      (stopped : doomed.kind.step (t.queues doomed.ref) .stop = some q) :
      Proceeds t { t.setQueue doomed.ref q with position := .joining r ids doomed }
  | joined {r : Reload} {ids : List Bytes} {doomed : LoadedSink} (place : t.position = .joining r ids doomed)
      (exited : (t.queues doomed.ref).worker = .exited) :
      Proceeds t { t with daemon := t.daemon.discardSink doomed, position := .removingSinks r ids }
  | sinksAdded {r : Reload} (place : t.position = .addingSinks r []) :
      Proceeds t { t with position := .removingProbes r r.diff.removedProbes }
  | addSink {r : Reload} {id : Bytes} {ids : List Bytes} (place : t.position = .addingSinks r (id :: ids)) :
      Proceeds t { t.addSink r id with position := .addingSinks r ids }
  | probesRemoved {r : Reload} (place : t.position = .removingProbes r []) :
      Proceeds t { t with position := .addingProbes r r.diff.addedProbes }
  | removeProbe {r : Reload} {id : Bytes} {ids : List Bytes} (place : t.position = .removingProbes r (id :: ids)) :
      Proceeds t { t with daemon := t.daemon.removeProbe r.o id, position := .removingProbes r ids }
  | committed {r : Reload} {config : Config} (place : t.position = .addingProbes r [])
      (commit : config = { t.daemon.config with sinks := r.next.sinks, probes := r.next.probes }) :
      Proceeds t { t with daemon := { t.daemon with config }, position := .polling }
  | addProbe {r : Reload} {id : Bytes} {ids : List Bytes} (place : t.position = .addingProbes r (id :: ids)) :
      Proceeds t { t with daemon := Daemon.addProbeFrom r.next r.o t.daemon id, position := .addingProbes r ids }

/-- What a step can do. -/
inductive Stepped (t : Threads) : ThreadStep → Threads → Prop where
  | emit {out : Emitter} {bootOffsetNs : UInt64} {passwd : PasswdReply} {r : Record} {daemon : Daemon} {t' : Threads}
      (polling : t.position = .polling) (emitted : daemon = t.daemon.emit out bootOffsetNs passwd r)
      (delivered : deliver { t with daemon } (shippedSince t.daemon daemon) = some t') :
      Stepped t (.emit out bootOffsetNs passwd r) t'
  | tick {monotonicNs : UInt64} {now : Int64} {daemon : Daemon} {t' : Threads} (polling : t.position = .polling)
      (ticked : daemon = t.daemon.tick monotonicNs now)
      (delivered : deliver { t with daemon } (shippedSince t.daemon daemon) = some t') :
      Stepped t (.tick monotonicNs now) t'
  | reload {o : Outcomes} {next : Config} {diff : ConfigDiff} (polling : t.position = .polling)
      (hasPath : t.daemon.configPath ≠ []) (accepted : diffForReload t.daemon.config next = some diff) :
      Stepped t (.reload o next) { t with position := .removingSinks ⟨o, next, diff⟩ diff.removedSinks }
  | proceed {t' : Threads} (proceeds : Proceeds t t') : Stepped t .proceed t'
  | worker {sink : LoadedSink} {a : SinkStep Record} {q : QueueSink Record} (workers : IsWorkers a = true)
      (running : t.Running sink) (stepped : sink.kind.step (t.queues sink.ref) a = some q) :
      Stepped t (.worker sink a) (t.setQueue sink.ref q)

/-- What a step of a run can do. -/
inductive Progress (run : Run) : RunStep → Run → Prop where
  | thread {a : ThreadStep} {threads : Threads} (may : Run.mayStep run.stage a = true)
      (stepped : Stepped run.threads a threads) : Progress run (.thread a) { run with threads }
  | leave {now : Int64} {threads : Threads} {sinks : List SinkRef} (looping : run.stage = .looping)
      (left : Run.leave run.threads now = some (threads, sinks)) :
      Progress run (.leave now) { threads, stage := .flushing sinks }
  | flush {sink : SinkRef} {sinks : List SinkRef} (stage : run.stage = .flushing (sink :: sinks)) :
      Progress run .flush { run with stage := .waiting sink (run.threads.queues sink).flushTarget sinks }
  | pass {sink : SinkRef} {target : Nat} {sinks : List SinkRef} {daemon : Daemon}
      (stage : run.stage = .waiting sink target sinks)
      (passes : (run.threads.queues sink).flushPasses target = true)
      (flushed : daemon = { run.threads.daemon with trace := run.threads.daemon.trace ++ [.flushed sink] }) :
      Progress run .pass { threads := { run.threads with daemon }, stage := .flushing sinks }
  | report {pipeline : Pipeline} (stage : run.stage = .flushing [])
      (piped : run.threads.daemon.pipeline = some pipeline) :
      Progress run .report { run with stage := .reported (Run.reportShutdown run.threads pipeline) }

theorem proceeds_of_proceed (ran : t.proceed = some t') : Proceeds t t' := by
  unfold Threads.proceed at ran
  split at ran <;> rename_i place
  · cases ran
  · cases ran
    exact .sinksRemoved place
  · split at ran
    · cases ran
      exact .notListed place ‹_›
    · split at ran
      · cases ran
        exact .discarded place ‹_› ‹_›
      · cases ran
        exact .unlinked place ‹_› ‹_›
  · split at ran
    · rename_i passes
      obtain ⟨q, stopped, rfl⟩ := Option.map_eq_some_iff.mp ran
      exact .flushed place passes stopped
    · cases ran
  · split at ran
    · cases ran
      exact .joined place ‹_›
    · cases ran
  · cases ran
    exact .sinksAdded place
  · cases ran
    exact .addSink place
  · cases ran
    exact .probesRemoved place
  · cases ran
    exact .removeProbe place
  · cases ran
    exact .committed place rfl
  · cases ran
    exact .addProbe place

theorem stepped_of_step {a : ThreadStep} (ran : t.step a = some t') : Stepped t a t' := by
  cases a with
  | emit out bootOffsetNs passwd r =>
    simp only [Threads.step] at ran
    split at ran
    · exact .emit ‹_› rfl ran
    · cases ran
  | tick monotonicNs now =>
    simp only [Threads.step] at ran
    split at ran
    · exact .tick ‹_› rfl ran
    · cases ran
  | reload o next =>
    simp only [Threads.step] at ran
    split at ran
    · split at ran
      · cases ran
      · rename_i polling hasPath
        obtain ⟨diff, accepted, rfl⟩ := Option.map_eq_some_iff.mp ran
        exact .reload polling hasPath accepted
    · cases ran
  | proceed => exact .proceed (proceeds_of_proceed ran)
  | worker sink a =>
    simp only [Threads.step] at ran
    split at ran
    · rename_i enabled
      obtain ⟨q, stepped, rfl⟩ := Option.map_eq_some_iff.mp ran
      exact .worker enabled.1 enabled.2 stepped
    · cases ran

theorem progress_of_step {run run' : Run} {a : RunStep} (ran : run.step a = some run') : Progress run a run' := by
  cases a with
  | thread a =>
    simp only [Run.step] at ran
    split at ran
    · rename_i may
      obtain ⟨threads, stepped, rfl⟩ := Option.map_eq_some_iff.mp ran
      exact .thread may (stepped_of_step stepped)
    · cases ran
  | leave now =>
    simp only [Run.step] at ran
    split at ran
    · rename_i looping
      obtain ⟨⟨threads, sinks⟩, left, rfl⟩ := Option.map_eq_some_iff.mp ran
      exact .leave looping left
    · cases ran
  | flush =>
    simp only [Run.step] at ran
    split at ran
    · cases ran
      exact .flush ‹_›
    · cases ran
  | pass =>
    simp only [Run.step] at ran
    split at ran
    · split at ran
      · cases ran
        exact .pass ‹_› ‹_› rfl
      · cases ran
    · cases ran
  | report =>
    simp only [Run.step] at ran
    split at ran
    · cases ran
      exact .report ‹_› ‹_›
    · cases ran

/-- What each `write` of a call's shipments relates, all of them relate. -/
theorem deliver_related {R : Threads → Threads → Prop} (refl : ∀ t, R t t)
    (trans : ∀ {a b c}, R a b → R b c → R a c)
    (each : ∀ {batch t ref t'}, deliverTo batch t ref = some t' → R t t') (shipments : List Shipment)
    (ran : deliver t shipments = some t') : R t t' :=
  Transition.steps_related refl trans shipments
    (fun s _ _ _ ran => Transition.steps_related refl trans s.sinks (fun _ _ _ _ written => each written) ran) ran

end SlurmTracer.ThreadSteps
