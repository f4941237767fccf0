import Mathlib.Data.List.Forall2
import SlurmTracer.ReportedEvents
import SlurmTracer.RunAccounts

/-!
From samples to shipped records, over whole runs. Between the rings and the
sinks nothing is lost, doubled or put into another order: what was shipped or
is pending is, one for one, what the probes' plugins made of the samples of
their own rings, under their instances' ids (`samples_carried`).
-/
namespace SlurmTracer.SampleTraffic
open SlurmTracer.Core Lib Lib.Transition Core.Daemon DaemonProofs DaemonRuns RunAccounts LoopSignals SampleDispatch
  ReportedEvents

/-- All the samples of probes that a run reads, in order. -/
def heard (plugins : Plugins) : MainLoop → List LoopStep → List (LoadedProbe × Bytes) :=
  gathered (MainLoop.step plugins) fun m a => heardIn m.daemon a

/-- `handed` is `emitted` with nothing changed but what `enrich` fills in. -/
def Enriches (opt : PipelineOptions) (emitted handed : Record) : Prop :=
  ∃ bootOffsetNs user jobId stepId taskId, handed =
    { emitted with
      tsNs := emitted.tsNs + bootOffsetNs, node := opt.node, cluster := opt.cluster, user, jobId, stepId, taskId }

variable {opt : PipelineOptions} {sofar : List Record} {plugins : Plugins} {m m' : MainLoop} {a : LoopStep}

/-! ### What is entered of what is heard -/

theorem enriches_enrich (p : Pipeline) (s : Surroundings) (r : Record) : Enriches p.opt r (p.enrich s r).1 := by
  have named : ∀ r : Record, ∃ user, (p.enrichUser s.passwd r).1 = { r with user } := by
    intro r
    unfold Pipeline.enrichUser
    split
    · exact ⟨_, rfl⟩
    · split <;> exact ⟨_, rfl⟩
  obtain ⟨user, named⟩ := named { r with tsNs := r.tsNs + s.bootOffsetNs, node := p.opt.node, cluster := p.opt.cluster }
  unfold Pipeline.enrich
  simp only
  generalize p.enrichUser s.passwd _ = looked at named ⊢
  obtain ⟨_, after⟩ := looked
  subst named
  split <;> exact ⟨s.bootOffsetNs, _, _, _, _, rfl⟩

theorem enriches_entered {d : Daemon} (keeps : Keeps opt sofar d) (a : LoopStep) :
    List.Forall₂ (Enriches opt) ((heardIn d a).filterMap (made plugins)) (enteredIn plugins d a) := by
  obtain ⟨resolver, resolved⟩ := keeps.resolved
  obtain ⟨p, isPipeline, -, options, -⟩ := keeps.piped
  cases a with
  | sample ring data bootOffsetNs passwd =>
    simp only [enteredIn, isPipeline, resolved, List.forall₂_map_right_iff]
    exact List.forall₂_same.mpr fun r _ => options ▸ enriches_enrich p _ r
  | _ => simp [enteredIn, heardIn]

/-! ### Over a run -/

theorem enriches_run (actions : List LoopStep) (running : Running m.daemon) (keeps : Keeps opt sofar m.daemon)
    (ran : actions.foldlM (MainLoop.step plugins) m = some m') :
    List.Forall₂ (Enriches opt) ((heard plugins m actions).filterMap (made plugins)) (entered plugins m actions) := by
  induction actions generalizing m sofar with
  | nil => exact .nil
  | cons a actions ih =>
    rw [List.foldlM_cons, Option.bind_eq_bind, Option.bind_eq_some_iff] at ran
    obtain ⟨mid, first, rest⟩ := ran
    have later := ih (running_step running first) (keeps_step running keeps first) rest
    simp only [heard, entered, gathered, first, List.filterMap_append] at later ⊢
    exact List.rel_append (enriches_entered keeps a) later

/-- What was shipped or is pending after a run from start-up. -/
theorem carried_run {config : Config} {configPath : Bytes} {env : StartOutcomes}
    (up : (start (.new config configPath) env).1 = true) {flags : Flags} (actions : List LoopStep)
    (ran : actions.foldlM (MainLoop.step plugins) (.run (start (.new config configPath) env).2 flags) = some m) :
    ∃ p, m.daemon.pipeline = some p ∧
      List.Forall₂ (Enriches (pipelineOptions (.new config configPath)))
        ((heard plugins (.run (start (.new config configPath) env).2 flags) actions).filterMap (made plugins))
        (shippedRecords m.daemon.trace ++ p.batch) := by
  have running : Running (MainLoop.run (start (.new config configPath) env).2 flags).daemon := running_start up
  have keeps : Keeps _ [] (MainLoop.run (start (.new config configPath) env).2 flags).daemon := keeps_start up
  obtain ⟨p, isPipeline, -, -, kept⟩ := (keeps_run actions running keeps ran).piped
  rw [List.nil_append] at kept
  exact ⟨p, isPipeline, kept ▸ enriches_run actions running keeps ran⟩

/-- At every moment of every run, with any samples, reloads and failures in
between: the records shipped so far and those pending are those that the probes
made of their samples, one for one and in their order. -/
theorem samples_carried (plugins : Plugins) (config : Config) (configPath : Bytes) (env : StartOutcomes)
    (up : (start (.new config configPath) env).1 = true) (flags : Flags) (actions : List LoopStep) (m : MainLoop)
    (ran : actions.foldlM (MainLoop.step plugins) (.run (start (.new config configPath) env).2 flags) = some m) :
    ∃ p, m.daemon.pipeline = some p ∧
      List.Forall₂ (Enriches (pipelineOptions (.new config configPath)))
        ((heard plugins (.run (start (.new config configPath) env).2 flags) actions).filterMap (made plugins))
        (shippedRecords m.daemon.trace ++ p.batch) :=
  carried_run up actions ran

theorem samples_carried_three_records :
    ∃ p, (afterTasks.get tasks_heard).daemon.pipeline = some p ∧
      List.Forall₂ (Enriches (pipelineOptions (.new inPairs (ascii "slurm-tracer.json"))))
        ((heard (fun _ => ProcLifecycle.onEvent) pairsUp hearTasks).filterMap (made fun _ => ProcLifecycle.onEvent))
        (shippedRecords (afterTasks.get tasks_heard).daemon.trace ++ p.batch) :=
  samples_carried (fun _ => ProcLifecycle.onEvent) inPairs (ascii "slurm-tracer.json") onJobTree (by decide) {}
    hearTasks _ (Option.some_get _).symm

/-! ### From the tracepoints on -/

/-- A record of this process, from an instance of `proc_lifecycle`. -/
def Ships (opt : PipelineOptions) (f : Fired) (handed : Record) : Prop :=
  Enriches opt { report f with probe := handed.probe } handed

/-- Whatever its instance is called, a record is a report of what fired. -/
theorem made_reports {heard : List (LoadedProbe × Bytes)} {filterCgroupId : UInt64} {fired : List Fired}
    (fed : heard.map Prod.snd = fired.filterMap (sample filterCgroupId)) (id : Bytes) :
    (heard.filterMap (made fun _ => ProcLifecycle.onEvent)).map (fun r => { r with probe := id }) =
      (fired.filter (Reportable filterCgroupId ·)).map fun f => { report f with probe := id } := by
  have reported : heard.filterMap (fun x => ProcLifecycle.onEvent x.2) =
      (fired.filter (Reportable filterCgroupId ·)).map report := by
    rw [← reports_of_samples, ← fed, List.filterMap_map]
    rfl
  have named : heard.filterMap (fun x => (made (fun _ => ProcLifecycle.onEvent) x).map fun r => { r with probe := id }) =
      heard.filterMap fun x => (ProcLifecycle.onEvent x.2).map fun r => { r with probe := id } := by
    refine List.filterMap_congr fun x _ => ?_
    rw [made, Option.map_map]
    rfl
  rw [List.map_filterMap, named, ← List.map_filterMap, reported, List.map_map]
  rfl

theorem ships_of_enriches {opt : PipelineOptions} {records handed : List Record} {fired : List Fired}
    (enriches : List.Forall₂ (Enriches opt) records handed)
    (reports : records.map (fun r => { r with probe := [] }) = fired.map fun f => { report f with probe := [] }) :
    List.Forall₂ (Ships opt) fired handed := by
  have renamed : List.Forall₂ (fun r handed => Enriches opt { r with probe := handed.probe } handed)
      (records.map fun r => { r with probe := [] }) handed := by
    rw [List.forall₂_map_left_iff]
    refine enriches.imp fun r handed enriched => ?_
    obtain ⟨bootOffsetNs, user, jobId, stepId, taskId, rfl⟩ := enriched
    exact ⟨bootOffsetNs, user, jobId, stepId, taskId, rfl⟩
  rwa [reports, List.forall₂_map_left_iff] at renamed

/-- On a node whose probes are instances of `proc_lifecycle`: what was shipped
or is pending is a record for each process that fired a tracepoint and could be
reported, and for nothing else, in the order in which they were heard of. -/
theorem tasks_shipped (config : Config) (configPath : Bytes) (env : StartOutcomes)
    (up : (start (.new config configPath) env).1 = true) (flags : Flags) (actions : List LoopStep) (m : MainLoop)
    (ran : actions.foldlM (MainLoop.step fun _ => ProcLifecycle.onEvent)
      (.run (start (.new config configPath) env).2 flags) = some m)
    (filterCgroupId : UInt64) (fired : List Fired)
    (fed : (heard (fun _ => ProcLifecycle.onEvent) (.run (start (.new config configPath) env).2 flags) actions).map Prod.snd =
      fired.filterMap (sample filterCgroupId)) :
    ∃ p, m.daemon.pipeline = some p ∧
      List.Forall₂ (Ships (pipelineOptions (.new config configPath))) (fired.filter (Reportable filterCgroupId ·))
        (shippedRecords m.daemon.trace ++ p.batch) := by
  obtain ⟨p, isPipeline, carried⟩ := carried_run up actions ran
  exact ⟨p, isPipeline, ships_of_enriches carried (made_reports fed [])⟩

theorem tasks_shipped_three_records :
    ∃ p, (afterTasks.get tasks_heard).daemon.pipeline = some p ∧
      List.Forall₂ (Ships (pipelineOptions (.new inPairs (ascii "slurm-tracer.json"))))
        ([bashExec, bashExit, strayExec].filter (Reportable 0 ·))
        (shippedRecords (afterTasks.get tasks_heard).daemon.trace ++ p.batch) :=
  tasks_shipped inPairs (ascii "slurm-tracer.json") onJobTree (by decide) {} hearTasks _
    (Option.some_get _).symm 0 [bashExec, bashExit, strayExec] (by decide +kernel)

end SlurmTracer.SampleTraffic
