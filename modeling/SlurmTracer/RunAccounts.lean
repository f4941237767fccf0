import SlurmTracer.PipelineDelivery
import SlurmTracer.ReportedEvents
import SlurmTracer.SampleDispatch
import SlurmTracer.SinkDebts

/-!
The counters `report_shutdown` prints, over whole runs. The resolver and the
pipeline count apart from each other; at every moment they agree with each other
and with the records that were made of the probes' samples, which were shipped
or are pending in the order in which they were made (`accounts_balance`).
-/
namespace SlurmTracer.RunAccounts
open SlurmTracer.Core Lib Core.Daemon DaemonProofs DaemonFrames DaemonRuns Lib.Reconcile PipelineDelivery LoopSignals
  SampleDispatch Lib.Transition ReportedEvents

def shipmentsOf (trace : List Event) : List Shipment := trace.filterMap fun
  | .shipped s => some s
  | _ => none

/-- The records that left in shipments. -/
def shippedRecords (trace : List Event) : List Record := (shipmentsOf trace).flatMap Shipment.batch

/-- The books of the pipeline and of the resolver, against the records there
have been. -/
structure Balanced (counted : PipelineStats) (stats : ResolverStats) (records : List Record) : Prop where
  /-- Every record was looked up once. -/
  resolved : stats.hits + stats.misses + stats.stale = counted.records
  unattributed : counted.unattributed = stats.misses + stats.stale
  total : records.length = counted.records
  attributed : records.countP (·.jobId.isSome) = stats.hits
  scannedOnce : stats.rescans = 1

variable {p : Pipeline} {counted : PipelineStats} {stats : ResolverStats} {records : List Record} {r : Record}

/-! ### One record -/

theorem enrich_user_keeps (p : Pipeline) (passwd : PasswdReply) (r : Record) :
    (p.enrichUser passwd r).1.jobId = r.jobId ∧ (p.enrichUser passwd r).1.cgroupId = r.cgroupId ∧
      (p.enrichUser passwd r).2.stats = p.stats := by
  have looked (uid : UInt32) : (p.lookupUser uid passwd).2.stats = p.stats := by
    unfold Pipeline.lookupUser
    split <;> rfl
  unfold Pipeline.enrichUser
  cases r.uid with
  | none => exact ⟨rfl, rfl, rfl⟩
  | some uid =>
    have same := looked uid
    simp only
    split <;> rename_i came <;> rw [came] at same <;> exact ⟨rfl, rfl, same⟩

/-- A lookup counts in one of three places. -/
theorem resolve_counts (resolver : CgroupResolver) (id eventTsNs : UInt64) :
    (∃ attr, (resolver.resolve id eventTsNs).1 = some attr ∧
      (resolver.resolve id eventTsNs).2.stats = { resolver.stats with hits := resolver.stats.hits + 1 }) ∨
    ((resolver.resolve id eventTsNs).1 = none ∧
      ((resolver.resolve id eventTsNs).2.stats = { resolver.stats with misses := resolver.stats.misses + 1 } ∨
        (resolver.resolve id eventTsNs).2.stats = { resolver.stats with stale := resolver.stats.stale + 1 })) := by
  unfold CgroupResolver.resolve
  split
  · exact .inr ⟨rfl, .inl rfl⟩
  · split
    · exact .inr ⟨rfl, .inr rfl⟩
    · exact .inl ⟨_, rfl, rfl⟩

/-- What one record adds to the books: its lookup, and whether it found a job. -/
inductive Entered (counted : PipelineStats) (stats : ResolverStats) (r : Record) :
    PipelineStats → ResolverStats → Prop where
  | hit (found : r.jobId.isSome = true) : Entered counted stats r counted { stats with hits := stats.hits + 1 }
  | miss (missing : r.jobId.isSome = false) :
      Entered counted stats r { counted with unattributed := counted.unattributed + 1 }
        { stats with misses := stats.misses + 1 }
  | stale (missing : r.jobId.isSome = false) :
      Entered counted stats r { counted with unattributed := counted.unattributed + 1 }
        { stats with stale := stats.stale + 1 }

theorem entered_enrich (p : Pipeline) (s : Surroundings) (blank : r.jobId = none) :
    Entered p.stats s.resolver.stats (p.enrich s r).1 (p.enrich s r).2.1.stats (p.enrich s r).2.2.stats := by
  let stamped : Record :=
    { r with tsNs := r.tsNs + s.bootOffsetNs, node := p.opt.node, cluster := p.opt.cluster }
  obtain ⟨job, -, same⟩ := enrich_user_keeps p s.passwd stamped
  have blankStill : (p.enrichUser s.passwd stamped).1.jobId = none := job.trans blank
  have counts := resolve_counts s.resolver (p.enrichUser s.passwd stamped).1.cgroupId r.tsNs
  unfold Pipeline.enrich
  simp only [stamped] at counts same blankStill ⊢
  revert counts
  generalize s.resolver.resolve _ r.tsNs = answer
  intro counts
  rcases answer with ⟨_ | attr, resolver⟩
  · rcases counts with ⟨_, found, -⟩ | ⟨-, missed | stale⟩
    · cases found
    · simp only at missed ⊢
      rw [missed, same]
      exact .miss (by rw [blankStill]; rfl)
    · simp only at stale ⊢
      rw [stale, same]
      exact .stale (by rw [blankStill]; rfl)
  · rcases counts with ⟨_, -, hit⟩ | ⟨missed, -⟩
    · simp only at hit ⊢
      rw [hit, same]
      exact .hit rfl
    · cases missed

/-- One more record, and the books balance again. -/
theorem balanced_entered {counted' : PipelineStats} {stats' : ResolverStats} (balanced : Balanced counted stats records)
    (entered : Entered counted stats r counted' stats') :
    Balanced { counted' with records := counted'.records + 1 } stats' (records ++ [r]) := by
  obtain ⟨resolved, unattributed, length, attributed, scannedOnce⟩ := balanced
  cases entered with
  | hit found =>
    refine ⟨?_, unattributed, ?_, ?_, scannedOnce⟩
    · simp only
      omega
    · rw [List.length_append, length, List.length_singleton]
    · rw [List.countP_append, attributed, List.countP_singleton, if_pos found]
  | miss missing =>
    refine ⟨?_, ?_, ?_, ?_, scannedOnce⟩
    · simp only
      omega
    · simp only
      omega
    · rw [List.length_append, length, List.length_singleton]
    · rw [List.countP_append, attributed, List.countP_singleton, missing]
      rfl
  | stale missing =>
    refine ⟨?_, ?_, ?_, ?_, scannedOnce⟩
    · simp only
      omega
    · simp only
      omega
    · rw [List.length_append, length, List.length_singleton]
    · rw [List.countP_append, attributed, List.countP_singleton, missing]
      rfl

/-- What `emit` counts, whether or not it ships. -/
theorem emit_counts (p : Pipeline) (s : Surroundings) (r : Record) :
    (p.emit s r).1.stats = { (p.enrich s r).2.1.stats with records := (p.enrich s r).2.1.stats.records + 1 } ∧
      (p.emit s r).2.2 = (p.enrich s r).2.2 := by
  unfold Pipeline.emit
  simp only
  split
  · exact ⟨by rw [ship_fst], rfl⟩
  · exact ⟨rfl, rfl⟩

/-- What `tick` leaves as it is. -/
theorem tick_moves (p : Pipeline) (now : Int64) :
    (p.tick now).1.stats = p.stats ∧ (p.tick now).1.sinks = p.sinks ∧
      (p.tick now).2.flatMap Shipment.batch ++ (p.tick now).1.batch = p.batch := by
  rcases tick_cases p now with still | ships
  · rw [still]
    exact ⟨rfl, rfl, rfl⟩
  · rw [ships, ship_fst, ship_snd]
    refine ⟨rfl, rfl, ?_⟩
    by_cases empty : p.batch = [] <;> simp [empty]

/-! ### The daemon's books -/

/-- The books of a daemon that has both a pipeline, wired to its sinks, and a
resolver. -/
structure Accounts (d : Daemon) : Prop where
  piped : ∃ p, d.pipeline = some p ∧ p.sinks = d.sinks.map LoadedSink.ref
  resolved : ∃ resolver, d.resolver = some resolver
  balanced : ∀ p resolver, d.pipeline = some p → d.resolver = some resolver →
    Balanced p.stats resolver.stats (shippedRecords d.trace ++ p.batch)

@[simp] theorem shipments_of_append (trace events : List Event) :
    shipmentsOf (trace ++ events) = shipmentsOf trace ++ shipmentsOf events := List.filterMap_append

@[simp] theorem shipments_of_shipped (shipments : List Shipment) : shipmentsOf (shipments.map .shipped) = shipments := by
  rw [shipmentsOf, List.filterMap_map]
  exact List.filterMap_some

theorem shipped_records_grown (trace : List Event) (shipments : List Shipment) :
    shippedRecords (trace ++ shipments.map .shipped) = shippedRecords trace ++ shipments.flatMap Shipment.batch := by
  simp [shippedRecords]

variable {d d' : Daemon}

theorem accounts_emit (accounts : Accounts d) (out : Emitter) (bootOffsetNs : UInt64) (passwd : PasswdReply)
    (blank : r.jobId = none) : Accounts (d.emit out bootOffsetNs passwd r) := by
  obtain ⟨⟨p, piped, wired⟩, ⟨resolver, resolved⟩, balanced⟩ := accounts
  have before := balanced p resolver piped resolved
  have stamped : (out.stamp r).jobId = none := by
    cases out <;> exact blank
  let s : Surroundings := ⟨resolver, bootOffsetNs, passwd⟩
  have after := balanced_entered before (entered_enrich p s stamped)
  obtain ⟨counts, same⟩ := emit_counts p s (out.stamp r)
  have moved := (moves_call p (.emit s (out.stamp r))).conserved
  have sinks := @sinks_call p (.emit s (out.stamp r)) nofun
  simp only [call, ← List.flatMap_def] at moved sinks
  simp only [emit, piped, resolved]
  refine ⟨⟨(p.emit s (out.stamp r)).1, rfl, sinks.trans wired⟩, ⟨(p.emit s (out.stamp r)).2.2, rfl⟩, ?_⟩
  rintro _ _ ⟨⟩ ⟨⟩
  rw [shipped_records_grown, List.append_assoc, ← moved, ← List.append_assoc, counts, same]
  exact after

theorem accounts_tick (accounts : Accounts d) (monotonicNs : UInt64) (now : Int64) :
    Accounts (d.tick monotonicNs now) := by
  obtain ⟨⟨p, piped, wired⟩, ⟨resolver, resolved⟩, balanced⟩ := accounts
  have before := balanced p resolver piped resolved
  obtain ⟨counts, sinks, moved⟩ := tick_moves p now
  simp only [tick, piped, resolved]
  generalize p.tick now = ticked at counts sinks moved ⊢
  refine ⟨⟨_, rfl, sinks.trans wired⟩, ⟨_, rfl⟩, ?_⟩
  rintro _ _ ⟨⟩ ⟨⟩
  rw [shipped_records_grown, List.append_assoc, moved, counts]
  exact before

/-! ### What a reload leaves alone -/

/-- The resolver, what was shipped, and the pipeline but for its wiring, which
follows the sinks. -/
structure Undisturbed (d d' : Daemon) : Prop where
  pipeline : ∀ p, d.pipeline = some p → p.sinks = d.sinks.map LoadedSink.ref →
    d'.pipeline = some (p.setSinks (d'.sinks.map LoadedSink.ref))
  resolver : d'.resolver = d.resolver
  shipments : shipmentsOf d'.trace = shipmentsOf d.trace

theorem Undisturbed.refl (d : Daemon) : Undisturbed d d where
  pipeline := by
    intro p piped wired
    rw [piped, ← wired]
    rfl
  resolver := rfl
  shipments := rfl

theorem Undisturbed.trans {a b c : Daemon} (first : Undisturbed a b) (second : Undisturbed b c) : Undisturbed a c where
  pipeline := fun p piped wired =>
    second.pipeline (p.setSinks (b.sinks.map LoadedSink.ref)) (first.pipeline p piped wired) rfl
  resolver := second.resolver.trans first.resolver
  shipments := second.shipments.trans first.shipments

/-- Probes come and go, and what is traced ships nothing. -/
theorem undisturbed_traced (events : List Event) (quiet : shipmentsOf events = [])
    (pipeline : d'.pipeline = d.pipeline) (sinks : d'.sinks = d.sinks) (resolver : d'.resolver = d.resolver)
    (trace : d'.trace = d.trace ++ events) : Undisturbed d d' where
  pipeline := by
    intro p piped wired
    rw [pipeline, piped, sinks, ← wired]
    rfl
  resolver := resolver
  shipments := by rw [trace, shipments_of_append, quiet, List.append_nil]

theorem undisturbed_of_framed {may : Event → Prop} (framed : Framed may d d') (unshipping : ∀ s, ¬ may (.shipped s)) :
    Undisturbed d d' where
  pipeline := framed.pipeline
  resolver := framed.resolver
  shipments := by
    obtain ⟨events, grown, each⟩ := framed.events
    have none : shipmentsOf events = [] := by
      rw [shipmentsOf, List.filterMap_eq_nil_iff]
      intro e member
      cases e with
      | shipped s => exact absurd (each _ member) (unshipping s)
      | _ => rfl
    rw [grown, shipments_of_append, none, List.append_nil]

theorem undisturbed_add_sink (d : Daemon) (o : Outcomes) (id : Bytes) (config : ComponentConfig) :
    Undisturbed d (d.addSink o id config) :=
  undisturbed_of_framed (framed_add_sink d o id config) (by simp [OfLoader])

theorem undisturbed_unlink_sink {id : Bytes} {doomed : LoadedSink} (unlinked : d.unlinkSink id = some (doomed, d')) :
    Undisturbed d d' := by
  have framed : Framed (fun _ => False) d d' := framed_unlink_sink unlinked
  exact undisturbed_of_framed framed fun _ => not_false

theorem undisturbed_discard_sink (d : Daemon) (doomed : LoadedSink) : Undisturbed d (d.discardSink doomed) :=
  undisturbed_of_framed (framed_discard_sink d doomed) (by simp [EndOfSink, OfLoader])

theorem undisturbed_remove_sink (d : Daemon) (id : Bytes) : Undisturbed d (d.removeSink id) :=
  undisturbed_of_framed (framed_remove_sink d id) (by simp [EndOfSink, OfLoader])

theorem undisturbed_add_probe (d : Daemon) (o : Outcomes) (id : Bytes) (config : ComponentConfig) :
    Undisturbed d (d.addProbe o id config) :=
  undisturbed_of_framed (framed_add_probe d o id config) (by simp [EndOfProbe, OfLoader])

theorem undisturbed_forget_probe (d : Daemon) (probe : LoadedProbe) : Undisturbed d (d.forgetProbe probe) :=
  undisturbed_of_framed (framed_forget_probe d probe) (by simp [EndOfProbe, OfLoader])

theorem undisturbed_remove_probe (d : Daemon) (o : Outcomes) (id : Bytes) : Undisturbed d (d.removeProbe o id) := by
  have dropped : ∀ (d : Daemon) (dead : ProbePtr), Undisturbed d (d.forgetDropped dead) := by
    intro d dead
    unfold forgetDropped
    cases d.probes.find? (·.ptr = dead) with
    | none => exact .refl d
    | some probe => exact undisturbed_forget_probe d probe
  unfold removeProbe
  cases d.probes.find? (·.id = id) with
  | none => exact .refl d
  | some probe =>
    refine .trans ?_ (foldl_related .refl .trans dropped _ _)
    refine .trans ?_ (undisturbed_forget_probe _ probe)
    refine undisturbed_traced ((d.loop.remove probe.ptr (o.rearm id)).1.map .rearmFailed) ?_ rfl rfl rfl rfl
    rw [shipmentsOf, List.filterMap_map, List.filterMap_eq_nil_iff]
    exact fun _ _ => rfl

theorem undisturbed_add_sink_from (next : Config) (o : Outcomes) (d : Daemon) (id : Bytes) :
    Undisturbed d (addSinkFrom next o d id) := by
  unfold addSinkFrom
  cases next.sinks[id]? with
  | none => exact .refl d
  | some config => exact undisturbed_add_sink d o id config

theorem undisturbed_add_probe_from (next : Config) (o : Outcomes) (d : Daemon) (id : Bytes) :
    Undisturbed d (addProbeFrom next o d id) := by
  unfold addProbeFrom
  cases next.probes[id]? with
  | none => exact .refl d
  | some config => exact undisturbed_add_probe d o id config

theorem undisturbed_reload (d : Daemon) (o : Outcomes) (loaded : Option Config) :
    Undisturbed d (d.reloadConfig o loaded) := by
  by_cases noPath : d.configPath = []
  · simpa only [reloadConfig, if_pos noPath] using .refl d
  cases loaded with
  | none => simpa only [reloadConfig, if_neg noPath] using .refl d
  | some next =>
    cases planned : diffForReload d.config next with
    | none => simpa only [reloadConfig, if_neg noPath, planned] using .refl d
    | some diff =>
      simp only [reloadConfig, if_neg noPath, planned, applyReload]
      have looped {f : Daemon → Bytes → Daemon} (each : ∀ d id, Undisturbed d (f d id)) (ids : List Bytes) (d : Daemon) :
          Undisturbed d (ids.foldl f d) := foldl_related .refl .trans each ids d
      have whole := ((looped undisturbed_remove_sink diff.removedSinks d).trans
        (looped (undisturbed_add_sink_from next o) diff.addedSinks _)).trans
          ((looped (fun d id => undisturbed_remove_probe d o id) diff.removedProbes _).trans
            (looped (undisturbed_add_probe_from next o) diff.addedProbes _))
      exact ⟨whole.pipeline, whole.resolver, whole.shipments⟩

/-- The books are of what is left alone. -/
theorem accounts_undisturbed (accounts : Accounts d) (undisturbed : Undisturbed d d') : Accounts d' := by
  obtain ⟨⟨p, piped, wired⟩, ⟨resolver, resolved⟩, balanced⟩ := accounts
  have piped' := undisturbed.pipeline p piped wired
  refine ⟨⟨_, piped', rfl⟩, ⟨resolver, undisturbed.resolver.trans resolved⟩, fun q r isPipeline isResolver => ?_⟩
  rw [piped', Option.some.injEq] at isPipeline
  rw [undisturbed.resolver, resolved, Option.some.injEq] at isResolver
  rw [← isPipeline, ← isResolver, shippedRecords, undisturbed.shipments]
  exact balanced p resolver piped resolved

/-! ### The start -/

theorem undisturbed_start_sinks (d : Daemon) (o : Outcomes) : Undisturbed d (d.startSinks o) :=
  foldl_related (R := Undisturbed) .refl .trans
    (fun d (entry : Bytes × ComponentConfig) => undisturbed_add_sink d o entry.1 entry.2) _ d

theorem undisturbed_start_probes (d : Daemon) (o : Outcomes) : Undisturbed d (d.startProbes o) :=
  foldl_related (R := Undisturbed) .refl .trans
    (fun d (entry : Bytes × ComponentConfig) => undisturbed_add_probe d o entry.1 entry.2) _ d

/-- What no directory changes when it is added, a walk does not change. -/
theorem walk_keeps {α : Type} {bootOffsetNs : UInt64} {tree : CgroupTree} (part : CgroupResolver → α)
    (each : ∀ r path, part (CgroupResolver.addDir bootOffsetNs tree r path) = part r) (r : CgroupResolver) (dir : Path) :
    part (CgroupResolver.addSubtree bootOffsetNs tree r dir).resolver = part r := by
  have turn : ∀ w, part (CgroupResolver.addSubtreeStep bootOffsetNs tree w).resolver = part w.resolver := by
    intro w
    unfold CgroupResolver.addSubtreeStep
    split
    · rfl
    · simp only
      split <;> split <;> first | exact each _ _ | rfl
  have loop : ∀ fuel w, part (CgroupResolver.addSubtreeLoop bootOffsetNs tree fuel w).resolver = part w.resolver := by
    intro fuel
    induction fuel with
    | zero => exact fun w => rfl
    | succ fuel ih =>
      intro w
      rw [CgroupResolver.addSubtreeLoop]
      split
      · rfl
      · rw [ih, turn]
  exact loop _ _

/-- The walk counts nothing. -/
theorem add_subtree_stats (bootOffsetNs : UInt64) (tree : CgroupTree) (resolver : CgroupResolver) (dir : Path) :
    (CgroupResolver.addSubtree bootOffsetNs tree resolver dir).resolver.stats = resolver.stats := by
  refine walk_keeps CgroupResolver.stats (fun r path => ?_) resolver dir
  unfold CgroupResolver.addDir
  split
  · rfl
  · split <;> rfl

/-- The resolver of a daemon that came up is the one that was scanned. -/
theorem start_scanned {env : StartOutcomes} (up : (start d env).1 = true) :
    ∃ root, env.cgroupRoot = some root ∧ (CgroupResolver.start env.bootOffsetNs env.tree { root }).1 = true ∧
      (start d env).2.resolver = some (CgroupResolver.start env.bootOffsetNs env.tree { root }).2 := by
  unfold start startToPipeline at up ⊢
  by_cases noDir : d.config.pluginDir = []
  · simp [noDir] at up
  rw [if_neg noDir] at up ⊢
  cases found : env.cgroupRoot with
  | none => simp [found] at up
  | some root =>
    simp only [found] at up ⊢
    refine ⟨root, rfl, ?_⟩
    rcases scanned : CgroupResolver.start env.bootOffsetNs env.tree { root } with ⟨_ | _, resolver⟩
    · simp only [scanned, Bool.false_eq_true] at up
    simp only [scanned] at up ⊢
    have sinks := (undisturbed_start_sinks { d with resolver := some resolver } env.toOutcomes).resolver
    generalize startSinks { d with resolver := some resolver } env.toOutcomes = sinksUp at up sinks ⊢
    by_cases noSinks : sinksUp.sinks = []
    · simp [noSinks] at up
    rw [decide_eq_true noSinks] at up ⊢
    simp only [startFromPipeline] at up ⊢
    have rewired := wire_sinks_resolver { sinksUp with pipeline := some (.new sinksUp.pipelineOptions [] env.now) }
    generalize wireSinks { sinksUp with pipeline := some (.new sinksUp.pipelineOptions [] env.now) } = wired at up rewired ⊢
    have watcher : (wired.startCgroupWatcher env.watcher).2.resolver = wired.resolver := by
      unfold startCgroupWatcher
      split
      · rfl
      · split <;> rfl
    rcases came : wired.startCgroupWatcher env.watcher with ⟨_ | _, watching⟩ <;> rw [came] at watcher
    · simp [came] at up
    · have probes := (undisturbed_start_probes watching env.toOutcomes).resolver
      exact ⟨trivial, probes.trans (watcher.trans (rewired.trans sinks))⟩

/-- A daemon that came up is wired to its sinks and has not counted or shipped
anything. -/
theorem start_unshipped {config : Config} {configPath : Bytes} {env : StartOutcomes}
    (up : (start (.new config configPath) env).1 = true) :
    ∃ p, (start (.new config configPath) env).2.pipeline = some p ∧
      p.sinks = (start (.new config configPath) env).2.sinks.map LoadedSink.ref ∧ p.stats = {} ∧ p.batch = [] ∧
      shipmentsOf (start (.new config configPath) env).2.trace = [] := by
  obtain ⟨resolver, -, -, result, -⟩ := start_true up
  have sinks := undisturbed_start_sinks { Daemon.new config configPath with resolver := some resolver } env.toOutcomes
  rw [result]
  generalize startSinks { Daemon.new config configPath with resolver := some resolver } env.toOutcomes = sinksUp at *
  have probes := undisturbed_start_probes (watched (piped sinksUp env.now)) env.toOutcomes
  have middle : (watched (piped sinksUp env.now)).sinks = sinksUp.sinks ∧
      (watched (piped sinksUp env.now)).trace = sinksUp.trace := by
    simp [watched, piped]
  refine ⟨_, probes.pipeline _ (SinkDebts.piped_pipeline sinksUp env.now) (by rw [middle.1]; rfl), rfl, rfl, rfl, ?_⟩
  rw [probes.shipments, middle.2, sinks.shipments]
  rfl

theorem accounts_start {config : Config} {configPath : Bytes} {env : StartOutcomes}
    (up : (start (.new config configPath) env).1 = true) : Accounts (start (.new config configPath) env).2 := by
  obtain ⟨root, -, ran, scanned⟩ := start_scanned up
  obtain ⟨p, isPipeline, wired, noStats, noBatch, silent⟩ := start_unshipped up
  have stats : (CgroupResolver.start env.bootOffsetNs env.tree { root }).2.stats = { rescans := 1 } := by
    unfold CgroupResolver.start at ran ⊢
    split at ran
    · rw [if_pos ‹_›]
      simp only [CgroupResolver.scan, add_subtree_stats]
    · cases ran
  refine ⟨⟨p, isPipeline, wired⟩, ⟨_, scanned⟩, fun q r isPipeline' isResolver => ?_⟩
  rw [← Option.some.inj (isPipeline.symm.trans isPipeline'), ← Option.some.inj (scanned.symm.trans isResolver), stats,
    shippedRecords, silent, noStats, noBatch]
  exact ⟨rfl, rfl, rfl, rfl, rfl⟩

/-! ### Runs -/

/-- Probes emit partly-filled records: attribution is the pipeline's job. -/
def LeavesAttribution (plugins : Plugins) : Prop := ∀ home data r, plugins home data = some r → r.jobId = none

theorem proc_lifecycle_leaves_attribution : LeavesAttribution fun _ => ProcLifecycle.onEvent := by
  intro _ data r emitted
  simp only [ProcLifecycle.onEvent, Option.ite_none_left_eq_some] at emitted
  unfold ProcLifecycle.translate at emitted
  simp only at emitted
  split at emitted
  · rw [← Option.some.inj emitted.2]
  · split at emitted
    · rw [← Option.some.inj emitted.2]
    · cases emitted.2

/-- The watcher's samples change the map, not the counters. -/
theorem on_sample_stats (resolver : CgroupResolver) (data : Bytes) :
    (CgroupWatcher.onSample resolver data).stats = resolver.stats := by
  unfold CgroupWatcher.onSample CgroupWatcher.onEvent
  split
  · rfl
  · split
    · rfl
    · split
      · unfold CgroupResolver.onCreated
        split <;> rfl
      · unfold CgroupResolver.onRemoved
        split
        · rfl
        · split <;> rfl

variable {plugins : Plugins}

theorem accounts_sample (accounts : Accounts d) (blank : LeavesAttribution plugins) {ctx : Nat} {data : Bytes}
    {bootOffsetNs : UInt64} {passwd : PasswdReply}
    (called : d.onSample plugins ctx data bootOffsetNs passwd = some d') : Accounts d' := by
  unfold onSample at called
  split at called
  · cases called
  · split at called
    · split at called
      · cases called
        obtain ⟨piped, ⟨resolver, resolved⟩, balanced⟩ := accounts
        refine ⟨piped, ⟨CgroupWatcher.onSample resolver data, by rw [resolved]; rfl⟩, fun p r isPipeline isResolver => ?_⟩
        rw [resolved, Option.map_some, Option.some.injEq] at isResolver
        rw [← isResolver, on_sample_stats]
        exact balanced p resolver isPipeline resolved
      · cases called
    · split at called
      · cases called
      · split at called
        · cases called
          exact accounts
        · rename_i emitted
          cases called
          exact accounts_emit accounts _ bootOffsetNs passwd (blank _ _ _ emitted)

theorem accounts_step {m m' : MainLoop} {a : LoopStep} (accounts : Accounts m.daemon)
    (blank : LeavesAttribution plugins) (ran : m.step plugins a = some m') : Accounts m'.daemon := by
  cases turned_of_step ran with
  | sample _ _ called => exact accounts_sample accounts blank called
  | @ticked monotonicNs now _ => exact accounts_tick accounts monotonicNs now
  | @reloaded o loaded _ => exact accounts_undisturbed accounts (undisturbed_reload m.daemon o loaded)
  | _ => exact accounts

/-! ### The records -/

/-- A sample that is read, with the instance whose ring it is of. The watcher's
are not for a probe. -/
def heardIn (d : Daemon) : LoopStep → List (LoadedProbe × Bytes)
  | .sample ring data _ _ => ((d.probes.find? (·.ptr = ring.probe)).map fun p => (p, data)).toList
  | _ => []

/-- What the instance's plugin makes of it, under the id the instance runs under. -/
def made (plugins : Plugins) (x : LoadedProbe × Bytes) : Option Record :=
  (plugins x.1.home x.2).map fun r => { r with probe := x.1.id }

/-- What the pipeline makes of that in turn: the records it counts in a step. -/
def enteredIn (plugins : Plugins) (d : Daemon) (a : LoopStep) : List Record :=
  match a, d.pipeline, d.resolver with
  | .sample _ _ bootOffsetNs passwd, some p, some resolver =>
    ((heardIn d a).filterMap (made plugins)).map fun r => (p.enrich ⟨resolver, bootOffsetNs, passwd⟩ r).1
  | _, _, _ => []

/-- All the records a run counts, in order. -/
def entered (plugins : Plugins) : MainLoop → List LoopStep → List Record :=
  gathered (MainLoop.step plugins) fun m a => enteredIn plugins m.daemon a

/-- The records that were counted are those that were shipped and those that
are pending, in this order. -/
structure Keeps (opt : PipelineOptions) (counted : List Record) (d : Daemon) : Prop where
  resolved : ∃ resolver, d.resolver = some resolver
  piped : ∃ p, d.pipeline = some p ∧ p.sinks = d.sinks.map LoadedSink.ref ∧ p.opt = opt ∧
    shippedRecords d.trace ++ p.batch = counted

variable {opt : PipelineOptions} {sofar : List Record}

/-- A call into the pipeline hands on what it held and what it was given. -/
theorem keeps_moved (keeps : Keeps opt sofar d) {p p' : Pipeline} (isPipeline : d.pipeline = some p)
    {shipments : List Shipment} {enriched : List Record} (options : p'.opt = p.opt) (sinks : p'.sinks = p.sinks)
    (conserved : shipments.flatMap Shipment.batch ++ p'.batch = p.batch ++ enriched) (resolver : CgroupResolver) :
    Keeps opt (sofar ++ enriched)
      { d with pipeline := some p', resolver := some resolver, trace := d.trace ++ shipments.map .shipped } := by
  obtain ⟨q, isPipeline', wired, held, kept⟩ := keeps.piped
  cases isPipeline.symm.trans isPipeline'
  refine ⟨⟨resolver, rfl⟩, p', rfl, sinks.trans wired, options.trans held, ?_⟩
  simp only [shipped_records_grown]
  rw [List.append_assoc, conserved, ← List.append_assoc, kept]

theorem keeps_emit (keeps : Keeps opt sofar d) {p : Pipeline} {resolver : CgroupResolver} (isPipeline : d.pipeline = some p)
    (resolved : d.resolver = some resolver) (id : Bytes) (bootOffsetNs : UInt64) (passwd : PasswdReply) (r : Record) :
    Keeps opt (sofar ++ [(p.enrich ⟨resolver, bootOffsetNs, passwd⟩ { r with probe := id }).1])
      (d.emit (.instance id) bootOffsetNs passwd r) := by
  let s : Surroundings := ⟨resolver, bootOffsetNs, passwd⟩
  have moved := moves_call p (.emit s { r with probe := id })
  have conserved := moved.conserved
  rw [← List.flatMap_def] at conserved
  simp only [emit, isPipeline, resolved]
  exact keeps_moved keeps isPipeline moved.opt (@sinks_call p (.emit s { r with probe := id }) (by simp)) conserved.symm _

theorem keeps_tick (keeps : Keeps opt sofar d) (monotonicNs : UInt64) (now : Int64) :
    Keeps opt sofar (d.tick monotonicNs now) := by
  obtain ⟨resolver, resolved⟩ := keeps.resolved
  obtain ⟨p, isPipeline, -⟩ := keeps.piped
  have options : (p.tick now).1.opt = p.opt := by
    rcases tick_cases p now with still | ships
    · rw [still]
    · rw [ships, ship_fst]
  obtain ⟨-, sinks, conserved⟩ := tick_moves p now
  rw [← List.append_nil p.batch] at conserved
  simp only [tick, isPipeline, resolved]
  generalize p.tick now = ticked at options sinks conserved ⊢
  have moved := keeps_moved keeps isPipeline options sinks conserved (resolver.tick monotonicNs)
  rwa [List.append_nil] at moved

theorem keeps_undisturbed (keeps : Keeps opt sofar d) (undisturbed : Undisturbed d d') : Keeps opt sofar d' := by
  obtain ⟨resolver, resolved⟩ := keeps.resolved
  obtain ⟨p, isPipeline, wired, held, kept⟩ := keeps.piped
  refine ⟨⟨resolver, undisturbed.resolver.trans resolved⟩, _, undisturbed.pipeline p isPipeline wired, rfl, held, ?_⟩
  rw [shippedRecords, undisturbed.shipments]
  exact kept

theorem keeps_sample (running : Running d) (keeps : Keeps opt sofar d) {ring : ArmedRing}
    (armed : ring ∈ EventLoopProofs.rings d.loop) {data : Bytes} {bootOffsetNs : UInt64} {passwd : PasswdReply}
    (called : d.onSample plugins ring.ctx data bootOffsetNs passwd = some d') :
    Keeps opt (sofar ++ enteredIn plugins d (.sample ring data bootOffsetNs passwd)) d' := by
  obtain ⟨after, is, dispatched⟩ : ∃ after, d.onSample plugins ring.ctx data bootOffsetNs passwd = some after ∧
      Dispatched plugins d ring data bootOffsetNs passwd after :=
    dispatched_of_armed running armed data bootOffsetNs passwd
  cases called.symm.trans is
  obtain ⟨resolver, resolved⟩ := keeps.resolved
  obtain ⟨p, isPipeline, -⟩ := keeps.piped
  unfold Dispatched at dispatched
  split at dispatched
  · rename_i isWatcher
    have nobody : d.probes.find? (·.ptr = ring.probe) = none := by
      rw [isWatcher, List.find?_eq_none]
      simp [LoadedProbe.ptr]
    simp only [enteredIn, isPipeline, resolved, heardIn, nobody, Option.map_none, Option.toList_none, List.filterMap_nil,
      List.map_nil, List.append_nil]
    rw [dispatched.2]
    exact ⟨⟨_, by rw [resolved]; rfl⟩, keeps.piped⟩
  · rename_i ref isProbe
    obtain ⟨instance', listed, rfl, -, is⟩ := dispatched
    have found : d.probes.find? (·.ptr = ring.probe) = some instance' := by
      rw [isProbe]
      exact Keyed.find_key running.sound.settled.fresh.unique listed
    simp only [enteredIn, isPipeline, resolved, heardIn, found, Option.map_some, Option.toList_some, is]
    cases emitted : plugins instance'.home data with
    | none => simpa [made, emitted] using keeps
    | some r => simpa [made, emitted] using keeps_emit keeps isPipeline resolved instance'.id bootOffsetNs passwd r

theorem keeps_step {m m' : MainLoop} {a : LoopStep} (running : Running m.daemon) (keeps : Keeps opt sofar m.daemon)
    (ran : m.step plugins a = some m') : Keeps opt (sofar ++ enteredIn plugins m.daemon a) m'.daemon := by
  cases turned_of_step ran with
  | sample _ armed called => exact keeps_sample running keeps armed called
  | @ticked monotonicNs now _ => simpa [enteredIn] using keeps_tick keeps monotonicNs now
  | @reloaded o loaded _ => simpa [enteredIn] using keeps_undisturbed keeps (undisturbed_reload m.daemon o loaded)
  | _ => simpa [enteredIn] using keeps

theorem keeps_run (actions : List LoopStep) {m m' : MainLoop} (running : Running m.daemon)
    (keeps : Keeps opt sofar m.daemon) (ran : actions.foldlM (MainLoop.step plugins) m = some m') :
    Keeps opt (sofar ++ entered plugins m actions) m'.daemon := by
  have both := gathered_agrees (R := fun counted m => Running m.daemon ∧ Keeps opt counted m.daemon)
    (fun held ran => ⟨running_step held.1 ran, keeps_step held.1 held.2 ran⟩) actions ⟨running, keeps⟩ ran
  exact both.2

/-- The pipeline of a daemon that came up is that of its configuration. -/
theorem start_options {config : Config} {configPath : Bytes} {env : StartOutcomes}
    (up : (start (.new config configPath) env).1 = true) {p : Pipeline}
    (isPipeline : (start (.new config configPath) env).2.pipeline = some p) :
    p.opt = pipelineOptions (.new config configPath) := by
  obtain ⟨resolver, -, -, result, -⟩ := start_true up
  have settings := (start_sinks_loop { Daemon.new config configPath with resolver := some resolver } env.toOutcomes).1.settings
  rw [result] at isPipeline
  generalize startSinks { Daemon.new config configPath with resolver := some resolver } env.toOutcomes = sinksUp at *
  have probes := undisturbed_start_probes (watched (piped sinksUp env.now)) env.toOutcomes
  have same := probes.pipeline _ (SinkDebts.piped_pipeline sinksUp env.now) (by simp [watched, piped]; rfl)
  cases same.symm.trans isPipeline
  have config' : sinksUp.config = config := config_eq settings
  simp only [Pipeline.setSinks, Pipeline.new, pipelineOptions, config', Daemon.new]

theorem keeps_start {config : Config} {configPath : Bytes} {env : StartOutcomes}
    (up : (start (.new config configPath) env).1 = true) :
    Keeps (pipelineOptions (.new config configPath)) [] (start (.new config configPath) env).2 := by
  obtain ⟨root, -, -, scanned⟩ := start_scanned up
  obtain ⟨p, isPipeline, wired, -, noBatch, silent⟩ := start_unshipped up
  refine ⟨⟨_, scanned⟩, p, isPipeline, wired, start_options up isPipeline, ?_⟩
  rw [shippedRecords, silent, noBatch]
  rfl

/-! ### The books over a run -/

/-- The books of a daemon against the records it has counted. -/
structure Audited (counted : List Record) (d : Daemon) : Prop where
  accounts : Accounts d
  /-- They were shipped or are pending, one by one and in this order. -/
  kept : ∃ p resolver, d.pipeline = some p ∧ d.resolver = some resolver ∧
    shippedRecords d.trace ++ p.batch = counted ∧ Balanced p.stats resolver.stats counted

/-- At every moment of every run the counters account for every record: each
was looked up once, the unattributed ones are those the lookup did not answer,
and all of them were shipped or are pending, in the order in which they were
made. -/
theorem accounts_balance (plugins : Plugins) (blank : LeavesAttribution plugins) (config : Config)
    (configPath : Bytes) (env : StartOutcomes) (up : (start (.new config configPath) env).1 = true) (flags : Flags)
    (actions : List LoopStep) (m : MainLoop)
    (ran : actions.foldlM (MainLoop.step plugins) (.run (start (.new config configPath) env).2 flags) = some m) :
    Audited (entered plugins (.run (start (.new config configPath) env).2 flags) actions) m.daemon := by
  have accounts : Accounts m.daemon := by
    refine steps_related (R := fun m m' => Accounts m.daemon → Accounts m'.daemon) (fun _ held => held) ?_ actions ?_ ran
      (accounts_start up)
    · exact fun first second held => second (first held)
    · exact fun a _ _ _ ran held => accounts_step held blank ran
  have keeps := keeps_run actions (by exact running_start up) (by exact keeps_start up) ran
  obtain ⟨resolver, resolved⟩ := keeps.resolved
  obtain ⟨p, isPipeline, -, -, kept⟩ := keeps.piped
  have balanced := accounts.balanced p resolver isPipeline resolved
  rw [kept] at balanced
  exact ⟨accounts, p, resolver, isPipeline, resolved, kept, balanced⟩

/-! ### Three tasks -/

/-- A mount with job 5, whose cgroup is 7. -/
def jobTree : CgroupTree where
  nodes := [⟨[], 1, true, .dir, 0⟩, ⟨[ascii "job_5"], 7, true, .dir, 0⟩]
  pathsDistinct := by decide
  inosDistinct := by decide
  parents := by decide
  names := by decide
  types := by decide

def onJobTree : StartOutcomes := { allUp with tree := jobTree }

/-- Records leave two by two. -/
def inPairs : Config := { ZombieFreedom.withoutOom with batchSize := 2 }

def pairsUp : MainLoop := .run (start (.new inPairs (ascii "slurm-tracer.json")) onJobTree).2 {}

/-- Two samples of the job and one from elsewhere are read, and a turn ends in
between. -/
def hearTasks : List LoopStep :=
  let hears (f : Fired) : LoopStep := .sample ⟨.probe 1, 1⟩ ((sample 0 f).getD []) 0 .failed
  [.enter, hears bashExec, .polled 0, .tick 0 0, .check, .enter, hears bashExit, hears strayExec]

def afterTasks : Option MainLoop := hearTasks.foldlM (MainLoop.step fun _ => ProcLifecycle.onEvent) pairsUp

theorem tasks_heard : afterTasks.isSome = true := by decide +kernel

theorem accounts_balance_after_tasks :
    Audited (entered (fun _ => ProcLifecycle.onEvent) pairsUp hearTasks) (afterTasks.get tasks_heard).daemon :=
  accounts_balance (fun _ => ProcLifecycle.onEvent) proc_lifecycle_leaves_attribution inPairs
    (ascii "slurm-tracer.json") onJobTree (by decide) {} hearTasks _ (Option.some_get _).symm

end SlurmTracer.RunAccounts
