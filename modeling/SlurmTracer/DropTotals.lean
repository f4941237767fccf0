import SlurmTracer.Core.Shutdown
import SlurmTracer.Lib.Tally
import SlurmTracer.NonBlocking
import SlurmTracer.QueueSteps

/-!
The dropped batches `report_shutdown` counts. Every instance counts its own for
as long as it lives, and the report adds up the instances still listed: what an
instance had dropped goes with it when a reload takes it down, so the total is
the true one exactly when no such instance had dropped anything
(`drops_visible_iff`).
-/
namespace SlurmTracer.DropTotals
open SlurmTracer.Core Lib Core.Threads DaemonProofs DaemonRuns Lib.Reconcile NonBlocking QueueSteps Lib.Tally
  ThreadSteps Lib.Transition

/-! ### What an observer writes down -/

/-- A run, with every sink instance that ever ran and, once for each batch that
was dropped, the instance that dropped it. -/
structure Watched where
  run : Run
  ran : List LoadedSink
  drops : List LoadedSink := []

/-- By how much an instance's `dropped_` went up. -/
def droppedBy (before after : Threads) (s : LoadedSink) : Nat :=
  (after.queues s.ref).dropped - (before.queues s.ref).dropped

def Watched.step (w : Watched) (a : RunStep) : Option Watched :=
  (w.run.step a).map fun run =>
    { run
      ran := w.ran ++ run.threads.daemon.sinks.filter fun s => s ∉ w.ran
      drops := w.drops ++ w.ran.flatMap fun s => List.replicate (droppedBy w.run.threads run.threads s) s }

/-- A daemon that came up, seen from then on. -/
def Began (w : Watched) : Prop :=
  ∃ threads, Came threads ∧ w = { run := { threads }, ran := threads.daemon.sinks }

/-- The batches dropped by all the instances that ever ran. -/
def totalDropped (w : Watched) : Nat := (w.ran.map fun s => w.drops.count s).sum

/-- No instance that a reload took down had dropped a batch. -/
def RemovedDroppedNone (w : Watched) : Prop :=
  ∀ s ∈ w.ran, s ∉ w.run.threads.daemon.sinks → s ∉ w.drops

/-! ### One step -/

/-- What a step can do to the instances: some go, or a new one comes with a
count of its own, and no count goes back. -/
structure Moves (t t' : Threads) : Prop where
  nextRef : t.daemon.loader.nextRef ≤ t'.daemon.loader.nextRef
  counts : ∀ ref < t.daemon.loader.nextRef, (t.queues ref).dropped ≤ (t'.queues ref).dropped
  sinks : t'.daemon.sinks.Sublist t.daemon.sinks ∨ ∃ s, t'.daemon.sinks = t.daemon.sinks ++ [s] ∧
    s.ref = t.daemon.loader.nextRef ∧ s.ref < t'.daemon.loader.nextRef ∧ (t'.queues s.ref).dropped = 0

variable {t t' : Threads}

/-- A step that leaves the list and the loader alone. -/
theorem Moves.of_counts (sinks : t'.daemon.sinks = t.daemon.sinks)
    (nextRef : t.daemon.loader.nextRef ≤ t'.daemon.loader.nextRef)
    (counts : ∀ ref, (t.queues ref).dropped ≤ (t'.queues ref).dropped) : Moves t t' :=
  ⟨nextRef, fun ref _ => counts ref, .inl (sinks ▸ List.Sublist.refl _)⟩

theorem Moves.refl (t : Threads) : Moves t t := .of_counts rfl (Nat.le_refl _) fun _ => Nat.le_refl _

/-- `dropped_` only ever goes up. -/
theorem sink_step_dropped {kind : SinkKind} {q q' : QueueSink Record} {a : SinkStep Record}
    (ran : kind.step q a = some q') : q.dropped ≤ q'.dropped := by
  have counted : ∀ capacity attempt, q.step capacity attempt a = some q' → q.dropped ≤ q'.dropped := by
    intro capacity attempt ran
    cases change_of_step ran with
    | write running written =>
      rcases write_some written with rfl | ⟨n, -, rfl⟩
      · exact Nat.le_refl _
      · exact Nat.le_add_right _ _
    | lost handling reads => exact Nat.le_succ _
    | _ => exact Nat.le_refl _
  cases kind with
  | null =>
    cases a with
    | write batch =>
      cases ran
      exact Nat.le_refl _
    | _ => cases ran
  | stdoutJson maxQueuedBatches =>
    rw [SinkKind.step] at ran
    exact counted _ _ ran
  | http maxQueuedBatches =>
    rw [SinkKind.step] at ran
    exact counted _ _ ran

theorem set_queue_counts {q : QueueSink Record} (ref : SinkRef) (higher : (t.queues ref).dropped ≤ q.dropped)
    (other : SinkRef) : (t.queues other).dropped ≤ ((t.setQueue ref q).queues other).dropped := by
  unfold setQueue
  by_cases here : other = ref
  · subst here
    simpa using higher
  · simp [here]

theorem deliver_to_counts {batch : List Record} {ref : SinkRef} (ran : deliverTo batch t ref = some t')
    (other : SinkRef) : (t.queues other).dropped ≤ (t'.queues other).dropped := by
  unfold deliverTo at ran
  split at ran
  · cases ran
    exact Nat.le_refl _
  · obtain ⟨q, stepped, rfl⟩ := Option.map_eq_some_iff.mp ran
    exact set_queue_counts ref (sink_step_dropped stepped) other

theorem deliver_counts (shipments : List Shipment) (ran : deliver t shipments = some t') (other : SinkRef) :
    (t.queues other).dropped ≤ (t'.queues other).dropped :=
  deliver_related (R := fun t t' => (t.queues other).dropped ≤ (t'.queues other).dropped)
    (fun _ => Nat.le_refl _) Nat.le_trans (fun written => deliver_to_counts written other) shipments ran

/-- A call into the pipeline and the writes it leads to. -/
theorem moves_deliver {daemon : Daemon} {shipments : List Shipment} (sinks : daemon.sinks = t.daemon.sinks)
    (loader : daemon.loader = t.daemon.loader) (ran : deliver { t with daemon } shipments = some t') :
    Moves t t' := by
  obtain ⟨-, same⟩ := deliver_frame shipments ran
  have counts := deliver_counts shipments ran
  refine Moves.of_counts ?_ ?_ counts
  · rw [same, sinks]
  · rw [same, loader]

/-- A new instance is listed last, at an address nobody had. -/
theorem add_sink_grows (d : Daemon) (o : Outcomes) (id : Bytes) (config : ComponentConfig) :
    (d.addSink o id config).sinks = d.sinks ∨ ∃ s, (d.addSink o id config).sinks = d.sinks ++ [s] ∧
      s.ref = d.loader.nextRef ∧ s.ref < (d.addSink o id config).loader.nextRef := by
  have sinks := add_sink_sinks d o id config
  unfold builtSink at sinks
  cases outcome : o.sink id with
  | built kind =>
    rw [outcome] at sinks
    refine .inr ⟨_, sinks, rfl, ?_⟩
    simp [Daemon.addSink, PluginLoader.loadSink, PluginLoader.openPlugin, outcome, LoadedSink.ref]
  | _ =>
    rw [outcome] at sinks
    exact .inl (by simpa using sinks)

theorem moves_add_sink (t : Threads) (r : Reload) (id : Bytes) : Moves t (t.addSink r id) := by
  have counts : ∀ ref < t.daemon.loader.nextRef, (t.queues ref).dropped ≤ ((t.addSink r id).queues ref).dropped := by
    intro ref below
    have apart : ref ≠ t.daemon.loader.nextRef := Nat.ne_of_lt below
    simp [addSink, setQueue, apart]
  have fresh : ((t.addSink r id).queues t.daemon.loader.nextRef).dropped = 0 := by
    simp [addSink, setQueue]
  have daemon : (t.addSink r id).daemon = Daemon.addSinkFrom r.next r.o t.daemon id := rfl
  unfold Daemon.addSinkFrom at daemon
  cases there : r.next.sinks[id]? with
  | none =>
    rw [there] at daemon
    refine ⟨?_, counts, .inl ?_⟩ <;> rw [daemon]
  | some config =>
    rw [there] at daemon
    refine ⟨?_, counts, ?_⟩
    · rw [daemon]
      exact (add_sink_frame t.daemon r.o id config).nextRef
    · rw [daemon]
      rcases add_sink_grows t.daemon r.o id config with same | ⟨s, grown, ref, below⟩
      · exact .inl (same ▸ List.Sublist.refl _)
      · exact .inr ⟨s, grown, ref, below, ref ▸ fresh⟩

theorem add_probe_from_frame (next : Config) (o : Outcomes) (d : Daemon) (id : Bytes) :
    BesideProbes d (Daemon.addProbeFrom next o d id) := by
  unfold Daemon.addProbeFrom
  cases next.probes[id]? with
  | none => exact .refl d
  | some config => exact add_probe_frame d o id config

theorem moves_proceed (proceeds : Proceeds t t') : Moves t t' := by
  have still : ∀ ref, (t.queues ref).dropped ≤ (t.queues ref).dropped := fun _ => Nat.le_refl _
  cases proceeds with
  | discarded _ unlinked _ =>
    obtain ⟨-, -, sinks, loader⟩ := unlink_sink_some unlinked
    refine ⟨?_, fun ref _ => still ref, .inl ?_⟩
    · rw [discard_sink_next_ref, loader]
    · rw [discard_sink_sinks, sinks]
      exact List.erase_sublist
  | unlinked _ unlinked _ =>
    obtain ⟨-, -, sinks, loader⟩ := unlink_sink_some unlinked
    exact ⟨Nat.le_of_eq (by rw [loader]), fun ref _ => still ref, .inl (sinks ▸ List.erase_sublist)⟩
  | flushed _ _ stopped =>
    exact Moves.of_counts rfl (Nat.le_refl _) (set_queue_counts _ (sink_step_dropped stopped))
  | @addSink r id ids _ =>
    have added := moves_add_sink t r id
    exact ⟨added.nextRef, added.counts, added.sinks⟩
  | removeProbe _ =>
    have frame := remove_probe_frame t.daemon
    exact Moves.of_counts (frame _ _).sinks (frame _ _).nextRef still
  | addProbe _ =>
    have frame := add_probe_from_frame
    exact Moves.of_counts (frame _ _ _ _).sinks (frame _ _ _ _).nextRef still
  | joined _ _ => exact Moves.of_counts (discard_sink_sinks _ _) (Nat.le_of_eq (discard_sink_next_ref _ _).symm) still
  | sinksRemoved _ | notListed _ _ | sinksAdded _ | probesRemoved _ | committed _ _ =>
    exact Moves.of_counts rfl (Nat.le_refl _) still

theorem moves_step {a : ThreadStep} (stepped : Stepped t a t') : Moves t t' := by
  cases stepped with
  | @emit out bootOffsetNs passwd r daemon _ _ emitted delivered =>
    obtain ⟨pipeline, resolver, shipments, effect⟩ := emit_effect t.daemon out bootOffsetNs passwd r
    exact moves_deliver (by rw [emitted, effect]) (by rw [emitted, effect]) delivered
  | @tick monotonicNs now daemon _ _ ticked delivered =>
    obtain ⟨pipeline, resolver, shipments, effect⟩ := tick_effect t.daemon monotonicNs now
    exact moves_deliver (by rw [ticked, effect]) (by rw [ticked, effect]) delivered
  | reload _ _ _ => exact Moves.of_counts rfl (Nat.le_refl _) fun _ => Nat.le_refl _
  | proceed proceeds => exact moves_proceed proceeds
  | worker _ _ stepped =>
    exact Moves.of_counts rfl (Nat.le_refl _) (set_queue_counts _ (sink_step_dropped stepped))

/-- What the report counts. -/
def listedDropped (t : Threads) : Nat := (t.daemon.sinks.map fun s => (t.queues s.ref).dropped).sum

theorem leave_some {now : Int64} {sinks : List SinkRef} (left : Run.leave t now = some (t', sinks)) :
    ∃ pipeline flushed shipments, t.daemon.pipeline = some pipeline ∧ pipeline.flush now = (flushed, shipments, sinks) ∧
      deliver { t with daemon := { t.daemon with
        pipeline := some flushed, trace := t.daemon.trace ++ shipments.map .shipped } } shipments = some t' := by
  unfold Run.leave at left
  split at left
  · rename_i pipeline _ there
    rcases ships : pipeline.flush now with ⟨flushed, shipments, listed⟩
    rw [ships] at left
    obtain ⟨after, delivered, same⟩ := Option.map_eq_some_iff.mp left
    obtain ⟨rfl, rfl⟩ := Prod.mk.inj same
    exact ⟨pipeline, flushed, shipments, there, ships, delivered⟩
  · cases left

/-- The last shipment may push batches out of the queues. -/
theorem moves_leave {now : Int64} {sinks : List SinkRef} (left : Run.leave t now = some (t', sinks)) :
    Moves t t' := by
  obtain ⟨pipeline, flushed, shipments, -, -, delivered⟩ := leave_some left
  exact moves_deliver (by rfl) (by rfl) delivered

/-- A step of the run moves the instances as one of its threads does, and a
report is of the state it is made in. -/
theorem moves_run {run run' : Run} {a : RunStep} (ran : run.step a = some run') :
    Moves run.threads run'.threads ∧
      ∀ report, run'.stage = .reported report → report.droppedBatches = listedDropped run'.threads := by
  cases progress_of_step ran with
  | thread may stepped =>
    refine ⟨moves_step stepped, fun report reported => ?_⟩
    dsimp only at reported
    rw [reported] at may
    cases may
  | leave _ left => exact ⟨moves_leave left, nofun⟩
  | flush _ => exact ⟨.refl _, nofun⟩
  | pass _ _ flushed =>
    subst flushed
    exact ⟨.of_counts rfl (Nat.le_refl _) fun _ => Nat.le_refl _, nofun⟩
  | report _ _ =>
    refine ⟨.refl _, fun report reported => ?_⟩
    cases reported
    rfl

/-! ### Runs -/

/-- Every instance is watched under an address of its own, and its counter
says how often the log names it. -/
structure Kept (w : Watched) : Prop where
  listed : ∀ s ∈ w.run.threads.daemon.sinks, s ∈ w.ran
  once : w.run.threads.daemon.sinks.Nodup
  refs : (w.ran.map LoadedSink.ref).Nodup
  below : ∀ s ∈ w.ran, s.ref < w.run.threads.daemon.loader.nextRef
  counted : ∀ s ∈ w.ran, w.drops.count s = (w.run.threads.queues s.ref).dropped
  known : ∀ s ∈ w.drops, s ∈ w.ran
  report : ∀ report, w.run.stage = .reported report → report.droppedBatches = listedDropped w.run.threads

variable {w w' : Watched}

/-- What one step adds to an instance's tally is what it adds to its counter. -/
theorem counted_step (kept : Kept w) {t' : Threads} (moves : Moves w.run.threads t') {s : LoadedSink}
    (member : s ∈ w.ran) :
    (w.drops ++ w.ran.flatMap fun s => List.replicate (droppedBy w.run.threads t' s) s).count s =
      (t'.queues s.ref).dropped := by
  have higher := moves.counts s.ref (kept.below s member)
  rw [List.count_append, kept.counted s member,
    count_steps (List.Nodup.of_map _ kept.refs) (droppedBy w.run.threads t') member, droppedBy]
  omega

theorem known_step (kept : Kept w) {t' : Threads} {s : LoadedSink}
    (named : s ∈ w.drops ++ w.ran.flatMap fun s => List.replicate (droppedBy w.run.threads t' s) s) :
    s ∈ w.ran := by
  rcases List.mem_append.mp named with old | new
  · exact kept.known s old
  · obtain ⟨other, member, here⟩ := List.mem_flatMap.mp new
    exact List.eq_of_mem_replicate here ▸ member

theorem none_new {ran sinks : List LoadedSink} (known : ∀ s ∈ sinks, s ∈ ran) :
    (sinks.filter fun s => s ∉ ran) = [] := by
  rw [List.filter_eq_nil_iff]
  intro s member
  simpa using known s member

theorem kept_step {a : RunStep} (kept : Kept w) (ran : w.step a = some w') : Kept w' := by
  obtain ⟨run, stepped, rfl⟩ := Option.map_eq_some_iff.mp ran
  obtain ⟨moves, report⟩ := moves_run stepped
  have older : ∀ s ∈ w.ran, s.ref < run.threads.daemon.loader.nextRef := fun s member =>
    Nat.lt_of_lt_of_le (kept.below s member) moves.nextRef
  rcases moves.sinks with fewer | ⟨new, grown, ref, below, zero⟩
  · have noneNew := none_new fun s member => kept.listed s (fewer.subset member)
    refine ⟨?_, kept.once.sublist fewer, ?_, ?_, ?_, ?_, report⟩ <;> simp only [noneNew, List.append_nil]
    · exact fun s member => kept.listed s (fewer.subset member)
    · exact kept.refs
    · exact older
    · exact fun s member => counted_step kept moves member
    · exact fun s named => known_step kept named
  · have fresh : new ∉ w.ran := fun member => Nat.ne_of_lt (kept.below new member) ref
    have oneNew : (run.threads.daemon.sinks.filter fun s => s ∉ w.ran) = [new] := by
      rw [grown, List.filter_append, none_new kept.listed, List.filter_cons_of_pos (by simpa using fresh)]
      rfl
    refine ⟨?_, ?_, ?_, ?_, ?_, ?_, report⟩ <;> simp only [oneNew]
    · intro s member
      rw [grown] at member
      exact List.mem_append.mpr ((List.mem_append.mp member).imp_left (kept.listed s))
    · rw [grown]
      exact Keyed.nodup_snoc kept.once fun listed => fresh (kept.listed new listed)
    · rw [List.map_append]
      refine Keyed.nodup_snoc kept.refs fun taken => ?_
      obtain ⟨s, member, same⟩ := List.mem_map.mp taken
      exact Nat.ne_of_lt (kept.below s member) (same.trans ref)
    · intro s member
      rcases List.mem_append.mp member with old | here
      · exact older s old
      · exact List.mem_singleton.mp here ▸ below
    · intro s member
      rcases List.mem_append.mp member with old | here
      · exact counted_step kept moves old
      · rw [List.mem_singleton.mp here, zero, List.count_eq_zero]
        exact fun named => fresh (known_step kept named)
    · exact fun s named => List.mem_append_left _ (known_step kept named)

/-! ### The start -/

/-- The sinks have addresses of their own, and the allocator has gone past
all of them. -/
def SinkRefs (d : Daemon) : Prop :=
  (d.sinks.map LoadedSink.ref).Nodup ∧ ∀ s ∈ d.sinks, s.ref < d.loader.nextRef

theorem sink_refs_add_sink {d : Daemon} (refs : SinkRefs d) (o : Outcomes) (id : Bytes) (config : ComponentConfig) :
    SinkRefs (d.addSink o id config) := by
  obtain ⟨once, below⟩ := refs
  have older : ∀ s ∈ d.sinks, s.ref < (d.addSink o id config).loader.nextRef := fun s member =>
    Nat.lt_of_lt_of_le (below s member) (add_sink_frame d o id config).nextRef
  rcases add_sink_grows d o id config with same | ⟨new, grown, ref, newBelow⟩
  · exact ⟨same ▸ once, same ▸ older⟩
  · unfold SinkRefs
    rw [grown, List.map_append]
    refine ⟨Keyed.nodup_snoc once fun taken => ?_, fun s member => ?_⟩
    · obtain ⟨s, member, same⟩ := List.mem_map.mp taken
      exact Nat.ne_of_lt (below s member) (same.trans ref)
    · rcases List.mem_append.mp member with old | here
      · exact older s old
      · exact List.mem_singleton.mp here ▸ newBelow

theorem sink_refs_start {config : Config} {configPath : Bytes} {env : StartOutcomes}
    (up : (Daemon.start (.new config configPath) env).1 = true) :
    SinkRefs (Daemon.start (.new config configPath) env).2 := by
  obtain ⟨resolver, -, -, result, -⟩ := start_true up
  have added : SinkRefs (Daemon.startSinks { Daemon.new config configPath with resolver := some resolver }
      env.toOutcomes) :=
    foldl_related (R := fun d d' => SinkRefs d → SinkRefs d') (fun _ refs => refs)
      (fun first second refs => second (first refs))
      (fun d entry refs => sink_refs_add_sink refs env.toOutcomes entry.1 entry.2) _ _ ⟨List.nodup_nil, nofun⟩
  rw [result]
  generalize Daemon.startSinks { Daemon.new config configPath with resolver := some resolver } env.toOutcomes = sinksUp
    at added
  have probesFrame := (start_probes_loop (watched (piped sinksUp env.now)) env.toOutcomes).1
  have sinks : (watched (piped sinksUp env.now)).sinks = sinksUp.sinks := by simp [watched, piped]
  have loader : (watched (piped sinksUp env.now)).loader = sinksUp.loader := by simp [watched, piped]
  unfold SinkRefs
  rw [probesFrame.sinks, sinks]
  exact ⟨added.1, fun s member => Nat.lt_of_lt_of_le (loader ▸ added.2 s member) probesFrame.nextRef⟩

theorem kept_began (began : Began w) : Kept w := by
  obtain ⟨threads, ⟨config, configPath, env, up, rfl⟩, rfl⟩ := began
  have refs := sink_refs_start up
  exact
    { listed := fun s member => member
      once := List.Nodup.of_map _ refs.1
      refs := refs.1
      below := refs.2
      counted := fun s _ => rfl
      known := nofun
      report := nofun }

/-- At the end of every run, the reported total is what all instances that ever
ran have dropped exactly when none had dropped anything that a reload took
down. -/
theorem drops_visible_iff (w : Watched) (report : ShutdownReport) (lived : Runs Began Watched.step Anything w)
    (reported : w.run.stage = .reported report) :
    report.droppedBatches = totalDropped w ↔ RemovedDroppedNone w := by
  have kept : Kept w := lived.invariant (fun w began => kept_began began) fun w a w' kept _ ran => kept_step kept ran
  have listed : listedDropped w.run.threads = (w.run.threads.daemon.sinks.map fun s => w.drops.count s).sum := by
    refine congrArg List.sum (List.map_congr_left fun s member => ?_)
    exact (kept.counted s (kept.listed s member)).symm
  have total : totalDropped w = w.drops.length :=
    (sum_counts_eq_length_iff (List.Nodup.of_map _ kept.refs)).mpr kept.known
  rw [kept.report report reported, listed, total, sum_counts_eq_length_iff kept.once]
  constructor
  · exact fun allListed s _ gone named => gone (allListed s named)
  · intro none s named
    by_contra gone
    exact none s (kept.known s named) gone named

/-! ### The end of `run` is `shutdown` up to the destructors -/

/-- The flushes that are still to come. -/
def toFlush : RunStage → List SinkRef
  | .flushing sinks => sinks
  | .waiting sink _ sinks => sink :: sinks
  | .looping | .reported _ => []

/-- The trace with them. -/
def flushedTrace (run : Run) : List Event := run.threads.daemon.trace ++ (toFlush run.stage).map .flushed

/-- What the destructors put into the trace. -/
def destructors (d : Daemon) : List Event :=
  (if d.cgroupWatcher then [.detached .watcher] else []) ++ d.probes.map (.detached ·.ptr) ++
    d.probes.map (.destroyed ·.home) ++ d.sinks.map (.destroyed ·.home)

/-- Once the loop is left, the flushes are worked off one after the other. -/
def WindsDown (run run' : Run) : Prop :=
  run.stage ≠ .looping → run'.stage ≠ .looping ∧ flushedTrace run' = flushedTrace run

theorem WindsDown.trans {first second third : Run} (earlier : WindsDown first second)
    (later : WindsDown second third) : WindsDown first third := by
  intro left
  obtain ⟨past, same⟩ := earlier left
  exact ⟨(later past).1, (later past).2.trans same⟩

theorem winds_down_step {run run' : Run} {a : RunStep} (ran : run.step a = some run') : WindsDown run run' := by
  intro left
  cases progress_of_step ran with
  | thread may stepped =>
    refine ⟨left, ?_⟩
    cases stepped with
    | worker _ _ _ => rfl
    | emit _ _ _ | tick _ _ _ | reload _ _ _ | proceed _ =>
      cases stage : run.stage with
      | looping => exact absurd stage left
      | flushing _ | waiting _ _ _ | reported _ =>
        rw [stage] at may
        cases may
  | leave looping _ => exact absurd looping left
  | flush stage => exact ⟨nofun, by simp only [flushedTrace, toFlush, stage]⟩
  | pass stage _ flushed => exact ⟨nofun, by simp [flushedTrace, toFlush, stage, flushed]⟩
  | report stage _ => exact ⟨nofun, by simp only [flushedTrace, toFlush, stage]⟩

theorem leave_trace {now : Int64} {sinks : List SinkRef} (left : Run.leave t now = some (t', sinks)) :
    (t.daemon.shutdown now).trace = t'.daemon.trace ++ sinks.map .flushed ++ destructors t.daemon := by
  obtain ⟨pipeline, flushed, shipments, there, ships, delivered⟩ := leave_some left
  obtain ⟨-, daemon⟩ := deliver_frame _ delivered
  simp [Daemon.shutdown, there, ships, daemon, destructors]

/-- What the daemon has done when it reports is what `shutdown` has done in one
go before the destructors run, whenever the workers take their steps. -/
theorem ends_as_shutdown {now : Int64} {left ended : Run} {steps : List RunStep} {report : ShutdownReport}
    (leaves : Run.step { threads := t } (.leave now) = some left) (ran : steps.foldlM Run.step left = some ended)
    (reported : ended.stage = .reported report) :
    (t.daemon.shutdown now).trace = ended.threads.daemon.trace ++ destructors t.daemon := by
  obtain ⟨⟨threads, sinks⟩, way, rfl⟩ := Option.map_eq_some_iff.mp leaves
  have worked := steps_related (R := WindsDown) (fun _ left => ⟨left, rfl⟩) WindsDown.trans steps
    (fun _ _ _ _ stepped => winds_down_step stepped) ran
  have same := (worked nofun).2
  simp only [flushedTrace, toFlush, reported, List.map_nil, List.append_nil] at same
  rw [leave_trace way, same]

/-! ### A loss taken down -/

def httpUp : LoadedSink := ⟨ascii "http", ⟨ascii "plugins/sinks/libst_sink_http.so", 0⟩, .http toCollector⟩

/-- Both posts of the one batch fail. Then the file is read again without the
http sink, and the daemon is stopped. -/
def lossTakenDown : List RunStep :=
  [.thread (.emit (.instance (ascii "oom")) 0 .notFound {}), .thread (.worker httpUp .pop),
    .thread (.worker httpUp (.attempt false)), .thread (.worker httpUp (.attempt false)),
    .thread (.worker httpUp .finish), .thread (.reload allSucceed onlyNull), .thread .proceed, .thread .proceed,
    .thread (.worker httpUp .exit), .thread .proceed, .thread .proceed, .thread .proceed, .thread .proceed,
    .thread .proceed, .leave 0, .flush, .pass, .report]

/-- What is left of it at the end. -/
def afterLoss : Option Watched :=
  lossTakenDown.foldlM Watched.step { run := { threads := bothUp }, ran := bothUp.daemon.sinks }

private theorem loss_lived : Runs Began Watched.step Anything (afterLoss.get (by decide)) :=
  Runs.steps (.start ⟨bothUp, both_came, rfl⟩) lossTakenDown (Option.some_get _).symm

theorem drops_visible_after_loss :
    0 = totalDropped (afterLoss.get (by decide)) ↔ RemovedDroppedNone (afterLoss.get (by decide)) :=
  drops_visible_iff _ ⟨1, some { misses := 1, rescans := 1 }, 0⟩ loss_lived rfl

/-- The report says that nothing was dropped. -/
theorem loss_unreported :
    ¬ ∀ w report, Runs Began Watched.step Anything w → w.run.stage = .reported report →
      report.droppedBatches = totalDropped w := by
  intro visible
  have same := visible _ ⟨1, some { misses := 1, rescans := 1 }, 0⟩ loss_lived rfl
  exact absurd same (by decide)

end SlurmTracer.DropTotals
