import Mathlib.Data.List.ReduceOption
import SlurmTracer.SampleDispatch

/-!
Which configuration is in force. However many files a run reads, whatever was
rejected in between and whatever failed to load, the daemon goes by the last file
that differs from start-up in nothing but components, and nothing runs that this
file does not ask for (`last_accepted_in_force`).
-/
namespace SlurmTracer.ConfigInForce
open SlurmTracer.Core Lib Core.Daemon DaemonProofs DaemonRuns ReloadDiff LoopSignals SampleDispatch

instance (base next : Config) : Decidable (Differ base next) := inferInstanceAs (Decidable (_ ∨ _))

/-- The last of the files read that agrees with start-up in all that needs a
restart. -/
def lastAccepted (base : Config) (read : List (Option Config)) : Option Config :=
  (read.reduceOption.filter (¬ Differ base ·)).getLast?

/-- The configuration of start-up with the components of that file. -/
def inForce (base : Config) (read : List (Option Config)) : Config :=
  match lastAccepted base read with
  | none => base
  | some next => { base with sinks := next.sinks, probes := next.probes }

/-- What the loop read for its reloads, in order. -/
def filesRead (actions : List LoopStep) : List (Option Config) := actions.filterMap fun
  | .reload _ loaded => some loaded
  | _ => none

/-- The daemon goes by `config`, and everything it runs is of that
configuration: under an id of it, once, from the plugin it names. -/
structure GoesBy (config : Config) (d : Daemon) : Prop where
  committed : d.config = config
  sinks : ∀ s ∈ d.sinks, ∃ settings, config.sinks[s.id]? = some settings ∧
    s.home.path = pluginPath config.pluginDir (ascii "sink") (pluginOf s.id settings)
  probes : ∀ p ∈ d.probes, ∃ settings, config.probes[p.id]? = some settings ∧
    p.home.path = pluginPath config.pluginDir (ascii "probe") (pluginOf p.id settings)
  once : (d.sinks.map LoadedSink.id).Nodup ∧ (d.probes.map LoadedProbe.id).Nodup

variable {base next : Config} {read : List (Option Config)} {d : Daemon}

/-! ### One more file -/

/-- Taking over another file's components changes no setting of the others. -/
theorem differ_in_force (base : Config) (read : List (Option Config)) (next : Config) :
    Differ (inForce base read) next ↔ Differ base next := by
  unfold inForce
  split <;> exact Iff.rfl

theorem last_accepted_snoc (base : Config) (read : List (Option Config)) (loaded : Option Config) :
    lastAccepted base (read ++ [loaded]) =
      match loaded with
      | none => lastAccepted base read
      | some next => if Differ base next then lastAccepted base read else some next := by
  cases loaded with
  | none => simp [lastAccepted, List.reduceOption_append]
  | some next =>
    by_cases differs : Differ base next <;> simp [lastAccepted, List.reduceOption_append, differs]

/-- A file takes over exactly when it agrees with start-up. -/
theorem reload_config (named : d.configPath ≠ []) (held : d.config = inForce base read) (o : Outcomes)
    (loaded : Option Config) : (d.reloadConfig o loaded).config = inForce base (read ++ [loaded]) := by
  have refuses : ∀ next, diffForReload d.config next = none ↔ Differ base next := by
    intro next
    rw [diff_for_reload_none, held, differ_in_force]
  have unchanged : lastAccepted base (read ++ [loaded]) = lastAccepted base read →
      inForce base (read ++ [loaded]) = d.config := by
    intro same
    rw [inForce, same, held, inForce]
  cases loaded with
  | none =>
    rw [unchanged (last_accepted_snoc base read none)]
    simp only [reloadConfig, if_neg named]
  | some next =>
    have last := last_accepted_snoc base read (some next)
    by_cases differs : Differ base next
    · rw [unchanged (last.trans (if_pos differs))]
      simp only [reloadConfig, if_neg named, (refuses next).mpr differs]
    · rw [reload_accepted named (mt (refuses next).mp differs), inForce, last]
      simp only [if_neg differs, held, inForce]
      split <;> rfl

/-- A daemon that was given no file keeps what it has. -/
theorem reload_unnamed (unnamed : d.configPath = []) (o : Outcomes) (loaded : Option Config) :
    d.reloadConfig o loaded = d := by
  simp only [reloadConfig, if_pos unnamed]

theorem reload_places (d : Daemon) (o : Outcomes) (loaded : Option Config) :
    (d.reloadConfig o loaded).configPath = d.configPath ∧
      (d.reloadConfig o loaded).loader.pluginDir = d.loader.pluginDir := by
  by_cases unnamed : d.configPath = []
  · rw [reload_unnamed unnamed]
    exact ⟨rfl, rfl⟩
  cases loaded with
  | none => simp only [reloadConfig, if_neg unnamed, and_self]
  | some next =>
    by_cases refused : diffForReload d.config next = none
    · simp only [reloadConfig, if_neg unnamed, refused, and_self]
    · rw [reload_accepted unnamed refused]
      have same := (probe_phase_frame (sinkPhase d o next) o next).settings.trans (sink_phase_frame d o next).settings
      exact ⟨congrArg Settings.configPath same, congrArg Settings.pluginDir same⟩

/-! ### Runs -/

/-- What the daemon goes by, and where it looks. -/
structure Committed (base : Config) (configPath : Bytes) (read : List (Option Config)) (d : Daemon) : Prop where
  config : d.config = if configPath = [] then base else inForce base read
  configPath : d.configPath = configPath
  pluginDir : d.loader.pluginDir = base.pluginDir

variable {configPath : Bytes}

theorem committed_start {env : StartOutcomes} (up : (start (.new base configPath) env).1 = true) :
    Committed base configPath [] (start (.new base configPath) env).2 := by
  obtain ⟨resolver, -, -, result, -⟩ := start_true up
  rw [result]
  have sinks := (start_sinks_loop { Daemon.new base configPath with resolver := some resolver }
    env.toOutcomes).1.settings
  generalize startSinks { Daemon.new base configPath with resolver := some resolver } env.toOutcomes = sinksUp at *
  have probes := (start_probes_loop (watched (piped sinksUp env.now)) env.toOutcomes).1.settings
  have middle : (watched (piped sinksUp env.now)).config = sinksUp.config ∧
      (watched (piped sinksUp env.now)).configPath = sinksUp.configPath ∧
      (watched (piped sinksUp env.now)).loader = sinksUp.loader := by
    simp [watched, piped]
  refine ⟨?_, ?_, ?_⟩
  · rw [config_eq probes, middle.1, config_eq sinks]
    split <;> rfl
  · exact (congrArg Settings.configPath probes).trans (middle.2.1.trans (congrArg Settings.configPath sinks))
  · rw [dir_eq probes, middle.2.2, dir_eq sinks]
    rfl

variable {plugins : Plugins}

/-- A sample is a matter of the resolver and the pipeline. -/
theorem sample_effect {ctx : Nat} {data : Bytes} {bootOffsetNs : UInt64} {passwd : PasswdReply} {d' : Daemon}
    (called : d.onSample plugins ctx data bootOffsetNs passwd = some d') :
    ∃ pipeline resolver trace, d' = { d with pipeline, resolver, trace } := by
  unfold onSample at called
  split at called
  · cases called
  · split at called
    · split at called <;> cases called
      exact ⟨_, _, _, rfl⟩
    · split at called
      · cases called
      · split at called <;> cases called
        · exact ⟨_, _, _, rfl⟩
        · obtain ⟨pipeline, resolver, shipments, is⟩ := emit_effect d _ bootOffsetNs passwd _
          exact ⟨_, _, _, is⟩

/-- Only what touches none of its settings comes between two files. -/
theorem committed_settings {d' : Daemon} (held : Committed base configPath read d) (same : settings d' = settings d) :
    Committed base configPath read d' where
  config := (config_eq same).trans held.config
  configPath := (congrArg Settings.configPath same).trans held.configPath
  pluginDir := (dir_eq same).trans held.pluginDir

theorem committed_reload (held : Committed base configPath read d) (o : Outcomes) (loaded : Option Config) :
    Committed base configPath (read ++ [loaded]) (d.reloadConfig o loaded) := by
  obtain ⟨path, dir⟩ := reload_places d o loaded
  refine ⟨?_, path.trans held.configPath, dir.trans held.pluginDir⟩
  have config := held.config
  by_cases unnamed : configPath = []
  · rw [if_pos unnamed] at config ⊢
    rw [reload_unnamed (held.configPath.trans unnamed), config]
  · rw [if_neg unnamed] at config ⊢
    exact reload_config (by rwa [held.configPath]) config o loaded

theorem committed_step {m m' : MainLoop} {a : LoopStep} (held : Committed base configPath read m.daemon)
    (ran : m.step plugins a = some m') : Committed base configPath (read ++ filesRead [a]) m'.daemon := by
  cases turned_of_step ran with
  | sample _ _ called =>
    obtain ⟨pipeline, resolver, trace, is⟩ := sample_effect called
    have still : Committed base configPath read { m.daemon with pipeline, resolver, trace } := committed_settings held rfl
    rw [is]
    simpa [filesRead] using still
  | @ticked monotonicNs now _ =>
    obtain ⟨pipeline, resolver, shipments, is⟩ := tick_effect m.daemon monotonicNs now
    have still : Committed base configPath read (m.daemon.tick monotonicNs now) := by
      rw [is]
      exact committed_settings held rfl
    simpa [filesRead] using still
  | @reloaded o loaded _ => exact committed_reload held o loaded
  | _ => simpa [filesRead] using held

theorem committed_run (actions : List LoopStep) {m m' : MainLoop} (held : Committed base configPath read m.daemon)
    (ran : actions.foldlM (MainLoop.step plugins) m = some m') :
    Committed base configPath (read ++ filesRead actions) m'.daemon := by
  induction actions generalizing m read with
  | nil =>
    cases ran
    simpa [filesRead] using held
  | cons a actions ih =>
    rw [List.foldlM_cons, Option.bind_eq_bind, Option.bind_eq_some_iff] at ran
    obtain ⟨mid, first, rest⟩ := ran
    have later := ih (committed_step held first) rest
    rw [List.append_assoc] at later
    rwa [filesRead, ← List.singleton_append, List.filterMap_append]

theorem goes_by (running : Running d) {config : Config} (committed : d.config = config)
    (dir : d.loader.pluginDir = config.pluginDir) : GoesBy config d := by
  subst committed
  obtain ⟨sinks, probes, -⟩ := running.sound.settled
  rw [dir] at sinks probes
  refine ⟨rfl, fun s present => ?_, fun p present => ?_, unique_ids sinks, unique_probe_ids probes⟩
  · obtain ⟨settings, asked, path⟩ := asked_of_tracks sinks (List.mem_map_of_mem present)
    exact ⟨settings, asked, path.symm⟩
  · obtain ⟨settings, asked, path⟩ := asked_of_tracks probes (List.mem_map_of_mem present)
    exact ⟨settings, asked, path.symm⟩

theorem in_force_dir (base : Config) (read : List (Option Config)) :
    (inForce base read).pluginDir = base.pluginDir := by
  unfold inForce
  split <;> rfl

/-- Whatever a run was sent to read: it goes by the last file that it could take
over, merged into its own start-up, and runs nothing that this does not ask
for. -/
theorem last_accepted_in_force (plugins : Plugins) (config : Config) (configPath : Bytes) (env : StartOutcomes)
    (up : (start (.new config configPath) env).1 = true) (flags : Flags) (actions : List LoopStep) (m : MainLoop)
    (ran : actions.foldlM (MainLoop.step plugins) (.run (start (.new config configPath) env).2 flags) = some m) :
    GoesBy (if configPath = [] then config else inForce config (filesRead actions)) m.daemon := by
  have committed := committed_run actions (by exact committed_start up) ran
  rw [List.nil_append] at committed
  refine goes_by (running_run actions (by exact running_start up) ran) committed.config ?_
  rw [committed.pluginDir]
  split
  · rfl
  · exact (in_force_dir config _).symm

/-- A file that drops a probe, taken over in a turn of its own. -/
theorem last_accepted_in_force_after_reload :
    GoesBy (if ascii "slurm-tracer.json" = [] then ZombieFreedom.twoProbes
        else inForce ZombieFreedom.twoProbes [some ZombieFreedom.withoutOom])
      (((start (.new ZombieFreedom.twoProbes (ascii "slurm-tracer.json")) allUp).2.tick 0 0).reloadConfig
        allSucceed (some ZombieFreedom.withoutOom)) :=
  last_accepted_in_force (fun _ _ => none) ZombieFreedom.twoProbes (ascii "slurm-tracer.json") allUp (by decide) {} _ _
    (reload_turn _ _ allSucceed (some ZombieFreedom.withoutOom))

end SlurmTracer.ConfigInForce
