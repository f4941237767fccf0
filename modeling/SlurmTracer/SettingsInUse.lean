import SlurmTracer.Core.Plugins
import SlurmTracer.ConfigInForce
import SlurmTracer.EndpointGrammar
import SlurmTracer.Lib.Stretch

/-!
Which sinks run, and with which settings. A reload compares what two files name,
not what they set: a sink runs with the settings of the first of the files that
have asked for it since, from the plugin it has, whatever later ones set. These
settings alone say whether it runs at all (`settings_in_use`).
-/
namespace SlurmTracer.SettingsInUse
open SlurmTracer.Core Lib Core.Daemon DaemonProofs DaemonRuns ReloadDiff LoopSignals SampleDispatch ConfigInForce
open Lib.Stretch Lib.Reconcile

/-- The plugin a file asks for under an id. -/
def pluginIn (components : Components) (id : Bytes) : Option Bytes := components[id]?.map (pluginOf id)

/-- The settings an instance has in the file that its stretch of files with the
same plugin began with. -/
def InUse (history : List Components) (id : Bytes) (settings : ComponentConfig) : Prop :=
  ∃ first, Began (pluginIn · id = some (pluginOf id settings)) history first ∧ first[id]? = some settings

/-- What comes of settings with the plugin files there are. -/
def builds (files : Bytes → Option (PluginFile SinkKind)) (dir id : Bytes) (settings : ComponentConfig) :
    PluginOutcome SinkKind :=
  pluginOutcome (files (pluginPath dir (ascii "sink") (pluginOf id settings))) (pluginOf id settings) settings

/-- Loading a sink goes as these plugin files have it. -/
def Installed (files : Bytes → Option (PluginFile SinkKind)) (dir : Bytes) (o : Outcomes) (asked : Components) : Prop :=
  ∀ id settings, asked[id]? = some settings → o.sink id = builds files dir id settings

/-- What runs in `sinks_`. -/
def kinds (d : Daemon) : List (Bytes × SinkKind) := d.sinks.map fun s => (s.id, s.kind)

/-- The configurations a daemon has had, start-up's first. -/
def history (base : Config) (configPath : Bytes) (read : List (Option Config)) : List Components :=
  base.sinks :: if configPath = [] then [] else (read.reduceOption.filter (¬ Differ base ·)).map Config.sinks

/-- The sinks that run are those that their settings in use make a sink of. -/
structure Determined (files : Bytes → Option (PluginFile SinkKind)) (dir : Bytes) (history : List Components)
    (d : Daemon) : Prop where
  sinks : ∀ id kind, (id, kind) ∈ kinds d ↔
    ∃ settings, InUse history id settings ∧ builds files dir id settings = .built kind
  once : (d.sinks.map LoadedSink.id).Nodup

variable {files : Bytes → Option (PluginFile SinkKind)} {dir : Bytes} {d : Daemon} {past : List Components}

/-! ### Settings in use -/

theorem in_use_start (base : Components) (id : Bytes) (settings : ComponentConfig) :
    InUse [base] id settings ↔ base[id]? = some settings := by
  constructor
  · rintro ⟨first, ⟨before, after, is, -⟩, asked⟩
    cases before with
    | nil =>
      cases is
      exact asked
    | cons _ before => simp at is
  · intro asked
    exact ⟨base, ⟨[], [], rfl, by simp [pluginIn, asked], nofun, by simp [EndsWith]⟩, asked⟩

/-- One more file keeps what is in use, unless it asks for another plugin than
the last one did. -/
theorem in_use_snoc {current : Components} (last : past.getLast? = some current) (next : Components) (id : Bytes)
    (settings : ComponentConfig) : InUse (past ++ [next]) id settings ↔
      pluginIn next id = some (pluginOf id settings) ∧
        (InUse past id settings ∨ next[id]? = some settings ∧ pluginIn current id ≠ some (pluginOf id settings)) := by
  have ends : EndsWith (pluginIn · id = some (pluginOf id settings)) past ↔
      pluginIn current id = some (pluginOf id settings) := by simp [EndsWith, last]
  constructor
  · rintro ⟨first, began, asked⟩
    obtain ⟨same, old | ⟨rfl, new⟩⟩ := began_snoc.mp began
    · exact ⟨same, .inl ⟨first, old, asked⟩⟩
    · exact ⟨same, .inr ⟨asked, mt ends.mpr new⟩⟩
  · rintro ⟨same, ⟨first, began, asked⟩ | ⟨asked, new⟩⟩
    · exact ⟨first, began_snoc.mpr ⟨same, .inl began⟩, asked⟩
    · exact ⟨next, began_snoc.mpr ⟨same, .inr ⟨rfl, mt ends.mp new⟩⟩, asked⟩

/-- What is in use is of the plugin that the last file asks for. -/
theorem InUse.plugin {current : Components} {id : Bytes} {settings : ComponentConfig} (last : past.getLast? = some current)
    (used : InUse past id settings) : pluginIn current id = some (pluginOf id settings) := by
  obtain ⟨first, began, -⟩ := used
  obtain ⟨ending, there, agrees⟩ := began.ends_with
  cases there.symm.trans last
  exact agrees

/-! ### The sink half of a reload -/

theorem kinds_add_sink (d : Daemon) (o : Outcomes) (id : Bytes) (config : ComponentConfig) (x : Bytes × SinkKind) :
    x ∈ kinds (d.addSink o id config) ↔ x ∈ kinds d ∨ x.1 = id ∧ o.sink id = .built x.2 := by
  rw [kinds, add_sink_sinks, builtSink, List.map_append, List.mem_append, ← kinds]
  refine or_congr_right ?_
  cases o.sink id with
  | built kind => simp [Prod.ext_iff, eq_comm]
  | _ => simp

theorem kinds_add_sinks (next : Config) (o : Outcomes) (ids : List Bytes) (d : Daemon)
    (asked : ∀ id ∈ ids, ∃ settings, next.sinks[id]? = some settings) (x : Bytes × SinkKind) :
    x ∈ kinds (ids.foldl (addSinkFrom next o) d) ↔ x ∈ kinds d ∨ x.1 ∈ ids ∧ o.sink x.1 = .built x.2 := by
  induction ids generalizing d with
  | nil => simp
  | cons id ids ih =>
    obtain ⟨⟨settings, there⟩, later⟩ := List.forall_mem_cons.mp asked
    rw [List.foldl_cons, ih _ later, addSinkFrom, there, kinds_add_sink, or_assoc, List.mem_cons, or_and_right]
    refine or_congr_right (or_congr_left (and_congr_right ?_))
    rintro rfl
    rfl

theorem kinds_sink_phase {o : Outcomes} {next : Config} (unique : (d.sinks.map LoadedSink.id).Nodup)
    (x : Bytes × SinkKind) : x ∈ kinds (sinkPhase d o next) ↔
      x ∈ kinds d ∧ x.1 ∉ diffLoop d.config.sinks next.sinks ∨
        x.1 ∈ diffLoop next.sinks d.config.sinks ∧ o.sink x.1 = .built x.2 := by
  have left : x ∈ kinds ((diffLoop d.config.sinks next.sinks).foldl removeSink d) ↔
      x ∈ kinds d ∧ x.1 ∉ diffLoop d.config.sinks next.sinks := by
    simp only [kinds, List.mem_map, (remove_sinks_loop _ unique).2.2]
    constructor
    · rintro ⟨s, ⟨present, spared⟩, rfl⟩
      exact ⟨⟨s, present, rfl⟩, spared⟩
    · rintro ⟨⟨s, present, rfl⟩, spared⟩
      exact ⟨s, ⟨present, spared⟩, rfl⟩
  rw [sinkPhase, kinds_add_sinks next o _ _ fun _ named => diff_loop_asked named, left]

/-- The two loops of `diff_components`, by what either file asks for. -/
theorem mem_diff (these others : Components) (id : Bytes) :
    id ∈ diffLoop these others ↔ pluginIn these id ≠ none ∧ pluginIn others id ≠ pluginIn these id := by
  rw [mem_diff_loop]
  unfold pluginIn
  cases these[id]? with
  | none => simp
  | some config =>
    cases others[id]? with
    | none => simp
    | some other => simp [eq_comm]

/-- A reload leaves the sinks determined by the files up to it. -/
theorem determined_sink_phase {o : Outcomes} {next : Config} (held : Determined files dir past d)
    (last : past.getLast? = some d.config.sinks) (installed : Installed files dir o next.sinks) (id : Bytes)
    (kind : SinkKind) : (id, kind) ∈ kinds (sinkPhase d o next) ↔
      ∃ settings, InUse (past ++ [next.sinks]) id settings ∧ builds files dir id settings = .built kind := by
  simp only [kinds_sink_phase held.once, mem_diff, held.sinks, in_use_snoc last]
  by_cases same : pluginIn next.sinks id = pluginIn d.config.sinks id
  · -- in neither list: what was in use stays
    have kept : ∀ settings, InUse past id settings → pluginIn next.sinks id = some (pluginOf id settings) :=
      fun settings used => same.trans (used.plugin last)
    constructor
    · rintro (⟨⟨settings, used, built⟩, -⟩ | ⟨⟨-, other⟩, -⟩)
      · exact ⟨settings, ⟨kept settings used, .inl used⟩, built⟩
      · exact absurd same.symm other
    · rintro ⟨settings, ⟨asked, used | ⟨-, new⟩⟩, built⟩
      · exact .inl ⟨⟨settings, used, built⟩, fun removed => removed.2 same⟩
      · exact absurd (same.symm.trans asked) new
  · constructor
    · rintro (⟨⟨settings, used, -⟩, spared⟩ | ⟨⟨asked, -⟩, built⟩)
      · exact absurd ⟨by simp [used.plugin last], same⟩ spared
      · obtain ⟨settings, there⟩ : ∃ settings, next.sinks[id]? = some settings := by
          unfold pluginIn at asked
          exact Option.ne_none_iff_exists'.mp (fun none => asked (by rw [none]; rfl))
        rw [installed id settings there] at built
        have names : pluginIn next.sinks id = some (pluginOf id settings) := by rw [pluginIn, there]; rfl
        exact ⟨settings, ⟨names, .inr ⟨there, fun old => same (names.trans old.symm)⟩⟩, built⟩
    · rintro ⟨settings, ⟨asked, used | ⟨there, -⟩⟩, built⟩
      · exact absurd (asked.trans (used.plugin last).symm) same
      · refine .inr ⟨⟨by simp [asked], fun old => same old.symm⟩, ?_⟩
        rw [installed id settings there]
        exact built

/-! ### Start-up -/

theorem kinds_add_all (o : Outcomes) (entries : List (Bytes × ComponentConfig)) (d : Daemon) (x : Bytes × SinkKind) :
    x ∈ kinds (entries.foldl (fun d entry => d.addSink o entry.1 entry.2) d) ↔
      x ∈ kinds d ∨ x.1 ∈ entries.map Prod.fst ∧ o.sink x.1 = .built x.2 := by
  induction entries generalizing d with
  | nil => simp
  | cons entry entries ih =>
    rw [List.foldl_cons, ih, kinds_add_sink, or_assoc, List.map_cons, List.mem_cons, or_and_right]
    refine or_congr_right (or_congr_left (and_congr_right ?_))
    rintro same
    rw [same]

theorem determined_start {config : Config} {configPath : Bytes} {env : StartOutcomes}
    (up : (start (.new config configPath) env).1 = true)
    (installed : Installed files config.pluginDir env.toOutcomes config.sinks) :
    Determined files config.pluginDir [config.sinks] (start (.new config configPath) env).2 := by
  have once := unique_ids (Running.sound (running_start up)).settled.sinks
  refine ⟨fun id kind => ?_, once⟩
  obtain ⟨resolver, -, -, result, -⟩ := start_true up
  have brought : kinds (start (.new config configPath) env).2 =
      kinds (startSinks { Daemon.new config configPath with resolver := some resolver } env.toOutcomes) := by
    rw [result, kinds, (start_probes_loop _ _).1.sinks]
    simp [watched, piped, kinds]
  rw [brought, startSinks, kinds_add_all]
  simp only [in_use_start]
  constructor
  · rintro (none | ⟨named, built⟩)
    · simp [kinds, Daemon.new] at none
    · obtain ⟨entry, member, rfl⟩ := List.mem_map.mp named
      have there := Std.TreeMap.mem_toList_iff_getElem?_eq_some.mp member
      rw [installed _ _ there] at built
      exact ⟨entry.2, there, built⟩
  · rintro ⟨settings, there, built⟩
    have member := Std.TreeMap.mem_toList_iff_getElem?_eq_some.mpr there
    refine .inr ⟨List.mem_map.mpr ⟨_, member, rfl⟩, ?_⟩
    rw [installed id settings there]
    exact built

/-! ### Runs -/

variable {base : Config} {configPath : Bytes} {read : List (Option Config)}

theorem history_last (base : Config) (configPath : Bytes) (read : List (Option Config)) :
    (history base configPath read).getLast? =
      some (if configPath = [] then base else inForce base read).sinks := by
  unfold history inForce lastAccepted
  split
  · rfl
  · generalize read.reduceOption.filter (¬ Differ base ·) = taken
    rw [List.getLast?_cons, List.getLast?_map]
    cases taken.getLast? <;> rfl

theorem history_snoc (base : Config) (configPath : Bytes) (read : List (Option Config)) (loaded : Option Config) :
    history base configPath (read ++ [loaded]) = history base configPath read ++
      (match loaded with
      | none => []
      | some next => if configPath = [] ∨ Differ base next then [] else [next.sinks]) := by
  unfold history
  cases loaded with
  | none => simp [List.reduceOption_append]
  | some next =>
    by_cases unnamed : configPath = []
    · simp [unnamed]
    · by_cases differs : Differ base next <;> simp [unnamed, differs, List.reduceOption_append]

/-- What a run keeps. -/
structure Held (files : Bytes → Option (PluginFile SinkKind)) (base : Config) (configPath : Bytes)
    (read : List (Option Config)) (d : Daemon) : Prop where
  running : Running d
  committed : Committed base configPath read d
  determined : Determined files base.pluginDir (history base configPath read) d

theorem determined_of_same {d' : Daemon} (held : Determined files dir past d) (same : d'.sinks = d.sinks) :
    Determined files dir past d' where
  sinks := by
    rw [kinds, same]
    exact held.sinks
  once := by
    rw [same]
    exact held.once

theorem determined_reload (held : Held files base configPath read d) (o : Outcomes) (loaded : Option Config)
    (installed : ∀ next, loaded = some next → Installed files base.pluginDir o next.sinks)
    (running : Running (d.reloadConfig o loaded)) :
    Determined files base.pluginDir (history base configPath (read ++ [loaded])) (d.reloadConfig o loaded) := by
  have config := held.committed.config
  have last := history_last base configPath read
  rw [← config] at last
  rw [history_snoc]
  by_cases unnamed : configPath = []
  · rw [reload_unnamed (held.committed.configPath.trans unnamed)]
    cases loaded <;> simpa [unnamed] using held.determined
  have named : d.configPath ≠ [] := by rwa [held.committed.configPath]
  rw [if_neg unnamed] at config
  cases loaded with
  | none =>
    simp only [reloadConfig, if_neg named, List.append_nil]
    exact held.determined
  | some next =>
    have refused : diffForReload d.config next = none ↔ Differ base next := by
      rw [diff_for_reload_none, config, differ_in_force]
    by_cases differs : Differ base next
    · simp only [reloadConfig, if_neg named, refused.mpr differs, differs, or_true, if_true, List.append_nil]
      exact held.determined
    · have accepted := reload_accepted (o := o) named (mt refused.mp differs)
      refine ⟨fun id kind => ?_, unique_ids running.sound.settled.sinks⟩
      have kept : kinds (d.reloadConfig o (some next)) = kinds (sinkPhase d o next) := by
        rw [accepted, kinds, (probe_phase_frame (sinkPhase d o next) o next).sinks, ← kinds]
      rw [kept, determined_sink_phase held.determined last (installed next rfl)]
      simp only [unnamed, differs, or_self, if_false]

variable {plugins : Plugins}

/-- Only a reload touches `sinks_`. -/
theorem held_step {m m' : MainLoop} {a : LoopStep} (held : Held files base configPath read m.daemon)
    (installed : ∀ o next, a = .reload o (some next) → Installed files base.pluginDir o next.sinks)
    (ran : m.step plugins a = some m') : Held files base configPath (read ++ filesRead [a]) m'.daemon := by
  have running := running_step held.running ran
  refine ⟨running, committed_step held.committed ran, ?_⟩
  have determined := held.determined
  cases turned_of_step ran with
  | sample _ _ called =>
    obtain ⟨pipeline, resolver, trace, is⟩ := sample_effect called
    have still : Determined files base.pluginDir (history base configPath read)
        { m.daemon with pipeline, resolver, trace } := determined_of_same determined rfl
    rw [is]
    simpa [filesRead] using still
  | @ticked monotonicNs now _ =>
    obtain ⟨pipeline, resolver, shipments, is⟩ := tick_effect m.daemon monotonicNs now
    have still : Determined files base.pluginDir (history base configPath read) (m.daemon.tick monotonicNs now) := by
      rw [is]
      exact determined_of_same determined rfl
    simpa [filesRead] using still
  | @reloaded o loaded _ =>
    refine determined_reload held o loaded (fun next is => installed o next ?_) running
    rw [is]
  | _ => simpa [filesRead] using determined

theorem held_run (actions : List LoopStep) {m m' : MainLoop} (held : Held files base configPath read m.daemon)
    (installed : ∀ o next, .reload o (some next) ∈ actions → Installed files base.pluginDir o next.sinks)
    (ran : actions.foldlM (MainLoop.step plugins) m = some m') :
    Held files base configPath (read ++ filesRead actions) m'.daemon := by
  induction actions generalizing m read with
  | nil =>
    cases ran
    simpa [filesRead] using held
  | cons a actions ih =>
    rw [List.foldlM_cons, Option.bind_eq_bind, Option.bind_eq_some_iff] at ran
    obtain ⟨mid, first, rest⟩ := ran
    have here := held_step held (fun o next is => installed o next (by simp [is])) first
    have later := ih here (fun o next member => installed o next (List.mem_cons_of_mem _ member)) rest
    rw [List.append_assoc] at later
    rwa [filesRead, ← List.singleton_append, List.filterMap_append]

theorem held_start {env : StartOutcomes} (up : (start (.new base configPath) env).1 = true)
    (installed : Installed files base.pluginDir env.toOutcomes base.sinks) :
    Held files base configPath [] (start (.new base configPath) env).2 := by
  refine ⟨running_start up, committed_start up, ?_⟩
  have start := determined_start up installed
  unfold history
  split <;> simpa [List.reduceOption] using start

/-- Over every run in which the plugin files stay what they are: the sinks that run are those made of the settings that
their id had in the first file since which every file asked for it from the same plugin. -/
theorem settings_in_use (plugins : Plugins) (files : Bytes → Option (PluginFile SinkKind)) (config : Config)
    (configPath : Bytes) (env : StartOutcomes) (up : (start (.new config configPath) env).1 = true)
    (installed : Installed files config.pluginDir env.toOutcomes config.sinks) (flags : Flags)
    (actions : List LoopStep) (m : MainLoop)
    (stable : ∀ o next, .reload o (some next) ∈ actions → Installed files config.pluginDir o next.sinks)
    (ran : actions.foldlM (MainLoop.step plugins) (.run (start (.new config configPath) env).2 flags) = some m) :
    Determined files config.pluginDir (history config configPath (filesRead actions)) m.daemon :=
  (held_run actions (by exact held_start up installed) stable ran).determined

/-- A sink of `http` and a probe. -/
def posting (endpoint timeout : String) : Config where
  pluginDir := ascii "plugins"
  sinks := .ofList [(ascii "out", (((ComponentConfig.mk ∅).set (ascii "plugin") (ascii "http")).set
    (ascii "endpoint") (ascii endpoint)).set (ascii "timeout") (ascii timeout))]
  probes := .ofList [(ascii "oom", ComponentConfig.mk ∅)]

/-- Loading goes as the plugins of the tree have it. -/
def shippedOutcomes (asked : Config) : Outcomes :=
  { allSucceed with sink := fun id =>
      match asked.sinks[id]? with
      | none => .noFile
      | some settings => builds (shippedSinks (ascii "plugins")) (ascii "plugins") id settings }

theorem shipped_installed (asked : Config) :
    Installed (shippedSinks (ascii "plugins")) (ascii "plugins") (shippedOutcomes asked) asked.sinks := by
  intro id settings there
  simp only [shippedOutcomes, there]

def before : Config := posting "http://db:9000/in" "2s"

def after : Config := posting "http://spare/in" "7s"

def postingUp : StartOutcomes := { allUp with toOutcomes := shippedOutcomes before }

/-- What runs after a file that sets another endpoint and another timeout has
been taken over. -/
def reconfigured : Daemon :=
  ((start (.new before (ascii "slurm-tracer.json")) postingUp).2.tick 0 0).reloadConfig (shippedOutcomes after) (some after)

theorem only_after {o : Outcomes} {next : Config}
    (member : .reload o (some next) ∈ reloadTurn (shippedOutcomes after) (some after)) :
    Installed (shippedSinks (ascii "plugins")) (ascii "plugins") o next.sinks := by
  obtain ⟨rfl, rfl⟩ : o = shippedOutcomes after ∧ next = after := by simpa [reloadTurn] using member
  exact shipped_installed _

theorem settings_in_use_kept :
    Determined (shippedSinks (ascii "plugins")) (ascii "plugins")
      (history before (ascii "slurm-tracer.json") [some after]) reconfigured :=
  settings_in_use (fun _ _ => none) (shippedSinks (ascii "plugins")) before (ascii "slurm-tracer.json") postingUp
    (by decide) (shipped_installed _) {} (reloadTurn (shippedOutcomes after) (some after)) _ (fun _ _ => only_after)
    (reload_turn _ _ _ _)

/-! ### The sinks of the tree -/

/-- The sink that an instance's settings make with the plugins of the tree. -/
inductive Makes (id : Bytes) (settings : ComponentConfig) : SinkKind → Prop where
  | null (named : pluginOf id settings = ascii "null") : Makes id settings .null
  | stdoutJson (named : pluginOf id settings = ascii "stdout_json") :
      Makes id settings (.stdoutJson (settings.getUint (ascii "max_queued_batches") 1024))
  | http {e : HttpEndpoint} (named : pluginOf id settings = ascii "http")
      (url : EndpointGrammar.Denotes (settings.get (ascii "endpoint") []) e) :
      Makes id settings (.http
        { host := e.host, port := e.port, path := e.path
          maxQueuedBatches := settings.getUint (ascii "max_queued_batches") 1024
          timeout := settings.getDuration (ascii "timeout") 5000 })

/-- A file that registers one factory, under the name it is asked for. -/
theorem outcome_of_one {α : Type} (name : Bytes) (factory : ComponentConfig → Option α) (config : ComponentConfig) :
    pluginOutcome (some ⟨some fun r => r.add name factory⟩) name config =
      match factory config with
      | none => .rejected
      | some component => .built component := by
  have there : (Registry.add {} name factory).contains name = true := by simp [Registry.add, Registry.contains]
  have found : (Registry.add {} name factory).factories[name]? = some factory := by
    simp only [Registry.add, Std.TreeMap.getElem?_insertIfNew]
    simp
  cases made : factory config <;> simp [pluginOutcome, there, Registry.create, found, made]

theorem plugin_names_apart :
    ascii "null" ≠ ascii "stdout_json" ∧ ascii "null" ≠ ascii "http" ∧ ascii "stdout_json" ≠ ascii "http" := by
  decide

theorem null_builds {id : Bytes} {settings : ComponentConfig} (null : pluginOf id settings = ascii "null")
    (sink : SinkKind) :
    pluginOutcome (some ⟨some NullSink.stRegisterSink⟩) (ascii "null") settings = .built sink ↔ Makes id settings sink := by
  obtain ⟨noStdout, noHttp, -⟩ := plugin_names_apart
  have outcome : pluginOutcome (some ⟨some NullSink.stRegisterSink⟩) (ascii "null") settings = .built .null :=
    outcome_of_one _ _ _
  rw [outcome]
  constructor
  · rintro ⟨⟩
    exact .null null
  · rintro (named | named | named)
    · rfl
    · exact absurd (null.symm.trans named) noStdout
    · exact absurd (null.symm.trans named) noHttp

theorem stdout_json_builds {id : Bytes} {settings : ComponentConfig}
    (stdoutJson : pluginOf id settings = ascii "stdout_json") (sink : SinkKind) :
    pluginOutcome (some ⟨some StdoutJsonSink.stRegisterSink⟩) (ascii "stdout_json") settings = .built sink ↔
      Makes id settings sink := by
  obtain ⟨noNull, -, noHttp⟩ := plugin_names_apart
  have outcome : pluginOutcome (some ⟨some StdoutJsonSink.stRegisterSink⟩) (ascii "stdout_json") settings =
      .built (.stdoutJson (settings.getUint (ascii "max_queued_batches") 1024)) := outcome_of_one _ _ _
  rw [outcome]
  constructor
  · rintro ⟨⟩
    exact .stdoutJson stdoutJson
  · rintro (named | named | named)
    · exact absurd (named.symm.trans stdoutJson) noNull
    · rfl
    · exact absurd (stdoutJson.symm.trans named) noHttp

/-- The factory of `http` refuses what is no endpoint. -/
theorem http_builds {id : Bytes} {settings : ComponentConfig} (http : pluginOf id settings = ascii "http")
    (sink : SinkKind) :
    pluginOutcome (some ⟨some HttpSink.stRegisterSink⟩) (ascii "http") settings = .built sink ↔ Makes id settings sink := by
  obtain ⟨-, noNull, noStdout⟩ := plugin_names_apart
  cases parsed : parseHttpEndpoint (settings.get (ascii "endpoint") []) with
  | none =>
    have rejected : pluginOutcome (some ⟨some HttpSink.stRegisterSink⟩) (ascii "http") settings = .rejected :=
      (outcome_of_one _ _ _).trans (by rw [parsed])
    rw [rejected]
    constructor
    · intro built
      cases built
    · rintro (named | named | ⟨named, url⟩)
      · exact absurd (named.symm.trans http) noNull
      · exact absurd (named.symm.trans http) noStdout
      · cases parsed.symm.trans (EndpointGrammar.parse_of_denotes url)
  | some e =>
    have built : pluginOutcome (some ⟨some HttpSink.stRegisterSink⟩) (ascii "http") settings = .built (.http
        { host := e.host, port := e.port, path := e.path
          maxQueuedBatches := settings.getUint (ascii "max_queued_batches") 1024
          timeout := settings.getDuration (ascii "timeout") 5000 }) :=
      (outcome_of_one _ _ _).trans (by rw [parsed])
    rw [built]
    constructor
    · rintro ⟨⟩
      exact .http http (EndpointGrammar.denotes_of_parse parsed)
    · rintro (named | named | ⟨named, url⟩)
      · exact absurd (named.symm.trans http) noNull
      · exact absurd (named.symm.trans http) noStdout
      · cases parsed.symm.trans (EndpointGrammar.parse_of_denotes url)
        rfl

theorem shipped_builds (dir id : Bytes) (settings : ComponentConfig) (sink : SinkKind) :
    builds (shippedSinks dir) dir id settings = .built sink ↔ Makes id settings sink := by
  have path : ∀ name, pluginPath dir (ascii "sink") (pluginOf id settings) = pluginPath dir (ascii "sink") name ↔
      pluginOf id settings = name := fun name => ⟨plugin_path_injective, congrArg _⟩
  unfold builds shippedSinks
  simp only [path]
  by_cases null : pluginOf id settings = ascii "null"
  · rw [if_pos null, null, null_builds null]
  by_cases stdoutJson : pluginOf id settings = ascii "stdout_json"
  · rw [if_neg null, if_pos stdoutJson, stdoutJson, stdout_json_builds stdoutJson]
  by_cases http : pluginOf id settings = ascii "http"
  · rw [if_neg null, if_neg stdoutJson, if_pos http, http, http_builds http]
  · rw [if_neg null, if_neg stdoutJson, if_neg http]
    constructor
    · intro built
      cases built
    · rintro (named | named | named)
      · exact absurd named null
      · exact absurd named stdoutJson
      · exact absurd named http

/-- With the plugins of the tree installed all along. -/
theorem shipped_sinks_run (plugins : Plugins) (config : Config) (configPath : Bytes) (env : StartOutcomes)
    (up : (start (.new config configPath) env).1 = true)
    (installed : Installed (shippedSinks config.pluginDir) config.pluginDir env.toOutcomes config.sinks) (flags : Flags)
    (actions : List LoopStep) (m : MainLoop)
    (stable : ∀ o next, .reload o (some next) ∈ actions →
      Installed (shippedSinks config.pluginDir) config.pluginDir o next.sinks)
    (ran : actions.foldlM (MainLoop.step plugins) (.run (start (.new config configPath) env).2 flags) = some m)
    (id : Bytes) (kind : SinkKind) : (id, kind) ∈ kinds m.daemon ↔
      ∃ settings, InUse (history config configPath (filesRead actions)) id settings ∧ Makes id settings kind := by
  have held := held_run actions (by exact held_start up installed) stable ran
  rw [held.determined.sinks, List.nil_append]
  simp only [shipped_builds]

/-- The sink of the run above still posts to where the first file sent it. -/
theorem shipped_sinks_run_kept :
    ∃ settings, InUse (history before (ascii "slurm-tracer.json") [some after]) (ascii "out") settings ∧
      Makes (ascii "out") settings (.http
        { host := ascii "db", port := 9000, path := ascii "/in", maxQueuedBatches := 1024, timeout := 2000 }) := by
  have runs := shipped_sinks_run (fun _ _ => none) before (ascii "slurm-tracer.json") postingUp (by decide)
    (shipped_installed _) {} (reloadTurn (shippedOutcomes after) (some after)) _ (fun _ _ => only_after)
    (reload_turn _ _ _ _) (ascii "out")
  exact (runs _).mp (by decide +kernel)

end SlurmTracer.SettingsInUse
