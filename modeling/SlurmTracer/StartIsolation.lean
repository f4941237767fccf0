import SlurmTracer.DaemonRuns

/-!
Failure isolation at start-up. Each sink and each probe fails for itself, and
`start` returns true when some of both came up. The watcher does not: where one
of its stages fails, `start` gives up though sinks and probes would have run.
Nor does the pipeline, which reserves room for a whole batch: for a size that
the loader takes and `reserve` does not, an exception leaves `start`. The
promise is kept exactly where both come up or could not have mattered
(`isolated_iff`).
-/
namespace SlurmTracer.StartIsolation
open SlurmTracer.Core Lib Core.Daemon DaemonProofs DaemonRuns Lib.Reconcile

/-! ### Who survives -/

/-- Loading the sink ends with an instance. -/
def sinkLoads (o : Outcomes) (id : Bytes) : Bool :=
  match o.sink id with
  | .built _ => true
  | _ => false

/-- The probe passes every stage. One without a ring has nothing to arm. -/
def probePasses (o : Outcomes) (id : Bytes) : Bool :=
  match o.probe id with
  | .built offersRing =>
    (o.stages id).opened && (o.stages id).loaded && (o.stages id).attached && (!offersRing || (o.stages id).armed)
  | _ => false

/-- The instances of a section that come up, with the files they run. -/
def survivors (dir kind : Bytes) (passes : Bytes → Bool) (components : Components) : List (Bytes × Bytes) :=
  (components.toList.filter fun entry => passes entry.1).map fun entry =>
    (entry.1, pluginPath dir kind (pluginOf entry.1 entry.2))

def sinksOf (config : Config) (env : StartOutcomes) : List (Bytes × Bytes) :=
  survivors config.pluginDir (ascii "sink") (sinkLoads env.toOutcomes) config.sinks

def probesOf (config : Config) (env : StartOutcomes) : List (Bytes × Bytes) :=
  survivors config.pluginDir (ascii "probe") (probePasses env.toOutcomes) config.probes

/-- `start` returns true if and only if one sink and one probe come up, and
then it runs exactly what came up. -/
def Isolated (config : Config) (configPath : Bytes) (env : StartOutcomes) : Prop :=
  ((∃ d, startOrThrow (.new config configPath) env = some (true, d)) ↔
      sinksOf config env ≠ [] ∧ probesOf config env ≠ []) ∧
    ∀ d, startOrThrow (.new config configPath) env = some (true, d) →
      runningSinks d = sinksOf config env ∧ runningProbes d = probesOf config env

/-! ### The two loops -/

theorem running_start_sinks (d : Daemon) (o : Outcomes) :
    runningSinks (d.startSinks o) =
      runningSinks d ++ survivors d.loader.pluginDir (ascii "sink") (sinkLoads o) d.config.sinks := by
  have keeps : ∀ (d' : Daemon) (entry : Bytes × ComponentConfig), d'.loader.pluginDir = d.loader.pluginDir →
      (d'.addSink o entry.1 entry.2).loader.pluginDir = d.loader.pluginDir :=
    fun d' entry same => (dir_eq (add_sink_frame d' o entry.1 entry.2).settings).trans same
  refine foldl_adds_selected keeps _ ?_ _ d rfl
  intro d' entry same
  rw [runningSinks, add_sink_sinks, builtSink, sinkLoads, fileOf, same]
  cases o.sink entry.1 <;> simp [runningSinks]

theorem running_start_probes (d : Daemon) (o : Outcomes) :
    runningProbes (d.startProbes o) =
      runningProbes d ++ survivors d.loader.pluginDir (ascii "probe") (probePasses o) d.config.probes := by
  have keeps : ∀ (d' : Daemon) (entry : Bytes × ComponentConfig), d'.loader.pluginDir = d.loader.pluginDir →
      (d'.addProbe o entry.1 entry.2).loader.pluginDir = d.loader.pluginDir :=
    fun d' entry same => (dir_eq (add_probe_frame d' o entry.1 entry.2).settings).trans same
  refine foldl_adds_selected keeps _ ?_ _ d rfl
  intro d' entry same
  rw [runningProbes, add_probe_probes, startedProbe, probePasses, fileOf, same]
  cases o.probe entry.1 with
  | built offersRing =>
    simp only
    split <;> simp [runningProbes]
  | _ => simp [runningProbes]

theorem no_sinks_iff (d : Daemon) : d.sinks = [] ↔ runningSinks d = [] := by simp [runningSinks]

theorem no_probes_iff (d : Daemon) : d.probes = [] ↔ runningProbes d = [] := by simp [runningProbes]

/-! ### The watcher -/

/-- The watcher passes every stage. -/
def WatcherUp (env : StartOutcomes) : Prop := Passes env.watcher

theorem start_cgroup_watcher_fst (d : Daemon) (stages : Stages) :
    (d.startCgroupWatcher stages).1 = true ↔ Passes stages := by
  obtain ⟨opened, loaded, attached, armed⟩ := stages
  cases opened <;> cases loaded <;> cases attached <;> cases armed <;>
    simp [startCgroupWatcher, EventLoop.add, Passes]

/-- Without the watcher nothing more is tried. -/
theorem from_watcher_down {env : StartOutcomes} (down : ¬ WatcherUp env) (d : Daemon) :
    (fromWatcher env d).1 = false := by
  rw [WatcherUp, ← start_cgroup_watcher_fst d] at down
  unfold fromWatcher
  rcases came : d.startCgroupWatcher env.watcher with ⟨_ | _, d'⟩
  · rfl
  · rw [came] at down
    exact absurd rfl down

theorem from_watcher_up {env : StartOutcomes} (up : WatcherUp env) (d : Daemon) :
    fromWatcher env d =
      (decide (((watched d).startProbes env.toOutcomes).probes ≠ []), (watched d).startProbes env.toOutcomes) := by
  have came := (start_cgroup_watcher_fst d env.watcher).mpr up
  have is := start_cgroup_watcher_true came
  unfold fromWatcher
  rcases started : d.startCgroupWatcher env.watcher with ⟨ok, d'⟩
  rw [started] at came is
  cases came
  cases is
  rfl

/-! ### The way to the pipeline -/

/-- With a plugin directory and a readable root, it depends on the sinks how
far `start` goes. -/
theorem start_to_pipeline_eq {d : Daemon} {env : StartOutcomes} {root : Path} (dir : d.config.pluginDir ≠ [])
    (found : env.cgroupRoot = some root) (readable : env.tree.isDir root = true) :
    ∃ resolver, let sinksUp := startSinks { d with resolver := some resolver } env.toOutcomes
      d.startToPipeline env = (decide (sinksUp.sinks ≠ []), sinksUp) := by
  refine ⟨CgroupResolver.scan env.bootOffsetNs env.tree { root }, ?_⟩
  simp only [startToPipeline, if_neg dir, found, CgroupResolver.start, readable, if_true]

/-- `start` gets to the pipeline where a sink came up. -/
theorem reaches_pipeline_iff {config : Config} (configPath : Bytes) (env : StartOutcomes) :
    (startToPipeline (.new config configPath) env).1 = true ↔
      config.pluginDir ≠ [] ∧ (∃ root, env.cgroupRoot = some root ∧ env.tree.isDir root = true) ∧
        sinksOf config env ≠ [] := by
  by_cases dir : config.pluginDir = []
  · simp [startToPipeline, Daemon.new, dir]
  cases found : env.cgroupRoot with
  | none => simp [startToPipeline, found]
  | some root =>
    cases readable : env.tree.isDir root with
    | false => simp [startToPipeline, found, CgroupResolver.start, readable, Daemon.new, dir]
    | true =>
      obtain ⟨resolver, is⟩ := start_to_pipeline_eq (d := .new config configPath) dir found readable
      have sinks : runningSinks (startSinks { Daemon.new config configPath with resolver := some resolver } env.toOutcomes) =
          sinksOf config env := running_start_sinks _ _
      rw [is, decide_eq_true_eq, ne_eq, no_sinks_iff, sinks]
      simp [dir, readable]

theorem to_pipeline_config {d : Daemon} {env : StartOutcomes} : (d.startToPipeline env).2.config = d.config := by
  unfold startToPipeline
  split
  · rfl
  · split
    · rfl
    · split
      · rfl
      · exact config_eq (start_sinks_loop _ env.toOutcomes).1.settings

/-- Where nothing is thrown, `start` returns as if nothing could be. -/
theorem start_or_throw_eq (config : Config) (configPath : Bytes) (env : StartOutcomes) :
    startOrThrow (.new config configPath) env =
      if (startToPipeline (.new config configPath) env).1 = true ∧ env.reserves config.batchSize = false then none
      else some (start (.new config configPath) env) := by
  have unchanged := @to_pipeline_config (.new config configPath) env
  unfold startOrThrow start
  rcases came : startToPipeline (.new config configPath) env with ⟨_ | _, d⟩
  · simp
  · rw [came] at unchanged
    have same : d.config = config := unchanged
    cases reserved : env.reserves config.batchSize <;> simp [same, reserved]

/-- A sink came up, and the room for a batch cannot be had. -/
def ReserveThrows (config : Config) (env : StartOutcomes) : Prop :=
  config.pluginDir ≠ [] ∧ (∃ root, env.cgroupRoot = some root ∧ env.tree.isDir root = true) ∧
    sinksOf config env ≠ [] ∧ env.reserves config.batchSize = false

theorem start_throws_iff {config : Config} (configPath : Bytes) {env : StartOutcomes} :
    startOrThrow (.new config configPath) env = none ↔ ReserveThrows config env := by
  have reaches := @reaches_pipeline_iff config configPath env
  rw [start_or_throw_eq, ite_eq_left_iff, ReserveThrows]
  simp only [reaches, reduceCtorEq, imp_false, not_not, and_assoc]

theorem start_or_throw_some {config : Config} {configPath : Bytes} {env : StartOutcomes} {started : Bool × Daemon}
    (came : startOrThrow (.new config configPath) env = some started) : started = start (.new config configPath) env := by
  rw [start_or_throw_eq] at came
  split at came
  · cases came
  · exact (Option.some.inj came).symm

/-- What runs once the probe loop is through, if `start` gets that far. -/
theorem running_at_end {config : Config} {configPath : Bytes} {env : StartOutcomes} {resolver : CgroupResolver} :
    let sinksUp := startSinks { Daemon.new config configPath with resolver := some resolver } env.toOutcomes
    let d := (watched (piped sinksUp env.now)).startProbes env.toOutcomes
    runningSinks sinksUp = sinksOf config env ∧ runningSinks d = sinksOf config env ∧
      runningProbes d = probesOf config env := by
  intro sinksUp d
  obtain ⟨besideSinks, -⟩ :=
    start_sinks_loop { Daemon.new config configPath with resolver := some resolver } env.toOutcomes
  have besideProbes := (start_probes_loop (watched (piped sinksUp env.now)) env.toOutcomes).1
  have sinks : runningSinks sinksUp = sinksOf config env := running_start_sinks _ _
  have middle : settings (watched (piped sinksUp env.now)) = { settings sinksUp with cgroupWatcher := true } ∧
      (watched (piped sinksUp env.now)).sinks = sinksUp.sinks ∧
      (watched (piped sinksUp env.now)).probes = sinksUp.probes := by
    simp [watched, piped, settings]
  obtain ⟨settingsMid, sinksMid, probesMid⟩ := middle
  have dirMid := congrArg Settings.pluginDir settingsMid
  have configMid := congrArg Settings.config settingsMid
  refine ⟨sinks, ?_, ?_⟩
  · rw [runningSinks, besideProbes.sinks, sinksMid]
    exact sinks
  · have noneYet : runningProbes (watched (piped sinksUp env.now)) = [] := by
      rw [runningProbes, probesMid, besideSinks.probes]
      rfl
    simp only [settings] at dirMid configMid
    rw [running_start_probes, noneYet, List.nil_append, dirMid, configMid, dir_eq besideSinks.settings,
      config_eq besideSinks.settings]
    rfl

/-- What `start` comes to where the pipeline is built. -/
theorem start_outcome {config : Config} (configPath : Bytes) {env : StartOutcomes} {root : Path}
    (dir : config.pluginDir ≠ []) (found : env.cgroupRoot = some root) (readable : env.tree.isDir root = true) :
    ((start (.new config configPath) env).1 = true ↔
        sinksOf config env ≠ [] ∧ WatcherUp env ∧ probesOf config env ≠ []) ∧
      ((start (.new config configPath) env).1 = true →
        runningSinks (start (.new config configPath) env).2 = sinksOf config env ∧
        runningProbes (start (.new config configPath) env).2 = probesOf config env) := by
  obtain ⟨resolver, is⟩ := start_to_pipeline_eq (d := .new config configPath) dir found readable
  obtain ⟨sinks, sinksAtEnd, probesAtEnd⟩ := @running_at_end config configPath env resolver
  generalize startSinks { Daemon.new config configPath with resolver := some resolver } env.toOutcomes = sinksUp at *
  have empty := no_sinks_iff sinksUp
  rw [sinks] at empty
  simp only at is
  by_cases noSinks : sinksOf config env = []
  · rw [start, is]
    simp [empty.mpr noSinks, noSinks]
  have some' : sinksUp.sinks ≠ [] := fun none => noSinks (empty.mp none)
  have onward : start (.new config configPath) env = fromWatcher env (piped sinksUp env.now) := by
    rw [start, is, decide_eq_true some']
    rfl
  rw [onward]
  by_cases up : WatcherUp env
  · rw [from_watcher_up up]
    refine ⟨?_, fun _ => ⟨sinksAtEnd, probesAtEnd⟩⟩
    rw [decide_eq_true_eq, ne_eq, no_probes_iff, probesAtEnd]
    simp [noSinks, up]
  · have down := from_watcher_down up
    simp only [down, Bool.false_eq_true, up, false_and, and_false, false_implies]
    trivial

/-- What `start` comes to, thrown exceptions included. -/
theorem start_or_throw_outcome {config : Config} (configPath : Bytes) {env : StartOutcomes} {root : Path}
    (dir : config.pluginDir ≠ []) (found : env.cgroupRoot = some root) (readable : env.tree.isDir root = true) :
    ((∃ d, startOrThrow (.new config configPath) env = some (true, d)) ↔
        env.reserves config.batchSize = true ∧ sinksOf config env ≠ [] ∧ WatcherUp env ∧ probesOf config env ≠ []) ∧
      ∀ d, startOrThrow (.new config configPath) env = some (true, d) →
        runningSinks d = sinksOf config env ∧ runningProbes d = probesOf config env := by
  obtain ⟨verdict, runs⟩ := start_outcome configPath dir found readable
  have reaches := @reaches_pipeline_iff config configPath env
  have is := start_or_throw_eq config configPath env
  generalize start (.new config configPath) env = started at verdict runs is
  by_cases thrown : (startToPipeline (.new config configPath) env).1 = true ∧ env.reserves config.batchSize = false
  · rw [if_pos thrown] at is
    simp [is, thrown.2]
  · rw [if_neg thrown] at is
    obtain ⟨ok, d⟩ := started
    have returns : (∃ d', some (ok, d) = some (true, d')) ↔ ok = true := by simp
    rw [is, returns, verdict]
    constructor
    · constructor
      · rintro ⟨sinks, up, probes⟩
        have there := reaches.mpr ⟨dir, ⟨root, found, readable⟩, sinks⟩
        exact ⟨by simpa [there] using thrown, sinks, up, probes⟩
      · exact And.right
    · rintro d' same
      cases same
      exact runs rfl

/-- Failures at start-up are isolated exactly where the watcher and the
pipeline come up, or no sink or no probe does. -/
theorem isolated_iff {config : Config} (configPath : Bytes) {env : StartOutcomes} {root : Path}
    (dir : config.pluginDir ≠ []) (found : env.cgroupRoot = some root) (readable : env.tree.isDir root = true) :
    Isolated config configPath env ↔
      (env.reserves config.batchSize = true ∧ WatcherUp env) ∨ sinksOf config env = [] ∨ probesOf config env = [] := by
  obtain ⟨verdict, runs⟩ := start_or_throw_outcome configPath dir found readable
  rw [Isolated, and_iff_left runs, verdict]
  tauto

/-! ### A kernel without the watcher's tracepoints -/

/-- One sink and one probe. -/
def oneEach : Config where
  pluginDir := ascii "plugins"
  sinks := .ofList [(ascii "null", ComponentConfig.mk ∅)]
  probes := .ofList [(ascii "oom", ComponentConfig.mk ∅)]

/-- Everything works but the watcher's `load`. -/
def watcherRefused : StartOutcomes := { allUp with watcher := ⟨true, false, true, true⟩ }

/-- The sink and the probe would have run, and `start` returns false. -/
theorem refused_watcher_stops_start :
    ¬ ∀ config configPath env root, config.pluginDir ≠ [] → env.cgroupRoot = some root →
      env.tree.isDir root = true → Isolated config configPath env := by
  intro promise
  obtain ⟨verdict, -⟩ := promise oneEach [] watcherRefused [] (by decide) rfl (by decide)
  have started := verdict.mpr ⟨by decide, by decide⟩
  have outcome := @start_or_throw_outcome oneEach [] watcherRefused [] (by decide) rfl (by decide)
  obtain ⟨-, -, ⟨-, loaded, -⟩, -⟩ := outcome.1.mp started
  cases loaded

/-- Two sinks and two probes. -/
def twoEach : Config where
  pluginDir := ascii "plugins"
  sinks := .ofList [(ascii "http", ComponentConfig.mk ∅), (ascii "null", ComponentConfig.mk ∅)]
  probes := .ofList [(ascii "exec", ComponentConfig.mk ∅), (ascii "oom", ComponentConfig.mk ∅)]

/-- One of the sinks is not installed, and one of the probes is loaded in vain. -/
def someDown : StartOutcomes :=
  { allUp with
      sink := fun id => if id = ascii "http" then .noFile else .built .null
      stages := fun id => ⟨true, true, id ≠ ascii "exec", true⟩ }

theorem isolated_iff_some_down :
    Isolated twoEach [] someDown ↔
      (someDown.reserves twoEach.batchSize = true ∧ WatcherUp someDown) ∨ sinksOf twoEach someDown = [] ∨
        probesOf twoEach someDown = [] :=
  isolated_iff [] (by decide) rfl (by decide)

end SlurmTracer.StartIsolation
