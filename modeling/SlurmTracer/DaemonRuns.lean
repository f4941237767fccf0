import SlurmTracer.DaemonProofs
import SlurmTracer.ReloadDiff

/-! The daemon from `start` through its main loop, and what holds of it at
every return there: both lists of components stay within what the committed
configuration asks for. -/
namespace SlurmTracer.DaemonRuns
open SlurmTracer.Core Lib Core.Daemon DaemonProofs Lib.Reconcile ReloadDiff

/-- What can happen to a running daemon between two returns to its main loop. -/
inductive Act where
  | emit (out : Emitter) (bootOffsetNs : UInt64) (passwd : PasswdReply) (r : Record)
  | tick (monotonicNs : UInt64) (now : Int64)
  | reload (o : Outcomes) (loaded : Option Config)

def act (d : Daemon) : Act → Daemon
  | .emit out bootOffsetNs passwd r => d.emit out bootOffsetNs passwd r
  | .tick monotonicNs now => d.tick monotonicNs now
  | .reload o loaded => d.reloadConfig o loaded

/-- The daemons some run of the program returns to its main loop with. -/
inductive Reached : Daemon → Prop where
  | started (config : Config) (configPath : Bytes) (env : StartOutcomes)
      (up : (start (.new config configPath) env).1 = true) : Reached (start (.new config configPath) env).2
  | acted (d : Daemon) (a : Act) (before : Reached d) : Reached (act d a)

/-- `start` once the sinks are loaded: the pipeline is built and wired. -/
def piped (d : Daemon) (now : Int64) : Daemon :=
  wireSinks { d with pipeline := some (.new d.pipelineOptions [] now) }

/-- `start` once the watcher is up. -/
def watched (d : Daemon) : Daemon :=
  { d with loop := (d.loop.add .watcher .pipeline true true).2, cgroupWatcher := true }

/-- `start` from the watcher on. -/
def fromWatcher (env : StartOutcomes) (d : Daemon) : Bool × Daemon :=
  match d.startCgroupWatcher env.watcher with
  | (false, d) => (false, d)
  | (true, d) =>
    let d := d.startProbes env.toOutcomes
    (d.probes ≠ [], d)

theorem start_cgroup_watcher_true {d : Daemon} {stages : Stages}
    (up : (d.startCgroupWatcher stages).1 = true) : (d.startCgroupWatcher stages).2 = watched d := by
  unfold startCgroupWatcher at up ⊢
  cases staged : stages.opened && stages.loaded && stages.attached with
  | false => simp [staged] at up
  | true =>
    cases armed : stages.armed with
    | false => simp [staged, armed, EventLoop.add] at up
    | true => rfl

/-- A `start` that returned true went through all of its steps. -/
theorem start_true {d : Daemon} {env : StartOutcomes} (up : (start d env).1 = true) :
    ∃ resolver, let sinksUp := startSinks { d with resolver := some resolver } env.toOutcomes
      d.config.pluginDir ≠ [] ∧ sinksUp.sinks ≠ [] ∧
        (start d env).2 = (watched (piped sinksUp env.now)).startProbes env.toOutcomes ∧
        ((watched (piped sinksUp env.now)).startProbes env.toOutcomes).probes ≠ [] := by
  unfold start startToPipeline at up ⊢
  by_cases noDir : d.config.pluginDir = []
  · simp [noDir] at up
  rw [if_neg noDir] at up ⊢
  cases found : env.cgroupRoot with
  | none => simp [found] at up
  | some root =>
    simp only [found] at up ⊢
    rcases scanned : CgroupResolver.start env.bootOffsetNs env.tree { root } with ⟨_ | _, resolver⟩
    · simp only [scanned, Bool.false_eq_true] at up
    simp only [scanned] at up ⊢
    refine ⟨resolver, noDir, ?_⟩
    generalize startSinks { d with resolver := some resolver } env.toOutcomes = sinksUp at up ⊢
    by_cases noSinks : sinksUp.sinks = []
    · simp [noSinks] at up
    rw [decide_eq_true noSinks] at up ⊢
    change (fromWatcher env (piped sinksUp env.now)).1 = true at up
    change sinksUp.sinks ≠ [] ∧ (fromWatcher env (piped sinksUp env.now)).2 = _ ∧ _
    have watcherUp := @start_cgroup_watcher_true (piped sinksUp env.now) env.watcher
    unfold fromWatcher at up ⊢
    rcases came : (piped sinksUp env.now).startCgroupWatcher env.watcher with ⟨_ | _, d'⟩
    · simp [came] at up
    · rw [came] at watcherUp up
      have isWatched : d' = watched (piped sinksUp env.now) := watcherUp rfl
      subst isWatched
      exact ⟨noSinks, rfl, by simpa using up⟩

/-! ### What the configuration asks for -/

/-- The file each instance should run, by id. -/
def files (dir kind : Bytes) (components : Components) (id : Bytes) : Option Bytes :=
  components[id]?.map fun config => pluginPath dir kind (pluginOf id config)

/-- The ids in `sinks_`, with the file each was built from. -/
def runningSinks (d : Daemon) : List (Bytes × Bytes) := d.sinks.map fun s => (s.id, s.home.path)

/-- The ids in `probes_`, with the file each was built from. -/
def runningProbes (d : Daemon) : List (Bytes × Bytes) := d.probes.map fun p => (p.id, p.home.path)

theorem plugin_path_injective {dir kind a b : Bytes} (same : pluginPath dir kind a = pluginPath dir kind b) :
    a = b := by
  unfold pluginPath at same
  exact List.append_cancel_left (List.append_cancel_right same)

/-- `start` brings up the whole file against nothing. -/
theorem start_diff (dir kind : Bytes) (components : Components) :
    Diff (fun _ => none) (files dir kind components) []
      (components.toList.map fun entry => (entry.1, pluginPath dir kind (pluginOf entry.1 entry.2))) where
  mem_removed := by simp
  mem_added := by
    intro id path
    simp only [List.mem_map, Prod.mk.injEq, files, Option.map_eq_some_iff, reduceCtorEq, not_false_eq_true,
      and_true, ne_eq]
    constructor
    · rintro ⟨⟨id', config⟩, member, rfl, rfl⟩
      exact ⟨config, Std.TreeMap.mem_toList_iff_getElem?_eq_some.mp member, rfl⟩
    · rintro ⟨config, there, rfl⟩
      exact ⟨(id, config), Std.TreeMap.mem_toList_iff_getElem?_eq_some.mpr there, rfl, rfl⟩
  uniqueAdded := by
    rw [List.map_map]
    exact keys_nodup components

theorem files_eq (dir kind : Bytes) (components : Components) :
    files dir kind components = fun id => (plugins components)[id]?.map (pluginPath dir kind) := by
  funext id
  unfold files
  rw [plugins_lookup, Option.map_map]
  rfl

/-- The two loops of `diff_components` are a diff of the files asked for:
plugin names and their paths differ together. -/
theorem reload_diff (dir kind : Bytes) (current next : Components) :
    Diff (files dir kind current) (files dir kind next) (diffLoop current next)
      ((diffLoop next current).map fun id => (id, (files dir kind next id).getD [])) := by
  have injective : Function.Injective (pluginPath dir kind) := fun _ _ same => plugin_path_injective same
  have renamed := diff_renamed injective (plugins_diff current next)
  have pairs : ((pluginsOf next (diffLoop next current)).map fun pair => (pair.1, pluginPath dir kind pair.2)) =
      (diffLoop next current).map fun id => (id, (files dir kind next id).getD []) := by
    unfold pluginsOf
    rw [List.map_filterMap, ← List.filterMap_eq_map]
    apply List.filterMap_congr
    intro id named
    obtain ⟨config, there, -⟩ := (mem_diff_loop next current id).mp named
    simp [files, plugins_lookup, there]
  rw [pairs, ← files_eq, ← files_eq] at renamed
  exact renamed

/-! ### The loops over the two lists -/

theorem running_add_sink (d : Daemon) (o : Outcomes) (id : Bytes) (config : ComponentConfig) :
    runningSinks (d.addSink o id config) = runningSinks d ∨
      runningSinks (d.addSink o id config) = runningSinks d ++ [(id, fileOf d (ascii "sink") id config)] := by
  unfold runningSinks
  rw [add_sink_sinks, builtSink]
  cases o.sink id with
  | built kind => exact Or.inr (by simp)
  | _ => exact Or.inl (by simp)

theorem running_add_sink_built {d : Daemon} {o : Outcomes} {id : Bytes} {kind : SinkKind}
    (built : o.sink id = .built kind) (config : ComponentConfig) :
    runningSinks (d.addSink o id config) = runningSinks d ++ [(id, fileOf d (ascii "sink") id config)] := by
  simp [runningSinks, add_sink_sinks, builtSink, built]

theorem running_add_probe (d : Daemon) (o : Outcomes) (id : Bytes) (config : ComponentConfig) :
    runningProbes (d.addProbe o id config) = runningProbes d ∨
      runningProbes (d.addProbe o id config) =
        runningProbes d ++ [(id, fileOf d (ascii "probe") id config)] := by
  unfold runningProbes
  rw [add_probe_probes, startedProbe]
  cases o.probe id with
  | built offersRing =>
    simp only
    split
    · exact Or.inr (by simp)
    · exact Or.inl (by simp)
  | _ => exact Or.inl (by simp)

/-- Every stage of the probe goes through. -/
def Passes (stages : Stages) : Prop :=
  stages.opened = true ∧ stages.loaded = true ∧ stages.attached = true ∧ stages.armed = true

theorem running_add_probe_built {d : Daemon} {o : Outcomes} {id : Bytes} {offersRing : Bool}
    (built : o.probe id = .built offersRing) (passes : Passes (o.stages id)) (config : ComponentConfig) :
    runningProbes (d.addProbe o id config) =
      runningProbes d ++ [(id, fileOf d (ascii "probe") id config)] := by
  obtain ⟨opened, loaded, attached, armed⟩ := passes
  simp [runningProbes, add_probe_probes, startedProbe, built, opened, loaded, attached, armed]

/-- No probe shares an address, and the allocator has gone past all of them. -/
structure FreshRefs (d : Daemon) : Prop where
  unique : (ptrs d).Nodup
  below : ∀ p ∈ d.probes, p.home.ref < d.loader.nextRef

theorem fresh_refs_sublist {d d' : Daemon} (fresh : FreshRefs d) (left : d'.probes.Sublist d.probes)
    (nextRef : d.loader.nextRef ≤ d'.loader.nextRef) : FreshRefs d' where
  unique := fresh.unique.sublist (left.map LoadedProbe.ptr)
  below := fun p member => Nat.lt_of_lt_of_le (fresh.below p (left.subset member)) nextRef

theorem fresh_refs_add_probe {d : Daemon} (fresh : FreshRefs d) (o : Outcomes) (id : Bytes)
    (config : ComponentConfig) : FreshRefs (d.addProbe o id config) := by
  have frame := add_probe_frame d o id config
  cases started : startedProbe d o id config with
  | none =>
    refine fresh_refs_sublist fresh ?_ frame.nextRef
    rw [add_probe_probes, started]
    simp
  | some new =>
    obtain ⟨ref, grown⟩ := started_ref started
    have probes : (d.addProbe o id config).probes = d.probes ++ [new] := by
      rw [add_probe_probes, started]
      rfl
    constructor
    · rw [ptrs, probes, List.map_append]
      refine Keyed.nodup_snoc fresh.unique fun taken => ?_
      obtain ⟨p, present, same⟩ := List.mem_map.mp taken
      simp only [LoadedProbe.ptr, ProbePtr.probe.injEq] at same
      exact Nat.ne_of_lt (fresh.below p present) (same.trans ref)
    · intro p member
      rw [probes] at member
      rcases List.mem_append.mp member with present | isNew
      · exact Nat.lt_of_lt_of_le (fresh.below p present) frame.nextRef
      · rw [List.mem_singleton.mp isNew, ref]
        exact grown

theorem remove_sinks_loop (ids : List Bytes) {d : Daemon} (unique : (d.sinks.map LoadedSink.id).Nodup) :
    BesideSinks d (ids.foldl removeSink d) ∧ (ids.foldl removeSink d).sinks.Sublist d.sinks ∧
      ∀ s, s ∈ (ids.foldl removeSink d).sinks ↔ s ∈ d.sinks ∧ s.id ∉ ids := by
  refine ⟨foldl_related .refl .trans remove_sink_frame ids d, ?_, ?_⟩
  · exact foldl_related (R := fun d d' => d'.sinks.Sublist d.sinks) (fun _ => List.Sublist.refl _)
      (fun first second => second.trans first) remove_sink_sublist ids d
  · induction ids generalizing d with
    | nil => simp
    | cons id ids ih =>
      intro s
      have still := unique.sublist ((remove_sink_sublist d id).map LoadedSink.id)
      rw [List.foldl_cons, ih still, mem_remove_sink unique, List.mem_cons, not_or, and_assoc]

theorem remove_probes_loop (o : Outcomes) (ids : List Bytes) {d : Daemon}
    (uniqueIds : (d.probes.map LoadedProbe.id).Nodup) (unique : (ptrs d).Nodup) :
    let d' := ids.foldl (fun d id => d.removeProbe o id) d
    BesideProbes d d' ∧ d'.probes.Sublist d.probes ∧ (∀ p ∈ d'.probes, p.id ∉ ids) ∧
      ∀ p ∈ d.probes, p.id ∉ ids → (∀ removed, o.rearm removed p.ptr = true) → p ∈ d'.probes := by
  refine ⟨foldl_related .refl .trans (fun d id => remove_probe_frame d o id) ids d, ?_, ?_, ?_⟩
  · exact foldl_related (R := fun d d' => d'.probes.Sublist d.probes) (fun _ => List.Sublist.refl _)
      (fun first second => second.trans first) (fun d id => remove_probe_sublist d o id) ids d
  · induction ids generalizing d with
    | nil => simp
    | cons id ids ih =>
      have left := remove_probe_sublist d o id
      intro p member
      have rest := ih (uniqueIds.sublist (left.map _)) (unique.sublist (left.map _)) p member
      have sub : (ids.foldl (fun d id => d.removeProbe o id) (d.removeProbe o id)).probes.Sublist
          (d.removeProbe o id).probes :=
        foldl_related (R := fun d d' => d'.probes.Sublist d.probes) (fun _ => List.Sublist.refl _)
          (fun first second => second.trans first) (fun d id => remove_probe_sublist d o id) ids _
      have here := (mem_remove_probe uniqueIds unique o id p).mp (sub.subset member)
      exact fun named => (List.mem_cons.mp named).elim here.2.1 rest
  · induction ids generalizing d with
    | nil => exact fun p member _ _ => member
    | cons id ids ih =>
      have left := remove_probe_sublist d o id
      intro p member spared armed
      rw [List.mem_cons, not_or] at spared
      refine ih (uniqueIds.sublist (left.map _)) (unique.sublist (left.map _)) p ?_ spared.2 armed
      refine (mem_remove_probe uniqueIds unique o id p).mpr ⟨member, spared.1, fun reported => ?_⟩
      have refused := dropped_by_refused d o id p.ptr reported
      rw [armed id] at refused
      cases refused

theorem dir_eq {d d' : Daemon} (same : settings d' = settings d) :
    d'.loader.pluginDir = d.loader.pluginDir := congrArg Settings.pluginDir same

/-- The sink loop of a reload brings up some of the diff's additions. -/
theorem add_sinks_loop (next : Config) (o : Outcomes) (ids : List Bytes) (d : Daemon) :
    let item := fun id => (id, (files d.loader.pluginDir (ascii "sink") next.sinks id).getD [])
    BesideSinks d (ids.foldl (addSinkFrom next o) d) ∧
      (∃ new, new.Sublist (ids.map item) ∧
        runningSinks (ids.foldl (addSinkFrom next o) d) = runningSinks d ++ new) ∧
      ((∀ id ∈ ids, (∃ config, next.sinks[id]? = some config) ∧ ∃ kind, o.sink id = .built kind) →
        runningSinks (ids.foldl (addSinkFrom next o) d) = runningSinks d ++ ids.map item) := by
  have frame : ∀ d id, BesideSinks d (addSinkFrom next o d id) := by
    intro d id
    unfold addSinkFrom
    cases next.sinks[id]? with
    | none => exact .refl d
    | some config => exact add_sink_frame d o id config
  have keeps : ∀ d' id, d'.loader.pluginDir = d.loader.pluginDir →
      (addSinkFrom next o d' id).loader.pluginDir = d.loader.pluginDir :=
    fun d' id same => (dir_eq (frame d' id).settings).trans same
  refine ⟨foldl_related .refl .trans frame ids d, ?_, fun succeeds => ?_⟩
  · refine foldl_adds keeps (fun d' id same => ?_) ids d rfl
    unfold addSinkFrom files
    cases next.sinks[id]? with
    | none => exact Or.inl rfl
    | some config =>
      have adds := running_add_sink d' o id config
      rw [fileOf, same] at adds
      exact adds
  · refine foldl_adds_all keeps ids (fun d' id member same => ?_) d rfl
    obtain ⟨⟨config, there⟩, kind, built⟩ := succeeds id member
    unfold addSinkFrom files
    rw [there]
    have adds := running_add_sink_built (d := d') built config
    rw [fileOf, same] at adds
    exact adds

/-- The probe loop of a reload likewise. -/
theorem add_probes_loop (next : Config) (o : Outcomes) (ids : List Bytes) (d : Daemon) :
    let item := fun id => (id, (files d.loader.pluginDir (ascii "probe") next.probes id).getD [])
    BesideProbes d (ids.foldl (addProbeFrom next o) d) ∧
      (FreshRefs d → FreshRefs (ids.foldl (addProbeFrom next o) d)) ∧
      (∃ new, new.Sublist (ids.map item) ∧
        runningProbes (ids.foldl (addProbeFrom next o) d) = runningProbes d ++ new) ∧
      ((∀ id ∈ ids, (∃ config, next.probes[id]? = some config) ∧
          (∃ offersRing, o.probe id = .built offersRing) ∧ Passes (o.stages id)) →
        runningProbes (ids.foldl (addProbeFrom next o) d) = runningProbes d ++ ids.map item) := by
  have frame : ∀ d id, BesideProbes d (addProbeFrom next o d id) := by
    intro d id
    unfold addProbeFrom
    cases next.probes[id]? with
    | none => exact .refl d
    | some config => exact add_probe_frame d o id config
  have fresh : ∀ d id, FreshRefs d → FreshRefs (addProbeFrom next o d id) := by
    intro d id held
    unfold addProbeFrom
    cases next.probes[id]? with
    | none => exact held
    | some config => exact fresh_refs_add_probe held o id config
  have keeps : ∀ d' id, d'.loader.pluginDir = d.loader.pluginDir →
      (addProbeFrom next o d' id).loader.pluginDir = d.loader.pluginDir :=
    fun d' id same => (dir_eq (frame d' id).settings).trans same
  refine ⟨foldl_related .refl .trans frame ids d, ?_, ?_, fun succeeds => ?_⟩
  · exact foldl_related (R := fun d d' => FreshRefs d → FreshRefs d') (fun _ held => held)
      (fun first second held => second (first held)) fresh ids d
  · refine foldl_adds keeps (fun d' id same => ?_) ids d rfl
    unfold addProbeFrom files
    cases next.probes[id]? with
    | none => exact Or.inl rfl
    | some config =>
      have adds := running_add_probe d' o id config
      rw [fileOf, same] at adds
      exact adds
  · refine foldl_adds_all keeps ids (fun d' id member same => ?_) d rfl
    obtain ⟨⟨config, there⟩, ⟨offersRing, built⟩, passes⟩ := succeeds id member
    unfold addProbeFrom files
    rw [there]
    have adds := running_add_probe_built (d := d') built passes config
    rw [fileOf, same] at adds
    exact adds

/-- At every return to the main loop: what runs is within what `sinks` and
`probes` ask for. -/
structure Settled (d : Daemon) (sinks probes : Components) : Prop where
  sinks : Tracks (files d.loader.pluginDir (ascii "sink") sinks) (runningSinks d)
  probes : Tracks (files d.loader.pluginDir (ascii "probe") probes) (runningProbes d)
  fresh : FreshRefs d

/-- What runs is asked for. -/
theorem asked_of_tracks {dir kind id path : Bytes} {components : Components} {running : List (Bytes × Bytes)}
    (tracks : Tracks (files dir kind components) running) (runs : (id, path) ∈ running) :
    ∃ config, components[id]? = some config ∧ pluginPath dir kind (pluginOf id config) = path :=
  Option.map_eq_some_iff.mp (tracks.within id path runs)

/-- The file of a sink plugin. -/
def SinkFile (dir path : Bytes) : Prop := ∃ plugin, path = pluginPath dir (ascii "sink") plugin

/-- The file of a probe plugin. -/
def ProbeFile (dir path : Bytes) : Prop := ∃ plugin, path = pluginPath dir (ascii "probe") plugin

/-- No file serves both kinds. -/
theorem kinds_apart {dir path : Bytes} (sink : SinkFile dir path) (probe : ProbeFile dir path) : False := by
  obtain ⟨a, rfl⟩ := sink
  obtain ⟨b, same⟩ := probe
  simp only [pluginPath, List.append_assoc] at same
  have sink : ascii "sink" = 115 :: ascii "ink" := by decide
  have probe : ascii "probe" = 112 :: ascii "robe" := by decide
  have tails := List.append_cancel_left (List.append_cancel_left same)
  rw [sink, probe, List.cons_append, List.cons_append] at tails
  exact absurd (List.cons.inj tails).1 (by decide)

theorem sink_file {d : Daemon} (settled : Settled d d.config.sinks d.config.probes) {s : LoadedSink}
    (present : s ∈ d.sinks) : SinkFile d.loader.pluginDir s.home.path := by
  obtain ⟨config, -, built⟩ := asked_of_tracks settled.sinks (List.mem_map_of_mem present)
  exact ⟨_, built.symm⟩

theorem probe_file {d : Daemon} (settled : Settled d d.config.sinks d.config.probes) {p : LoadedProbe}
    (present : p ∈ d.probes) : ProbeFile d.loader.pluginDir p.home.path := by
  obtain ⟨config, -, built⟩ := asked_of_tracks settled.probes (List.mem_map_of_mem present)
  exact ⟨_, built.symm⟩

/-- The plan a diff brings up of a file. -/
def additions (dir kind : Bytes) (current next : Components) : List (Bytes × Bytes) :=
  (diffLoop next current).map fun id => (id, (files dir kind next id).getD [])

/-- The sink half of a reload. -/
def sinkPhase (d : Daemon) (o : Outcomes) (next : Config) : Daemon :=
  (diffLoop next.sinks d.config.sinks).foldl (addSinkFrom next o)
    ((diffLoop d.config.sinks next.sinks).foldl removeSink d)

/-- The probe half of a reload. -/
def probePhase (d : Daemon) (o : Outcomes) (next : Config) : Daemon :=
  (diffLoop next.probes d.config.probes).foldl (addProbeFrom next o)
    ((diffLoop d.config.probes next.probes).foldl (fun d id => d.removeProbe o id) d)

theorem diff_loop_asked {these others : Components} {id : Bytes} (named : id ∈ diffLoop these others) :
    ∃ config, these[id]? = some config := by
  obtain ⟨config, there, -⟩ := (mem_diff_loop these others id).mp named
  exact ⟨config, there⟩

theorem unique_ids {asked : Bytes → Option Bytes} {d : Daemon}
    (tracks : Tracks asked (runningSinks d)) : (d.sinks.map LoadedSink.id).Nodup := by
  have := tracks.unique
  rwa [runningSinks, List.map_map] at this

theorem unique_probe_ids {asked : Bytes → Option Bytes} {d : Daemon}
    (tracks : Tracks asked (runningProbes d)) : (d.probes.map LoadedProbe.id).Nodup := by
  have := tracks.unique
  rwa [runningProbes, List.map_map] at this

theorem sink_phase_frame (d : Daemon) (o : Outcomes) (next : Config) :
    BesideSinks d (sinkPhase d o next) :=
  .trans (foldl_related .refl .trans remove_sink_frame _ d) (add_sinks_loop next o _ _).1

theorem probe_phase_frame (d : Daemon) (o : Outcomes) (next : Config) :
    BesideProbes d (probePhase d o next) :=
  .trans (foldl_related .refl .trans (fun d id => remove_probe_frame d o id)
    (diffLoop d.config.probes next.probes) d) (add_probes_loop next o _ _).1

theorem sink_phase {d : Daemon} (o : Outcomes) (next : Config)
    (tracks : Tracks (files d.loader.pluginDir (ascii "sink") d.config.sinks) (runningSinks d)) :
    ∃ kept new,
      runningSinks (sinkPhase d o next) = kept ++ new ∧ kept.Sublist (runningSinks d) ∧
      (∀ id ∈ diffLoop d.config.sinks next.sinks, id ∉ kept.map Prod.fst) ∧
      (∀ x ∈ runningSinks d, x.1 ∉ diffLoop d.config.sinks next.sinks → x ∈ kept) ∧
      new.Sublist (additions d.loader.pluginDir (ascii "sink") d.config.sinks next.sinks) ∧
      ((∀ id config, next.sinks[id]? = some config → ∃ kind, o.sink id = .built kind) →
        new = additions d.loader.pluginDir (ascii "sink") d.config.sinks next.sinks) := by
  obtain ⟨beside, left, members⟩ :=
    remove_sinks_loop (diffLoop d.config.sinks next.sinks) (unique_ids tracks)
  obtain ⟨-, ⟨new, sub, grown⟩, all⟩ := add_sinks_loop next o (diffLoop next.sinks d.config.sinks)
    ((diffLoop d.config.sinks next.sinks).foldl removeSink d)
  rw [dir_eq beside.settings] at sub all
  refine ⟨runningSinks ((diffLoop d.config.sinks next.sinks).foldl removeSink d), new,
    grown, left.map _, ?_, ?_, sub, fun succeeds => ?_⟩
  · intro id named member
    simp only [runningSinks, List.map_map, List.mem_map] at member
    obtain ⟨s, present, rfl⟩ := member
    exact ((members s).mp present).2 named
  · intro x member spared
    obtain ⟨s, present, rfl⟩ := List.mem_map.mp member
    exact List.mem_map_of_mem ((members s).mpr ⟨present, spared⟩)
  · have exactly := all fun id named => by
      obtain ⟨config, there⟩ := diff_loop_asked named
      exact ⟨⟨config, there⟩, succeeds id config there⟩
    exact List.append_cancel_left (grown.symm.trans exactly)

theorem probe_phase {d : Daemon} (o : Outcomes) (next : Config)
    (tracks : Tracks (files d.loader.pluginDir (ascii "probe") d.config.probes) (runningProbes d))
    (held : FreshRefs d) :
    FreshRefs (probePhase d o next) ∧ ∃ kept new,
      runningProbes (probePhase d o next) = kept ++ new ∧ kept.Sublist (runningProbes d) ∧
      (∀ id ∈ diffLoop d.config.probes next.probes, id ∉ kept.map Prod.fst) ∧
      (∀ p ∈ d.probes, p.id ∉ diffLoop d.config.probes next.probes →
        (∀ removed, o.rearm removed p.ptr = true) → (p.id, p.home.path) ∈ kept) ∧
      new.Sublist (additions d.loader.pluginDir (ascii "probe") d.config.probes next.probes) ∧
      ((∀ id config, next.probes[id]? = some config →
          (∃ offersRing, o.probe id = .built offersRing) ∧ Passes (o.stages id)) →
        new = additions d.loader.pluginDir (ascii "probe") d.config.probes next.probes) := by
  obtain ⟨beside, left, gone, spared⟩ := remove_probes_loop o (diffLoop d.config.probes next.probes)
    (unique_probe_ids tracks) held.unique
  obtain ⟨-, fresh, ⟨new, sub, grown⟩, all⟩ := add_probes_loop next o
    (diffLoop next.probes d.config.probes)
    ((diffLoop d.config.probes next.probes).foldl (fun d id => d.removeProbe o id) d)
  rw [dir_eq beside.settings] at sub all
  refine ⟨fresh (fresh_refs_sublist held left beside.nextRef),
    runningProbes ((diffLoop d.config.probes next.probes).foldl (fun d id => d.removeProbe o id) d), new,
    grown, left.map _, ?_, ?_, sub, fun succeeds => ?_⟩
  · intro id named member
    simp only [runningProbes, List.map_map, List.mem_map] at member
    obtain ⟨p, present, rfl⟩ := member
    exact gone p present named
  · intro p member notNamed armed
    exact List.mem_map_of_mem (spared p member notNamed armed)
  · have exactly := all fun id named => by
      obtain ⟨config, there⟩ := diff_loop_asked named
      exact ⟨⟨config, there⟩, succeeds id config there⟩
    exact List.append_cancel_left (grown.symm.trans exactly)

theorem config_eq {d d' : Daemon} (same : settings d' = settings d) : d'.config = d.config :=
  congrArg Settings.config same

/-- The reload a daemon carries out on an accepted file. -/
theorem reload_accepted {d : Daemon} {o : Outcomes} {next : Config} (hasPath : d.configPath ≠ [])
    (accepted : diffForReload d.config next ≠ none) :
    d.reloadConfig o (some next) =
      { probePhase (sinkPhase d o next) o next with
        config := { d.config with sinks := next.sinks, probes := next.probes } } := by
  have sinkConfig := config_eq (sink_phase_frame d o next).settings
  have probeConfig := (config_eq (probe_phase_frame (sinkPhase d o next) o next).settings).trans sinkConfig
  obtain ⟨diff, is⟩ := Option.ne_none_iff_exists'.mp accepted
  have whole : diffForReload d.config next = some
      { addedProbes := diffLoop next.probes d.config.probes, removedProbes := diffLoop d.config.probes next.probes
        addedSinks := diffLoop next.sinks d.config.sinks, removedSinks := diffLoop d.config.sinks next.sinks } := by
    unfold diffForReload diffComponents at is ⊢
    split at is
    · cases is
    · rename_i same
      rw [if_neg same]
  simp only [reloadConfig, if_neg hasPath, whole, applyReload]
  simp only [probePhase, sinkConfig] at probeConfig ⊢
  simp only [sinkPhase] at probeConfig ⊢
  rw [probeConfig]

theorem settled_reload {d : Daemon} (settled : Settled d d.config.sinks d.config.probes) (o : Outcomes)
    (loaded : Option Config) :
    Settled (d.reloadConfig o loaded) (d.reloadConfig o loaded).config.sinks
      (d.reloadConfig o loaded).config.probes := by
  by_cases noPath : d.configPath = []
  · simp only [reloadConfig, if_pos noPath]
    exact settled
  cases loaded with
  | none =>
    simp only [reloadConfig, if_neg noPath]
    exact settled
  | some next =>
    by_cases accepted : diffForReload d.config next = none
    · simp only [reloadConfig, if_neg noPath, accepted]
      exact settled
    · rw [reload_accepted noPath accepted]
      have besideSinks := sink_phase_frame d o next
      have besideProbes := probe_phase_frame (sinkPhase d o next) o next
      obtain ⟨keptSinks, newSinks, runsSinks, leftSinks, goneSinks, -, gotSinks, -⟩ :=
        sink_phase o next settled.sinks
      have probesBefore : Tracks (files (sinkPhase d o next).loader.pluginDir (ascii "probe")
          (sinkPhase d o next).config.probes) (runningProbes (sinkPhase d o next)) := by
        rw [dir_eq besideSinks.settings, config_eq besideSinks.settings, runningProbes, besideSinks.probes]
        exact settled.probes
      obtain ⟨fresh, keptProbes, newProbes, runsProbes, leftProbes, goneProbes, -, gotProbes, -⟩ :=
        probe_phase o next probesBefore
          (fresh_refs_sublist settled.fresh (by rw [besideSinks.probes]) besideSinks.nextRef)
      refine ⟨?_, ?_, ⟨fresh.unique, fresh.below⟩⟩
      · change Tracks (files (probePhase (sinkPhase d o next) o next).loader.pluginDir _ _)
          (runningSinks (probePhase (sinkPhase d o next) o next))
        rw [dir_eq besideProbes.settings, dir_eq besideSinks.settings, runningSinks, besideProbes.sinks,
          ← runningSinks, runsSinks]
        exact tracks_reconciled (reload_diff _ _ _ _) settled.sinks leftSinks goneSinks gotSinks
      · change Tracks (files (probePhase (sinkPhase d o next) o next).loader.pluginDir _ _)
          (runningProbes (probePhase (sinkPhase d o next) o next))
        rw [dir_eq besideProbes.settings, runsProbes]
        exact tracks_reconciled (reload_diff _ _ _ _) probesBefore leftProbes goneProbes gotProbes

/-- The sink loop of `start`. -/
theorem start_sinks_loop (d : Daemon) (o : Outcomes) :
    BesideSinks d (d.startSinks o) ∧ ∃ new,
      new.Sublist (d.config.sinks.toList.map fun entry =>
        (entry.1, pluginPath d.loader.pluginDir (ascii "sink") (pluginOf entry.1 entry.2))) ∧
      runningSinks (d.startSinks o) = runningSinks d ++ new := by
  have frame : ∀ d (entry : Bytes × ComponentConfig), BesideSinks d (d.addSink o entry.1 entry.2) :=
    fun d entry => add_sink_frame d o entry.1 entry.2
  have keeps : ∀ (d' : Daemon) (entry : Bytes × ComponentConfig), d'.loader.pluginDir = d.loader.pluginDir →
      (d'.addSink o entry.1 entry.2).loader.pluginDir = d.loader.pluginDir :=
    fun d' entry same => (dir_eq (frame d' entry).settings).trans same
  refine ⟨foldl_related .refl .trans frame _ d, foldl_adds keeps ?_ _ d rfl⟩
  intro d' entry same
  have adds := running_add_sink d' o entry.1 entry.2
  rw [fileOf, same] at adds
  exact adds

/-- The probe loop of `start`. -/
theorem start_probes_loop (d : Daemon) (o : Outcomes) :
    BesideProbes d (d.startProbes o) ∧ (FreshRefs d → FreshRefs (d.startProbes o)) ∧ ∃ new,
      new.Sublist (d.config.probes.toList.map fun entry =>
        (entry.1, pluginPath d.loader.pluginDir (ascii "probe") (pluginOf entry.1 entry.2))) ∧
      runningProbes (d.startProbes o) = runningProbes d ++ new := by
  have frame : ∀ d (entry : Bytes × ComponentConfig), BesideProbes d (d.addProbe o entry.1 entry.2) :=
    fun d entry => add_probe_frame d o entry.1 entry.2
  have keeps : ∀ (d' : Daemon) (entry : Bytes × ComponentConfig), d'.loader.pluginDir = d.loader.pluginDir →
      (d'.addProbe o entry.1 entry.2).loader.pluginDir = d.loader.pluginDir :=
    fun d' entry same => (dir_eq (frame d' entry).settings).trans same
  refine ⟨foldl_related .refl .trans frame _ d, ?_, ?_⟩
  · exact foldl_related (R := fun d d' => FreshRefs d → FreshRefs d') (fun _ held => held)
      (fun first second held => second (first held))
      (fun d entry held => fresh_refs_add_probe held o entry.1 entry.2) _ d
  · refine foldl_adds keeps ?_ _ d rfl
    intro d' entry same
    have adds := running_add_probe d' o entry.1 entry.2
    rw [fileOf, same] at adds
    exact adds

theorem settled_start {d : Daemon} {env : StartOutcomes} (up : (start d env).1 = true)
    (empty : d.sinks = [] ∧ d.probes = []) :
    Settled (start d env).2 (start d env).2.config.sinks (start d env).2.config.probes := by
  obtain ⟨resolver, -, -, result, -⟩ := start_true up
  rw [result]
  obtain ⟨besideSinks, newSinks, gotSinks, runsSinks⟩ :=
    start_sinks_loop { d with resolver := some resolver } env.toOutcomes
  generalize startSinks { d with resolver := some resolver } env.toOutcomes = sinksUp at *
  obtain ⟨besideProbes, fresh, newProbes, gotProbes, runsProbes⟩ :=
    start_probes_loop (watched (piped sinksUp env.now)) env.toOutcomes
  have middle : settings (watched (piped sinksUp env.now)) = { settings sinksUp with cgroupWatcher := true } ∧
      (watched (piped sinksUp env.now)).sinks = sinksUp.sinks ∧
      (watched (piped sinksUp env.now)).probes = sinksUp.probes := by
    simp [watched, piped, settings]
  obtain ⟨settingsMid, sinksMid, probesMid⟩ := middle
  have noProbes : (watched (piped sinksUp env.now)).probes = [] :=
    probesMid.trans (besideSinks.probes.trans empty.2)
  have dirMid := congrArg Settings.pluginDir settingsMid
  have configMid := congrArg Settings.config settingsMid
  simp only [settings] at dirMid configMid
  rw [config_eq besideProbes.settings]
  refine ⟨?_, ?_, fresh ⟨by rw [ptrs, noProbes]; exact List.nodup_nil, by rw [noProbes]; simp⟩⟩
  · have none_running : runningSinks { d with resolver := some resolver } = [] := by
      rw [runningSinks, empty.1]
      rfl
    rw [dir_eq besideProbes.settings, dirMid, dir_eq besideSinks.settings, configMid,
      config_eq besideSinks.settings, runningSinks, besideProbes.sinks, sinksMid, ← runningSinks, runsSinks,
      none_running]
    exact tracks_reconciled (start_diff _ _ _) (tracks_nil _) (List.Sublist.refl _) (by simp) gotSinks
  · have none_running : runningProbes (watched (piped sinksUp env.now)) = [] := by
      rw [runningProbes, noProbes]
      rfl
    rw [dir_eq besideProbes.settings, runsProbes, none_running]
    exact tracks_reconciled (start_diff _ _ _) (tracks_nil _) (List.Sublist.refl _) (by simp) gotProbes

theorem settled_act {d : Daemon} (settled : Settled d d.config.sinks d.config.probes) (a : Act) :
    Settled (act d a) (act d a).config.sinks (act d a).config.probes := by
  cases a with
  | emit out bootOffsetNs passwd r =>
    obtain ⟨pipeline, resolver, shipments, is⟩ := emit_effect d out bootOffsetNs passwd r
    rw [act, is]
    exact ⟨settled.sinks, settled.probes, ⟨settled.fresh.unique, settled.fresh.below⟩⟩
  | tick monotonicNs now =>
    obtain ⟨pipeline, resolver, shipments, is⟩ := tick_effect d monotonicNs now
    rw [act, is]
    exact ⟨settled.sinks, settled.probes, ⟨settled.fresh.unique, settled.fresh.below⟩⟩
  | reload o loaded => exact settled_reload settled o loaded

/-- In every reachable daemon, what runs is within the committed
configuration. -/
theorem settled_reached {d : Daemon} (reached : Reached d) : Settled d d.config.sinks d.config.probes := by
  induction reached with
  | started config configPath env up => exact settled_start up ⟨rfl, rfl⟩
  | acted d a before ih => exact settled_act ih a

/-! ### A node on which everything works -/

/-- A cgroup mount with nothing but its root. -/
def bareTree : CgroupTree where
  nodes := [⟨[], 1, true, .dir, 0⟩]
  pathsDistinct := by decide
  inosDistinct := by decide
  parents := by simp
  names := by simp
  types := by simp

/-- Everything that is tried succeeds. -/
def allSucceed : Outcomes where
  sink := fun _ => .built .null
  probe := fun _ => .built true
  stages := fun _ => ⟨true, true, true, true⟩
  rearm := fun _ _ => true

/-- The same for a whole start. -/
def allUp : StartOutcomes where
  toOutcomes := allSucceed
  cgroupRoot := some []
  tree := bareTree
  bootOffsetNs := 0
  now := 0
  reserves := fun records => records ≤ 0x40000000000000
  watcher := ⟨true, true, true, true⟩

end SlurmTracer.DaemonRuns
