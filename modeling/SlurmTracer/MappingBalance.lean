import SlurmTracer.DaemonRuns
import SlurmTracer.Lib.Lifetimes

/-!
Plugin mappings. The loader keeps the handles, the daemon the components, and
only the ids connect them. At every return to the main loop the two agree, the
references open on a file are those of its running instances, and up to that
point no handle was closed twice, lost, or closed under something that lives in
its mapping (`mappings_balanced`).
-/
namespace SlurmTracer.MappingBalance
open SlurmTracer.Core Lib Core.Daemon DaemonProofs DaemonRuns Lib.Lifetimes Lib.Reconcile ReloadDiff

/-- What runs code from a mapping: a registry with the plugin's factory in it,
or the component it made. -/
inductive Made where
  | registry | component
  deriving DecidableEq

def lifeOf : Event → Option (LifeEvent Handle Made)
  | .dlopen handle => some (.opened handle)
  | .dlclose handle => some (.closed handle)
  | .registryUp handle => some (.made .registry handle)
  | .registryDown handle => some (.gone .registry handle)
  | .constructed handle => some (.made .component handle)
  | .destroyed handle => some (.gone .component handle)
  | .detached _ | .rearmFailed _ | .shipped _ | .flushed _ => none

/-- The lives of the handles in a trace. -/
def lives (trace : List Event) : List (LifeEvent Handle Made) := trace.filterMap lifeOf

/-- The running instances with their mappings. -/
def sinkEntries (d : Daemon) : List (Bytes × Handle) := d.sinks.map fun s => (s.id, s.home)

def probeEntries (d : Daemon) : List (Bytes × Handle) := d.probes.map fun p => (p.id, p.home)

/-- The mappings of the running instances. -/
def homes (d : Daemon) : List Handle := (sinkEntries d ++ probeEntries d).map Prod.snd

/-- A table of handles holds these entries, and no id occurs twice. -/
structure Agrees (handles : Std.TreeMap Bytes Handle) (entries : List (Bytes × Handle)) : Prop where
  unique : (entries.map Prod.fst).Nodup
  held : ∀ id handle, handles[id]? = some handle ↔ (id, handle) ∈ entries

/-- What is open of a plugin's file, and what runs of it. -/
def Counted (opened : List Handle) (dir kind : Bytes) (entries : List (Bytes × Handle)) : Prop :=
  ∀ plugin, opened.countP (·.path = pluginPath dir kind plugin) =
    entries.countP (·.2.path = pluginPath dir kind plugin)

structure Balanced (d : Daemon) : Prop where
  /-- `sink_handles_` against `sinks_`. -/
  sinks : Agrees d.loader.sinkHandles (sinkEntries d)
  /-- `probe_handles_` against `probes_`. -/
  probes : Agrees d.loader.probeHandles (probeEntries d)
  /-- Everything up to now kept to the lives of the handles. Those still open
  are the running instances', so none was lost by overwriting it. -/
  kept : ∃ w, replay {} (lives d.trace) = some w ∧ w.opened.Perm (homes d) ∧
    w.alive.Perm ((homes d).map (Made.component, ·)) ∧
    Counted w.opened d.loader.pluginDir (ascii "sink") (sinkEntries d) ∧
    Counted w.opened d.loader.pluginDir (ascii "probe") (probeEntries d)

/-! ### Tables of handles -/

variable {handles : Std.TreeMap Bytes Handle} {entries entries' : List (Bytes × Handle)} {id : Bytes} {handle : Handle}

theorem agrees_insert (agrees : Agrees handles entries) (fresh : id ∉ entries.map Prod.fst) (handle : Handle) :
    Agrees (handles.insert id handle) (entries ++ [(id, handle)]) where
  unique := by
    rw [List.map_append]
    exact Keyed.nodup_snoc agrees.unique fresh
  held := by
    intro key other
    rw [Keyed.lookup_after_insert, List.mem_append, List.mem_singleton, ← agrees.held, Prod.mk.injEq]
    by_cases same : key = id
    · subst same
      have absent : handles[key]? ≠ some other :=
        fun held => fresh (List.mem_map_of_mem ((agrees.held _ _).mp held))
      rw [if_pos rfl]
      simp only [absent, Option.some.injEq, true_and, false_or]
      exact eq_comm
    · rw [if_neg same]
      simp [same]

theorem agrees_erase (agrees : Agrees handles entries) (left : entries.Perm ((id, handle) :: entries')) :
    Agrees (handles.erase id) entries' := by
  obtain ⟨absent, unique⟩ := List.nodup_cons.mp ((left.map Prod.fst).nodup_iff.mp agrees.unique)
  refine ⟨unique, fun key other => ?_⟩
  rw [Keyed.lookup_after_erase]
  by_cases same : key = id
  · subst same
    rw [if_pos rfl]
    exact ⟨nofun, fun member => absurd (List.mem_map_of_mem member) absent⟩
  · rw [if_neg same, agrees.held, left.mem_iff, List.mem_cons, Prod.mk.injEq]
    simp [same]

/-! ### The loader beside what was made with it -/

/-- The trace leaves these handles open, each with its component. -/
def Living (trace : List Event) (hs : List Handle) : Prop :=
  ∃ w, replay {} (lives trace) = some w ∧ Holds Made.component w hs

/-- The loader and the trace account for these instances. -/
structure Accounts (loader : PluginLoader) (sinks probes : List (Bytes × Handle)) (trace : List Event) : Prop where
  sinkTable : Agrees loader.sinkHandles sinks
  probeTable : Agrees loader.probeHandles probes
  living : Living trace ((sinks ++ probes).map Prod.snd)
  below : ∀ e ∈ sinks ++ probes, e.2.ref < loader.nextRef

variable {trace : List Event} {hs hs' : List Handle} {loader : PluginLoader}
  {sinks sinks' probes probes' : List (Bytes × Handle)}

theorem living_append (living : Living trace hs) (events : List Event)
    (rest : ∀ w, Holds Made.component w hs → ∃ w', replay w (lives events) = some w' ∧ Holds Made.component w' hs') :
    Living (trace ++ events) hs' := by
  obtain ⟨w, ran, holds⟩ := living
  obtain ⟨w', ran', holds'⟩ := rest w holds
  refine ⟨w', ?_, holds'⟩
  rw [lives, List.filterMap_append, ← lives, replay_append ran]
  exact ran'

/-- Events that are no business of a handle. -/
theorem Accounts.silent (accounts : Accounts loader sinks probes trace) {events : List Event}
    (silent : lives events = []) : Accounts loader sinks probes (trace ++ events) := by
  refine { accounts with living := living_append accounts.living events fun w holds => ⟨w, ?_, holds⟩ }
  rw [silent]
  rfl

/-- The handle the next `dlopen` gives out. -/
def nextHandle (loader : PluginLoader) (path : Bytes) : Handle := ⟨path, loader.nextRef⟩

theorem Accounts.fresh (accounts : Accounts loader sinks probes trace) (path : Bytes) :
    nextHandle loader path ∉ (sinks ++ probes).map Prod.snd := by
  intro member
  obtain ⟨e, member, same⟩ := List.mem_map.mp member
  have below := accounts.below e member
  rw [same] at below
  exact Nat.lt_irrefl _ below

/-- A load that fails closes what it opened. -/
theorem Accounts.fails (accounts : Accounts loader sinks probes trace) (path : Bytes) {events : List Event}
    (failed : events = [.dlopen (nextHandle loader path), .dlclose (nextHandle loader path)] ∨
      events = [.dlopen (nextHandle loader path), .registryUp (nextHandle loader path),
        .registryDown (nextHandle loader path), .dlclose (nextHandle loader path)]) :
    Accounts { loader with nextRef := loader.nextRef + 1 } sinks probes (trace ++ events) where
  sinkTable := accounts.sinkTable
  probeTable := accounts.probeTable
  living := by
    have fresh := accounts.fresh path
    apply living_append accounts.living events
    intro w holds
    rcases failed with rfl | rfl
    · exact holds.useless fresh
    · exact holds.fruitless fresh .registry
  below := fun e member => Nat.lt_succ_of_lt (accounts.below e member)

/-- The events of a load that succeeds. -/
def loaded (handle : Handle) : List Event :=
  [.dlopen handle, .registryUp handle, .constructed handle, .registryDown handle]

private theorem living_comes (accounts : Accounts loader sinks probes trace) (path : Bytes)
    (shape : hs.Perm (nextHandle loader path :: (sinks ++ probes).map Prod.snd)) :
    Living (trace ++ loaded (nextHandle loader path)) hs := by
  apply living_append accounts.living _
  intro w holds
  obtain ⟨w', ran, holds'⟩ := holds.comes (accounts.fresh path) .registry
  exact ⟨w', ran, holds'.perm shape.symm⟩

theorem Accounts.sink_comes (accounts : Accounts loader sinks probes trace) (path : Bytes)
    (fresh : id ∉ sinks.map Prod.fst) :
    Accounts { loader with nextRef := loader.nextRef + 1
                           sinkHandles := loader.sinkHandles.insert id (nextHandle loader path) }
      (sinks ++ [(id, nextHandle loader path)]) probes (trace ++ loaded (nextHandle loader path)) := by
  have shape :
      (sinks ++ [(id, nextHandle loader path)] ++ probes).Perm
        ((id, nextHandle loader path) :: (sinks ++ probes)) := by
    rw [List.append_assoc, List.singleton_append]
    exact List.perm_middle
  refine ⟨agrees_insert accounts.sinkTable fresh _, accounts.probeTable,
    living_comes accounts path (shape.map _), ?_⟩
  intro e member
  rcases List.mem_cons.mp (shape.subset member) with rfl | old
  · exact Nat.lt_succ_self _
  · exact Nat.lt_succ_of_lt (accounts.below e old)

theorem Accounts.probe_comes (accounts : Accounts loader sinks probes trace) (path : Bytes)
    (fresh : id ∉ probes.map Prod.fst) :
    Accounts { loader with nextRef := loader.nextRef + 1
                           probeHandles := loader.probeHandles.insert id (nextHandle loader path) }
      sinks (probes ++ [(id, nextHandle loader path)]) (trace ++ loaded (nextHandle loader path)) := by
  have shape :
      (sinks ++ (probes ++ [(id, nextHandle loader path)])).Perm
        ((id, nextHandle loader path) :: (sinks ++ probes)) := by
    rw [← List.append_assoc]
    exact List.perm_append_singleton _ _
  refine ⟨accounts.sinkTable, agrees_insert accounts.probeTable fresh _,
    living_comes accounts path (shape.map _), ?_⟩
  intro e member
  rcases List.mem_cons.mp (shape.subset member) with rfl | old
  · exact Nat.lt_succ_self _
  · exact Nat.lt_succ_of_lt (accounts.below e old)

private theorem living_leaves (living : Living trace hs) (left : hs.Perm (handle :: hs')) :
    Living (trace ++ [.destroyed handle, .dlclose handle]) hs' := by
  apply living_append living _
  intro w holds
  obtain ⟨w', ran, holds'⟩ := holds.leaves (left.symm.subset List.mem_cons_self)
  refine ⟨w', ran, holds'.perm ?_⟩
  simpa using left.erase handle

theorem Accounts.sink_leaves (accounts : Accounts loader sinks probes trace)
    (left : sinks.Perm ((id, handle) :: sinks')) :
    Accounts { loader with sinkHandles := loader.sinkHandles.erase id } sinks' probes
      (trace ++ [.destroyed handle, .dlclose handle]) := by
  have whole : (sinks ++ probes).Perm ((id, handle) :: (sinks' ++ probes)) := left.append_right probes
  refine ⟨agrees_erase accounts.sinkTable left, accounts.probeTable,
    living_leaves accounts.living (whole.map _), ?_⟩
  exact fun e member => accounts.below e (whole.symm.subset (List.mem_cons_of_mem _ member))

theorem Accounts.probe_leaves (accounts : Accounts loader sinks probes trace)
    (left : probes.Perm ((id, handle) :: probes')) :
    Accounts { loader with probeHandles := loader.probeHandles.erase id } sinks probes'
      (trace ++ [.destroyed handle, .dlclose handle]) := by
  have whole : (sinks ++ probes).Perm ((id, handle) :: (sinks ++ probes')) :=
    (left.append_left sinks).trans List.perm_middle
  refine ⟨accounts.sinkTable, agrees_erase accounts.probeTable left,
    living_leaves accounts.living (whole.map _), ?_⟩
  exact fun e member => accounts.below e (whole.symm.subset (List.mem_cons_of_mem _ member))

/-! ### The daemon's operations -/

/-- The loader and the trace account for what the daemon lists. -/
def Mapped (d : Daemon) : Prop := Accounts d.loader (sinkEntries d) (probeEntries d) d.trace

theorem mapped_add_sink {d : Daemon} (mapped : Mapped d) (o : Outcomes) {id : Bytes}
    (fresh : id ∉ d.sinks.map LoadedSink.id) (config : ComponentConfig) : Mapped (d.addSink o id config) := by
  have fresh' : id ∉ (sinkEntries d).map Prod.fst := by rwa [sinkEntries, List.map_map]
  unfold addSink PluginLoader.loadSink PluginLoader.openPlugin
  cases o.sink id with
  | noFile =>
    simp only [Mapped, List.append_nil]
    exact mapped
  | noSymbol => exact mapped.fails _ (Or.inl rfl)
  | registersElse => exact mapped.fails _ (Or.inr rfl)
  | rejected => exact mapped.fails _ (Or.inr rfl)
  | built kind =>
    have comes := mapped.sink_comes (pluginPath d.loader.pluginDir (ascii "sink") (pluginOf id config)) fresh'
    simp only [Mapped, sinkEntries, probeEntries, wire_sinks_loader, wire_sinks_sinks, wire_sinks_probes,
      wire_sinks_trace, List.map_append]
    exact comes

/-- The loader closes the handle it keeps for an instance. -/
private theorem closes (agrees : Agrees handles entries) (left : entries.Perm ((id, handle) :: entries')) :
    PluginLoader.closeHandle handles id = ([.dlclose handle], handles.erase id) := by
  have held := (agrees.held id handle).mpr (left.symm.subset List.mem_cons_self)
  rw [PluginLoader.closeHandle, held]

theorem mapped_remove_sink {d : Daemon} (mapped : Mapped d) (id : Bytes) : Mapped (d.removeSink id) := by
  unfold removeSink unlinkSink
  cases search : d.sinks.find? (·.id = id) with
  | none => exact mapped
  | some doomed =>
    have left : (sinkEntries d).Perm ((doomed.id, doomed.home) :: (d.sinks.erase doomed).map fun s => (s.id, s.home)) :=
      (List.perm_cons_erase (List.mem_of_find?_eq_some search)).map _
    have quiet : lives [.flushed doomed.ref] = [] := rfl
    have leaves := (mapped.silent quiet).sink_leaves left
    rw [List.append_assoc] at leaves
    simp only [Mapped, discardSink, PluginLoader.unloadSink, wire_sinks_loader, wire_sinks_trace,
      closes mapped.sinkTable left, sinkEntries, probeEntries, wire_sinks_sinks, wire_sinks_probes]
    exact leaves

/-- A probe that is not listed any more, or not yet, goes with its mapping. -/
theorem mapped_discard_probe {d : Daemon} {probe : LoadedProbe}
    (accounts : Accounts d.loader (sinkEntries d) probes d.trace)
    (left : probes.Perm ((probe.id, probe.home) :: probeEntries d)) : Mapped (d.discardProbe probe) := by
  simp only [Mapped, discardProbe, PluginLoader.unloadProbe, closes accounts.probeTable left]
  exact accounts.probe_leaves left

theorem mapped_add_probe {d : Daemon} (mapped : Mapped d) (o : Outcomes) {id : Bytes}
    (fresh : id ∉ d.probes.map LoadedProbe.id) (config : ComponentConfig) : Mapped (d.addProbe o id config) := by
  have fresh' : id ∉ (probeEntries d).map Prod.fst := by rwa [probeEntries, List.map_map]
  unfold addProbe PluginLoader.loadProbe PluginLoader.openPlugin
  cases o.probe id with
  | noFile =>
    simp only [Mapped, List.append_nil]
    exact mapped
  | noSymbol => exact mapped.fails _ (Or.inl rfl)
  | registersElse => exact mapped.fails _ (Or.inr rfl)
  | rejected => exact mapped.fails _ (Or.inr rfl)
  | built offersRing =>
    have comes := mapped.probe_comes (pluginPath d.loader.pluginDir (ascii "probe") (pluginOf id config)) fresh'
    have last := List.perm_append_singleton (id, nextHandle d.loader
      (pluginPath d.loader.pluginDir (ascii "probe") (pluginOf id config))) (probeEntries d)
    simp only
    split
    · exact mapped_discard_probe comes last
    · split
      · exact mapped_discard_probe (comes.silent (by rfl)) last
      · simp only [Mapped, sinkEntries, probeEntries, List.map_append]
        exact comes

theorem mapped_forget_probe {d : Daemon} (mapped : Mapped d) {probe : LoadedProbe} (member : probe ∈ d.probes) :
    Mapped (d.forgetProbe probe) := by
  have quiet : lives [.detached probe.ptr] = [] := rfl
  exact mapped_discard_probe (mapped.silent quiet) ((List.perm_cons_erase member).map _)

theorem mapped_forget_dropped {d : Daemon} (mapped : Mapped d) (dead : ProbePtr) :
    Mapped (d.forgetDropped dead) := by
  unfold forgetDropped
  cases search : d.probes.find? (·.ptr = dead) with
  | none => exact mapped
  | some probe => exact mapped_forget_probe mapped (List.mem_of_find?_eq_some search)

theorem mapped_remove_probe {d : Daemon} (mapped : Mapped d) (o : Outcomes) (id : Bytes) :
    Mapped (d.removeProbe o id) := by
  unfold removeProbe
  cases search : d.probes.find? (·.id = id) with
  | none => exact mapped
  | some probe =>
    have silent : lives ((d.loop.remove probe.ptr (o.rearm id)).1.map .rearmFailed) = [] := by
      rw [lives, List.filterMap_map]
      exact List.filterMap_eq_nil_iff.mpr fun _ _ => rfl
    have reported := mapped.silent silent
    refine foldl_related (R := fun d d' => Mapped d → Mapped d') (fun _ mapped => mapped)
      (fun first second mapped => second (first mapped)) (fun d dead mapped => mapped_forget_dropped mapped dead)
      _ _ (mapped_forget_probe ?_ (List.mem_of_find?_eq_some search))
    exact reported

/-! ### Runs -/

/-- An id the diff adds and does not remove was not asked for. -/
private theorem added_unasked {these others : Components} {id : Bytes} (added : id ∈ diffLoop these others)
    (kept : id ∉ diffLoop others these) : others[id]? = none := by
  obtain ⟨config, there, differs⟩ := (mem_diff_loop these others id).mp added
  by_contra held
  obtain ⟨other, held⟩ := Option.ne_none_iff_exists'.mp held
  refine kept ((mem_diff_loop others these id).mpr ⟨other, held, fun config' there' => ?_⟩)
  rw [there] at there'
  cases there'
  exact (differs other held).symm

private theorem add_sink_ids (d : Daemon) (o : Outcomes) (id : Bytes) (config : ComponentConfig) (other : Bytes)
    (runs : other ∈ (d.addSink o id config).sinks.map LoadedSink.id) :
    other ∈ d.sinks.map LoadedSink.id ∨ other = id := by
  have ids : ∀ d : Daemon, d.sinks.map LoadedSink.id = (runningSinks d).map Prod.fst := by simp [runningSinks]
  rw [ids] at runs ⊢
  exact key_grows (running_add_sink d o id config) runs

private theorem add_probe_ids (d : Daemon) (o : Outcomes) (id : Bytes) (config : ComponentConfig) (other : Bytes)
    (runs : other ∈ (d.addProbe o id config).probes.map LoadedProbe.id) :
    other ∈ d.probes.map LoadedProbe.id ∨ other = id := by
  have ids : ∀ d : Daemon, d.probes.map LoadedProbe.id = (runningProbes d).map Prod.fst := by simp [runningProbes]
  rw [ids] at runs ⊢
  exact key_grows (running_add_probe d o id config) runs

theorem mapped_sink_phase {d : Daemon} (mapped : Mapped d)
    (tracks : Tracks (files d.loader.pluginDir (ascii "sink") d.config.sinks) (runningSinks d)) (o : Outcomes)
    (next : Config) : Mapped (sinkPhase d o next) := by
  obtain ⟨-, -, left⟩ := remove_sinks_loop (diffLoop d.config.sinks next.sinks) (unique_ids tracks)
  have removed := foldl_related (R := fun d d' => Mapped d → Mapped d') (fun _ mapped => mapped)
    (fun first second mapped => second (first mapped)) (fun d id mapped => mapped_remove_sink mapped id)
    (diffLoop d.config.sinks next.sinks) d mapped
  refine foldl_fresh (fun d => d.sinks.map LoadedSink.id) id ?_ ?_ ?_ removed ?_
  · intro d id mapped fresh
    unfold addSinkFrom
    cases next.sinks[id]? with
    | none => exact mapped
    | some config => exact mapped_add_sink mapped o fresh config
  · intro d id other runs
    unfold addSinkFrom at runs
    split at runs
    · exact Or.inl runs
    · exact add_sink_ids d o id _ other runs
  · rw [List.map_id]
    exact diff_loop_nodup _ _
  · intro id added member
    obtain ⟨s, present, rfl⟩ := List.mem_map.mp member
    obtain ⟨ran, spared⟩ := (left s).mp present
    obtain ⟨config, asked, -⟩ := asked_of_tracks tracks (List.mem_map_of_mem ran)
    cases (added_unasked added spared).symm.trans asked

theorem mapped_probe_phase {d : Daemon} (mapped : Mapped d)
    (tracks : Tracks (files d.loader.pluginDir (ascii "probe") d.config.probes) (runningProbes d))
    (refs : FreshRefs d) (o : Outcomes) (next : Config) : Mapped (probePhase d o next) := by
  obtain ⟨-, left, gone, -⟩ :=
    remove_probes_loop o (diffLoop d.config.probes next.probes) (unique_probe_ids tracks) refs.unique
  have removed := foldl_related (R := fun d d' => Mapped d → Mapped d') (fun _ mapped => mapped)
    (fun first second mapped => second (first mapped)) (fun d id mapped => mapped_remove_probe mapped o id)
    (diffLoop d.config.probes next.probes) d mapped
  refine foldl_fresh (fun d => d.probes.map LoadedProbe.id) id ?_ ?_ ?_ removed ?_
  · intro d id mapped fresh
    unfold addProbeFrom
    cases next.probes[id]? with
    | none => exact mapped
    | some config => exact mapped_add_probe mapped o fresh config
  · intro d id other runs
    unfold addProbeFrom at runs
    split at runs
    · exact Or.inl runs
    · exact add_probe_ids d o id _ other runs
  · rw [List.map_id]
    exact diff_loop_nodup _ _
  · intro id added member
    obtain ⟨p, present, rfl⟩ := List.mem_map.mp member
    obtain ⟨config, asked, -⟩ := asked_of_tracks tracks (List.mem_map_of_mem (left.subset present))
    cases (added_unasked added (gone p present)).symm.trans asked

theorem mapped_start_sinks {d : Daemon} (mapped : Mapped d) (empty : d.sinks = []) (o : Outcomes) :
    Mapped (d.startSinks o) := by
  unfold startSinks
  refine foldl_fresh (fun d => d.sinks.map LoadedSink.id) Prod.fst (fun d entry mapped fresh => ?_)
    (fun d entry other runs => ?_) (keys_nodup _) mapped ?_
  · exact mapped_add_sink mapped o fresh entry.2
  · exact add_sink_ids d o entry.1 entry.2 other runs
  · simp [empty]

theorem mapped_start_probes {d : Daemon} (mapped : Mapped d) (empty : d.probes = []) (o : Outcomes) :
    Mapped (d.startProbes o) := by
  unfold startProbes
  refine foldl_fresh (fun d => d.probes.map LoadedProbe.id) Prod.fst (fun d entry mapped fresh => ?_)
    (fun d entry other runs => ?_) (keys_nodup _) mapped ?_
  · exact mapped_add_probe mapped o fresh entry.2
  · exact add_probe_ids d o entry.1 entry.2 other runs
  · simp [empty]

private theorem mapped_new (config : Config) (configPath : Bytes) : Mapped (.new config configPath) where
  sinkTable := ⟨List.nodup_nil, by simp [Daemon.new, sinkEntries]⟩
  probeTable := ⟨List.nodup_nil, by simp [Daemon.new, probeEntries]⟩
  living := ⟨{}, rfl, holds_empty⟩
  below := nofun

theorem mapped_start {config : Config} {configPath : Bytes} {env : StartOutcomes}
    (up : (start (.new config configPath) env).1 = true) : Mapped (start (.new config configPath) env).2 := by
  obtain ⟨resolver, -, -, result, -⟩ := start_true up
  rw [result]
  have none : Mapped { Daemon.new config configPath with resolver := some resolver } :=
    mapped_new config configPath
  have sinksUp := mapped_start_sinks none rfl env.toOutcomes
  have beside :=
    (start_sinks_loop { Daemon.new config configPath with resolver := some resolver } env.toOutcomes).1
  generalize startSinks { Daemon.new config configPath with resolver := some resolver } env.toOutcomes = d at *
  have ready : Mapped (watched (piped d env.now)) := by
    simp only [Mapped, watched, piped, sinkEntries, probeEntries, wire_sinks_loader, wire_sinks_sinks,
      wire_sinks_probes, wire_sinks_trace]
    exact sinksUp
  refine mapped_start_probes ready ?_ _
  simp only [watched, piped, wire_sinks_probes, beside.probes]
  rfl

theorem mapped_reload {d : Daemon} (mapped : Mapped d) (settled : Settled d d.config.sinks d.config.probes)
    (o : Outcomes) (loaded : Option Config) : Mapped (d.reloadConfig o loaded) := by
  by_cases noPath : d.configPath = []
  · simp only [reloadConfig, if_pos noPath]
    exact mapped
  cases loaded with
  | none =>
    simp only [reloadConfig, if_neg noPath]
    exact mapped
  | some next =>
    by_cases accepted : diffForReload d.config next = none
    · simp only [reloadConfig, if_neg noPath, accepted]
      exact mapped
    · rw [reload_accepted noPath accepted]
      have beside := sink_phase_frame d o next
      have tracks : Tracks (files (sinkPhase d o next).loader.pluginDir (ascii "probe")
          (sinkPhase d o next).config.probes) (runningProbes (sinkPhase d o next)) := by
        rw [dir_eq beside.settings, config_eq beside.settings, runningProbes, beside.probes]
        exact settled.probes
      exact mapped_probe_phase (mapped_sink_phase mapped settled.sinks o next) tracks
        (fresh_refs_sublist settled.fresh (by rw [beside.probes]) beside.nextRef) o next

/-- Nothing that reaches a sink is the business of a handle. -/
private theorem shipments_silent (shipments : List Shipment) : lives (shipments.map .shipped) = [] := by
  rw [lives, List.filterMap_map]
  exact List.filterMap_eq_nil_iff.mpr fun _ _ => rfl

theorem mapped_reached {d : Daemon} (reached : Reached d) : Mapped d := by
  induction reached with
  | started config configPath env up => exact mapped_start up
  | acted d a before mapped =>
    cases a with
    | emit out bootOffsetNs passwd r =>
      obtain ⟨pipeline, resolver, shipments, is⟩ := emit_effect d out bootOffsetNs passwd r
      rw [act, is]
      exact mapped.silent (shipments_silent shipments)
    | tick monotonicNs now =>
      obtain ⟨pipeline, resolver, shipments, is⟩ := tick_effect d monotonicNs now
      rw [act, is]
      exact mapped.silent (shipments_silent shipments)
    | reload o loaded => exact mapped_reload mapped (settled_reached before) o loaded

/-! ### Counting -/

private theorem count_homes (d : Daemon) (path : Bytes) : (homes d).countP (·.path = path) =
    (sinkEntries d).countP (·.2.path = path) + (probeEntries d).countP (·.2.path = path) := by
  rw [homes, List.countP_map, List.countP_append]
  rfl

theorem counted_sinks {d : Daemon} (settled : Settled d d.config.sinks d.config.probes) :
    Counted (homes d) d.loader.pluginDir (ascii "sink") (sinkEntries d) := by
  intro plugin
  have noProbe : (probeEntries d).countP (·.2.path = pluginPath d.loader.pluginDir (ascii "sink") plugin) = 0 := by
    apply List.countP_eq_zero.mpr
    intro e member same
    obtain ⟨p, present, rfl⟩ := List.mem_map.mp member
    exact kinds_apart ⟨plugin, of_decide_eq_true same⟩ (probe_file settled present)
  rw [count_homes, noProbe, Nat.add_zero]

theorem counted_probes {d : Daemon} (settled : Settled d d.config.sinks d.config.probes) :
    Counted (homes d) d.loader.pluginDir (ascii "probe") (probeEntries d) := by
  intro plugin
  have noSink : (sinkEntries d).countP (·.2.path = pluginPath d.loader.pluginDir (ascii "probe") plugin) = 0 := by
    apply List.countP_eq_zero.mpr
    intro e member same
    obtain ⟨s, present, rfl⟩ := List.mem_map.mp member
    exact kinds_apart (sink_file settled present) ⟨plugin, of_decide_eq_true same⟩
  rw [count_homes, noSink, Nat.zero_add]

/-- Whatever fails on the way, a daemon in its main loop has the mappings of
its running instances open, each once, and no others. -/
theorem mappings_balanced {d : Daemon} (reached : Reached d) : Balanced d := by
  have mapped := mapped_reached reached
  have settled := settled_reached reached
  obtain ⟨w, ran, holds⟩ := mapped.living
  refine ⟨mapped.sinkTable, mapped.probeTable, w, ran, holds.opened, holds.alive, ?_, ?_⟩
  · exact fun plugin => (holds.opened.countP_eq _).trans (counted_sinks settled plugin)
  · exact fun plugin => (holds.opened.countP_eq _).trans (counted_probes settled plugin)

/-! ### Two instances of one file -/

/-- A sink, and a second instance of its plugin. -/
def mirrored : Config where
  pluginDir := ascii "plugins"
  sinks := .ofList [(ascii "null", ComponentConfig.mk ∅),
    (ascii "spare", (ComponentConfig.mk ∅).set (ascii "plugin") (ascii "null"))]
  probes := .ofList [(ascii "oom", ComponentConfig.mk ∅)]

/-- The spare is another plugin's now. -/
def repurposed : Config :=
  { mirrored with sinks := mirrored.sinks.insert (ascii "spare")
                    ((ComponentConfig.mk ∅).set (ascii "plugin") (ascii "http")) }

/-- The daemon that came up with one file and reloaded the other. -/
def reloaded : Daemon :=
  (start (.new mirrored (ascii "slurm-tracer.json")) allUp).2.reloadConfig allSucceed (some repurposed)

theorem mappings_balanced_reloaded : Balanced reloaded :=
  mappings_balanced (.acted _ (.reload allSucceed (some repurposed)) (.started _ _ allUp (by decide)))

end SlurmTracer.MappingBalance
