import Mathlib.Data.List.Nodup
import SlurmTracer.Core.Daemon
import SlurmTracer.EventLoopProofs

/-! What each of the daemon's operations does to its two lists of components,
and what it leaves alone. -/
namespace SlurmTracer.DaemonProofs
open SlurmTracer.Core Lib Core.Daemon

/-! ### Wiring -/

variable (d : Daemon)

@[simp] theorem wire_sinks_config : d.wireSinks.config = d.config := by unfold wireSinks; split <;> rfl
@[simp] theorem wire_sinks_config_path : d.wireSinks.configPath = d.configPath := by
  unfold wireSinks; split <;> rfl
@[simp] theorem wire_sinks_loader : d.wireSinks.loader = d.loader := by unfold wireSinks; split <;> rfl
@[simp] theorem wire_sinks_cgroup_watcher : d.wireSinks.cgroupWatcher = d.cgroupWatcher := by
  unfold wireSinks; split <;> rfl
@[simp] theorem wire_sinks_sinks : d.wireSinks.sinks = d.sinks := by unfold wireSinks; split <;> rfl
@[simp] theorem wire_sinks_probes : d.wireSinks.probes = d.probes := by unfold wireSinks; split <;> rfl
@[simp] theorem wire_sinks_loop : d.wireSinks.loop = d.loop := by unfold wireSinks; split <;> rfl
@[simp] theorem wire_sinks_trace : d.wireSinks.trace = d.trace := by unfold wireSinks; split <;> rfl
@[simp] theorem wire_sinks_resolver : d.wireSinks.resolver = d.resolver := by unfold wireSinks; split <;> rfl

theorem wire_sinks_pipeline :
    d.wireSinks.pipeline = d.pipeline.map fun p => p.setSinks (d.sinks.map LoadedSink.ref) := by
  unfold wireSinks
  cases piped : d.pipeline with
  | none => exact piped
  | some pipeline => rfl

/-- The part of a daemon no call on a component touches. -/
structure Settings where
  config : Config
  configPath : Bytes
  pluginDir : Bytes
  cgroupWatcher : Bool

def settings (d : Daemon) : Settings := ⟨d.config, d.configPath, d.loader.pluginDir, d.cgroupWatcher⟩

/-- What a call on the sinks leaves alone. -/
structure BesideSinks (d d' : Daemon) : Prop where
  settings : settings d' = settings d
  probes : d'.probes = d.probes
  loop : d'.loop = d.loop
  nextRef : d.loader.nextRef ≤ d'.loader.nextRef

/-- What a call on the probes leaves alone. -/
structure BesideProbes (d d' : Daemon) : Prop where
  settings : settings d' = settings d
  sinks : d'.sinks = d.sinks
  nextRef : d.loader.nextRef ≤ d'.loader.nextRef

theorem BesideSinks.refl (d : Daemon) : BesideSinks d d := ⟨rfl, rfl, rfl, Nat.le_refl _⟩

theorem BesideSinks.trans {a b c : Daemon} (first : BesideSinks a b) (second : BesideSinks b c) :
    BesideSinks a c :=
  ⟨second.settings.trans first.settings, second.probes.trans first.probes, second.loop.trans first.loop,
    Nat.le_trans first.nextRef second.nextRef⟩

theorem BesideProbes.refl (d : Daemon) : BesideProbes d d := ⟨rfl, rfl, Nat.le_refl _⟩

theorem BesideProbes.trans {a b c : Daemon} (first : BesideProbes a b) (second : BesideProbes b c) :
    BesideProbes a c :=
  ⟨second.settings.trans first.settings, second.sinks.trans first.sinks, Nat.le_trans first.nextRef second.nextRef⟩

/-! ### Sinks -/

/-- The file an instance of a component is built from. -/
def fileOf (d : Daemon) (kind id : Bytes) (config : ComponentConfig) : Bytes :=
  pluginPath d.loader.pluginDir kind (pluginOf id config)

variable {d}

/-- The sink one call of `add_sink` ends up with. -/
def builtSink (d : Daemon) (o : Outcomes) (id : Bytes) (config : ComponentConfig) : Option LoadedSink :=
  match o.sink id with
  | .built kind => some ⟨id, ⟨fileOf d (ascii "sink") id config, d.loader.nextRef⟩, kind⟩
  | _ => none

theorem add_sink_sinks (d : Daemon) (o : Outcomes) (id : Bytes) (config : ComponentConfig) :
    (d.addSink o id config).sinks = d.sinks ++ (builtSink d o id config).toList := by
  unfold addSink builtSink PluginLoader.loadSink PluginLoader.openPlugin
  cases o.sink id <;> simp [fileOf]

theorem add_sink_frame (d : Daemon) (o : Outcomes) (id : Bytes) (config : ComponentConfig) :
    BesideSinks d (d.addSink o id config) := by
  unfold addSink PluginLoader.loadSink PluginLoader.openPlugin
  cases o.sink id <;> constructor <;> simp [settings]

@[simp] theorem discard_sink_sinks (d : Daemon) (doomed : LoadedSink) : (d.discardSink doomed).sinks = d.sinks := rfl
@[simp] theorem discard_sink_next_ref (d : Daemon) (doomed : LoadedSink) :
    (d.discardSink doomed).loader.nextRef = d.loader.nextRef := rfl

/-- The first half of `remove_sink` takes the sink it finds off the list. -/
theorem unlink_sink_some {d d' : Daemon} {id : Bytes} {doomed : LoadedSink}
    (unlinked : d.unlinkSink id = some (doomed, d')) :
    doomed ∈ d.sinks ∧ doomed.id = id ∧ d'.sinks = d.sinks.erase doomed ∧ d'.loader = d.loader := by
  unfold unlinkSink at unlinked
  split at unlinked
  · cases unlinked
  · rename_i isIt
    cases unlinked
    exact ⟨List.mem_of_find?_eq_some isIt, by simpa using List.find?_some isIt, by simp, by simp⟩

theorem remove_sink_sublist (d : Daemon) (id : Bytes) : (d.removeSink id).sinks.Sublist d.sinks := by
  unfold removeSink
  cases unlinked : d.unlinkSink id with
  | none => exact List.Sublist.refl _
  | some found =>
    obtain ⟨doomed, left⟩ := found
    obtain ⟨-, -, sinks, -⟩ := unlink_sink_some unlinked
    rw [discard_sink_sinks, sinks]
    exact List.erase_sublist

theorem mem_remove_sink {d : Daemon} (unique : (d.sinks.map LoadedSink.id).Nodup) (id : Bytes)
    (s : LoadedSink) : s ∈ (d.removeSink id).sinks ↔ s ∈ d.sinks ∧ s.id ≠ id := by
  unfold removeSink unlinkSink
  cases search : d.sinks.find? (·.id = id) with
  | none =>
    have missing := List.find?_eq_none.mp search
    exact ⟨fun member => ⟨member, by simpa using missing s member⟩, And.left⟩
  | some doomed => simpa [discardSink] using Keyed.mem_erase_found unique search s

theorem remove_sink_frame (d : Daemon) (id : Bytes) : BesideSinks d (d.removeSink id) := by
  unfold removeSink unlinkSink
  cases d.sinks.find? (·.id = id) with
  | none => exact .refl d
  | some doomed => constructor <;> simp [discardSink, settings, PluginLoader.unloadSink]

/-! ### Probes -/

/-- The probe one call of `add_probe` ends up with. -/
def startedProbe (d : Daemon) (o : Outcomes) (id : Bytes) (config : ComponentConfig) :
    Option LoadedProbe :=
  match o.probe id with
  | .built offersRing =>
    let stages := o.stages id
    if stages.opened && stages.loaded && stages.attached && (!offersRing || stages.armed) then
      some ⟨id, ⟨fileOf d (ascii "probe") id config, d.loader.nextRef⟩, offersRing⟩
    else none
  | _ => none

@[simp] theorem discard_probe_probes (d : Daemon) (probe : LoadedProbe) :
    (d.discardProbe probe).probes = d.probes := rfl
@[simp] theorem discard_probe_sinks (d : Daemon) (probe : LoadedProbe) :
    (d.discardProbe probe).sinks = d.sinks := rfl
@[simp] theorem discard_probe_loop (d : Daemon) (probe : LoadedProbe) :
    (d.discardProbe probe).loop = d.loop := rfl
@[simp] theorem discard_probe_next_ref (d : Daemon) (probe : LoadedProbe) :
    (d.discardProbe probe).loader.nextRef = d.loader.nextRef := rfl
@[simp] theorem settings_discard_probe (d : Daemon) (probe : LoadedProbe) :
    settings (d.discardProbe probe) = settings d := rfl

/-- What `add_probe` comes to, once the loader's answer is known. -/
theorem add_probe_built {d : Daemon} {o : Outcomes} {id : Bytes} {offersRing : Bool}
    (built : o.probe id = .built offersRing) (config : ComponentConfig) :
    let stages := o.stages id
    let armed := d.loop.add (.probe d.loader.nextRef) (.instance id) offersRing stages.armed
    (d.addProbe o id config).probes = d.probes ++ (startedProbe d o id config).toList ∧
      (d.addProbe o id config).loop =
        (if stages.opened && stages.loaded && stages.attached then armed.2 else d.loop) ∧
      (d.addProbe o id config).loader.nextRef = d.loader.nextRef + 1 ∧
      (d.addProbe o id config).sinks = d.sinks ∧
      settings (d.addProbe o id config) = settings d := by
  have verdict := EventLoopProofs.add_fst d.loop (.probe d.loader.nextRef) (.instance id) offersRing
    (o.stages id).armed
  simp only [addProbe, PluginLoader.loadProbe, PluginLoader.openPlugin, built, LoadedProbe.ptr,
    startedProbe]
  by_cases staged : (o.stages id).opened && (o.stages id).loaded && (o.stages id).attached
  · rw [staged]
    simp only [Bool.true_and, Bool.not_true, Bool.false_eq_true, if_false, if_true]
    rcases added : d.loop.add (.probe d.loader.nextRef) (.instance id) offersRing (o.stages id).armed
      with ⟨_ | _, loop⟩ <;> rw [added] at verdict <;> simp only at verdict
    · simp [← verdict, settings, discardProbe, PluginLoader.unloadProbe]
    · simp [← verdict, settings, fileOf]
  · rw [Bool.not_eq_true] at staged
    rw [staged]
    simp [settings, discardProbe, PluginLoader.unloadProbe]

theorem add_probe_unbuilt {d : Daemon} {o : Outcomes} {id : Bytes}
    (unbuilt : ∀ offersRing, o.probe id ≠ .built offersRing) (config : ComponentConfig) :
    (d.addProbe o id config).probes = d.probes ∧ (d.addProbe o id config).loop = d.loop ∧
      d.loader.nextRef ≤ (d.addProbe o id config).loader.nextRef ∧
      (d.addProbe o id config).sinks = d.sinks ∧ settings (d.addProbe o id config) = settings d := by
  unfold addProbe PluginLoader.loadProbe PluginLoader.openPlugin
  cases outcome : o.probe id with
  | built offersRing => exact absurd outcome (unbuilt offersRing)
  | _ => simp [settings]

theorem add_probe_probes (d : Daemon) (o : Outcomes) (id : Bytes) (config : ComponentConfig) :
    (d.addProbe o id config).probes = d.probes ++ (startedProbe d o id config).toList := by
  cases outcome : o.probe id with
  | built offersRing => exact (add_probe_built outcome config).1
  | _ => simp [@add_probe_unbuilt d o id (by simp [outcome]), startedProbe, outcome]

theorem add_probe_frame (d : Daemon) (o : Outcomes) (id : Bytes) (config : ComponentConfig) :
    BesideProbes d (d.addProbe o id config) := by
  cases outcome : o.probe id with
  | built offersRing =>
    obtain ⟨-, -, nextRef, sinks, same⟩ := add_probe_built (d := d) outcome config
    exact ⟨same, sinks, by omega⟩
  | _ =>
    obtain ⟨-, -, nextRef, sinks, same⟩ := @add_probe_unbuilt d o id (by simp [outcome]) config
    exact ⟨same, sinks, nextRef⟩

theorem started_ref {d : Daemon} {o : Outcomes} {id : Bytes} {config : ComponentConfig} {p : LoadedProbe}
    (started : startedProbe d o id config = some p) :
    p.home.ref = d.loader.nextRef ∧ d.loader.nextRef < (d.addProbe o id config).loader.nextRef := by
  unfold startedProbe at started
  split at started
  · rename_i offersRing outcome
    simp only at started
    split at started
    · cases started
      have := (add_probe_built (d := d) outcome config).2.2.1
      exact ⟨rfl, by omega⟩
    · cases started
  · cases started

/-- The pointers of the running probes. -/
def ptrs (d : Daemon) : List ProbePtr := d.probes.map LoadedProbe.ptr

theorem forget_dropped_sublist (d : Daemon) (dead : ProbePtr) :
    (d.forgetDropped dead).probes.Sublist d.probes := by
  unfold forgetDropped
  cases d.probes.find? (·.ptr = dead) with
  | none => exact List.Sublist.refl _
  | some probe => exact List.erase_sublist

theorem mem_forget_dropped {d : Daemon} (unique : (ptrs d).Nodup) (dead : ProbePtr) (p : LoadedProbe) :
    p ∈ (d.forgetDropped dead).probes ↔ p ∈ d.probes ∧ p.ptr ≠ dead := by
  unfold forgetDropped
  cases search : d.probes.find? (·.ptr = dead) with
  | none =>
    have missing := List.find?_eq_none.mp search
    exact ⟨fun member => ⟨member, by simpa using missing p member⟩, And.left⟩
  | some probe => exact Keyed.mem_erase_found unique search p

theorem forget_dropped_frame (d : Daemon) (dead : ProbePtr) :
    BesideProbes d (d.forgetDropped dead) ∧ (d.forgetDropped dead).loop = d.loop := by
  unfold forgetDropped
  cases d.probes.find? (·.ptr = dead) <;> exact ⟨⟨rfl, rfl, Nat.le_refl _⟩, rfl⟩

theorem forget_all_sublist (dead : List ProbePtr) (d : Daemon) :
    (dead.foldl forgetDropped d).probes.Sublist d.probes := by
  induction dead generalizing d with
  | nil => exact List.Sublist.refl _
  | cons p dead ih => exact (ih _).trans (forget_dropped_sublist d p)

theorem mem_forget_all (dead : List ProbePtr) {d : Daemon} (unique : (ptrs d).Nodup) (p : LoadedProbe) :
    p ∈ (dead.foldl forgetDropped d).probes ↔ p ∈ d.probes ∧ p.ptr ∉ dead := by
  induction dead generalizing d with
  | nil => simp
  | cons head dead ih =>
    have still := unique.sublist ((forget_dropped_sublist d head).map LoadedProbe.ptr)
    rw [List.foldl_cons, ih still, mem_forget_dropped unique]
    simp only [List.mem_cons, not_or, and_assoc]

theorem forget_all_frame (dead : List ProbePtr) (d : Daemon) :
    BesideProbes d (dead.foldl forgetDropped d) ∧ (dead.foldl forgetDropped d).loop = d.loop := by
  induction dead generalizing d with
  | nil => exact ⟨.refl d, rfl⟩
  | cons p dead ih =>
    obtain ⟨rest, restLoop⟩ := ih (d.forgetDropped p)
    obtain ⟨first, firstLoop⟩ := forget_dropped_frame d p
    exact ⟨first.trans rest, restLoop.trans firstLoop⟩

/-- What a removal reports as dropped besides the probe itself. -/
def droppedBy (d : Daemon) (o : Outcomes) (id : Bytes) : List ProbePtr :=
  match d.probes.find? (·.id = id) with
  | none => []
  | some probe => (d.loop.remove probe.ptr (o.rearm id)).1

theorem remove_probe_sublist (d : Daemon) (o : Outcomes) (id : Bytes) :
    (d.removeProbe o id).probes.Sublist d.probes := by
  unfold removeProbe
  cases d.probes.find? (·.id = id) with
  | none => exact List.Sublist.refl _
  | some probe => exact (forget_all_sublist _ _).trans List.erase_sublist

/-- Exactly the named probe and the dropped ones are gone. -/
theorem mem_remove_probe {d : Daemon} (uniqueIds : (d.probes.map LoadedProbe.id).Nodup)
    (unique : (ptrs d).Nodup) (o : Outcomes) (id : Bytes) (p : LoadedProbe) :
    p ∈ (d.removeProbe o id).probes ↔ p ∈ d.probes ∧ p.id ≠ id ∧ p.ptr ∉ droppedBy d o id := by
  unfold removeProbe droppedBy
  cases search : d.probes.find? (·.id = id) with
  | none =>
    have missing := List.find?_eq_none.mp search
    exact ⟨fun member => ⟨member, by simpa using missing p member, List.not_mem_nil⟩, And.left⟩
  | some probe =>
    have left : (d.probes.erase probe).Sublist d.probes := List.erase_sublist
    have still : (ptrs { d with probes := d.probes.erase probe }).Nodup :=
      unique.sublist (left.map LoadedProbe.ptr)
    apply (mem_forget_all _ (by exact still) p).trans
    simp only [forgetProbe, discard_probe_probes]
    rw [Keyed.mem_erase_found uniqueIds search, and_assoc]
    exact Iff.rfl

theorem remove_probe_frame (d : Daemon) (o : Outcomes) (id : Bytes) :
    BesideProbes d (d.removeProbe o id) := by
  unfold removeProbe
  cases d.probes.find? (·.id = id) with
  | none => exact .refl d
  | some probe =>
    have rest := (forget_all_frame (d.loop.remove probe.ptr (o.rearm id)).1
      (forgetProbe { d with loop := (d.loop.remove probe.ptr (o.rearm id)).2
                            trace := d.trace ++ (d.loop.remove probe.ptr (o.rearm id)).1.map .rearmFailed }
        probe)).1
    exact ⟨rest.settings, rest.sinks, rest.nextRef⟩

theorem dropped_by_refused (d : Daemon) (o : Outcomes) (id : Bytes) (dead : ProbePtr)
    (reported : dead ∈ droppedBy d o id) : o.rearm id dead = false := by
  unfold droppedBy at reported
  split at reported
  · cases reported
  · exact EventLoopProofs.dropped_refused _ _ _ _ reported

/-! ### Records and ticks -/

/-- A record touches the pipeline and the resolver, and may ship. -/
theorem emit_effect (d : Daemon) (out : Emitter) (bootOffsetNs : UInt64) (passwd : PasswdReply) (r : Record) :
    ∃ pipeline resolver, ∃ shipments : List Shipment, d.emit out bootOffsetNs passwd r =
      { d with pipeline, resolver, trace := d.trace ++ shipments.map .shipped } := by
  by_cases ready : ∃ pipeline resolver, d.pipeline = some pipeline ∧ d.resolver = some resolver
  · obtain ⟨pipeline, resolver, piped, resolved⟩ := ready
    refine ⟨some (pipeline.emit ⟨resolver, bootOffsetNs, passwd⟩ (out.stamp r)).1,
      some (pipeline.emit ⟨resolver, bootOffsetNs, passwd⟩ (out.stamp r)).2.2,
      (pipeline.emit ⟨resolver, bootOffsetNs, passwd⟩ (out.stamp r)).2.1, ?_⟩
    simp only [emit, piped, resolved]
  · refine ⟨d.pipeline, d.resolver, [], ?_⟩
    rw [List.map_nil, List.append_nil]
    unfold emit
    split
    · exact absurd ⟨_, _, ‹_›, ‹_›⟩ ready
    · rfl

/-- So does a tick. -/
theorem tick_effect (d : Daemon) (monotonicNs : UInt64) (now : Int64) :
    ∃ pipeline resolver, ∃ shipments : List Shipment, d.tick monotonicNs now =
      { d with pipeline, resolver, trace := d.trace ++ shipments.map .shipped } := by
  by_cases ready : ∃ pipeline resolver, d.pipeline = some pipeline ∧ d.resolver = some resolver
  · obtain ⟨pipeline, resolver, piped, resolved⟩ := ready
    refine ⟨some (pipeline.tick now).1, some (resolver.tick monotonicNs), (pipeline.tick now).2, ?_⟩
    simp only [tick, piped, resolved]
  · refine ⟨d.pipeline, d.resolver, [], ?_⟩
    rw [List.map_nil, List.append_nil]
    unfold tick
    split
    · exact absurd ⟨_, _, ‹_›, ‹_›⟩ ready
    · rfl

end SlurmTracer.DaemonProofs
