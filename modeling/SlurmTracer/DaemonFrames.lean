import SlurmTracer.DaemonRuns

/-! What a call on one component leaves alone: the resolver, and the pipeline
but for its wiring. What it adds to the trace is the loader's or its own
component's. -/
namespace SlurmTracer.DaemonFrames
open SlurmTracer.Core Lib Core.Daemon DaemonProofs DaemonRuns Lib.Reconcile

/-- What the loader traces. -/
def OfLoader : Event → Prop
  | .dlopen _ | .dlclose _ | .registryUp _ | .registryDown _ | .constructed _ => True
  | .destroyed _ | .detached _ | .rearmFailed _ | .shipped _ | .flushed _ => False

/-- A call that adds such events, touches no resolver, and leaves the pipeline as
it was or wired to what runs after it. -/
structure Framed (may : Event → Prop) (d d' : Daemon) : Prop where
  pipeline : ∀ p, d.pipeline = some p → p.sinks = d.sinks.map LoadedSink.ref →
    d'.pipeline = some (p.setSinks (d'.sinks.map LoadedSink.ref))
  resolver : d'.resolver = d.resolver
  events : ∃ events, d'.trace = d.trace ++ events ∧ ∀ e ∈ events, may e

variable {may may' : Event → Prop} {d d' : Daemon}

theorem Framed.refl (may : Event → Prop) (d : Daemon) : Framed may d d where
  pipeline := by
    intro p piped wired
    rw [piped, ← wired]
    rfl
  resolver := rfl
  events := ⟨[], (List.append_nil _).symm, nofun⟩

theorem Framed.trans {a b c : Daemon} (first : Framed may a b) (second : Framed may b c) : Framed may a c where
  pipeline := fun p piped wired =>
    second.pipeline (p.setSinks (b.sinks.map LoadedSink.ref)) (first.pipeline p piped wired) rfl
  resolver := second.resolver.trans first.resolver
  events := by
    obtain ⟨events, is, each⟩ := first.events
    obtain ⟨events', is', each'⟩ := second.events
    refine ⟨events ++ events', by rw [is', is, List.append_assoc], fun e member => ?_⟩
    exact (List.mem_append.mp member).elim (each e) (each' e)

theorem Framed.mono (framed : Framed may d d') (wider : ∀ e, may e → may' e) : Framed may' d d' := by
  obtain ⟨events, is, each⟩ := framed.events
  exact ⟨framed.pipeline, framed.resolver, events, is, fun e member => wider e (each e member)⟩

/-- A call that leaves the sinks and the pipeline alone. -/
theorem framed_beside (events : List Event) (each : ∀ e ∈ events, may e) (pipeline : d'.pipeline = d.pipeline)
    (sinks : d'.sinks = d.sinks) (resolver : d'.resolver = d.resolver) (trace : d'.trace = d.trace ++ events) :
    Framed may d d' where
  pipeline := by
    intro p piped wired
    rw [pipeline, piped, sinks, ← wired]
    rfl
  resolver := resolver
  events := ⟨events, trace, each⟩

/-- A call on the sinks, with the pipeline wired after it. -/
theorem framed_rewired (events : List Event) (each : ∀ e ∈ events, may e) (pipeline : d'.pipeline = d.pipeline)
    (resolver : d'.resolver = d.resolver) (trace : d'.trace = d.trace ++ events) : Framed may d d'.wireSinks where
  pipeline := by
    intro p piped _
    rw [wire_sinks_pipeline, wire_sinks_sinks, pipeline, piped]
    rfl
  resolver := (wire_sinks_resolver d').trans resolver
  events := ⟨events, (wire_sinks_trace d').trans trace, each⟩

/-! ### The loader -/

theorem open_plugin_of_loader {α : Type} (l : PluginLoader) (path : Bytes) (outcome : PluginOutcome α) :
    ∀ e ∈ (l.openPlugin path outcome).2.1, OfLoader e := by
  cases outcome <;> simp [PluginLoader.openPlugin, OfLoader]

theorem close_handle_of_loader (handles : Std.TreeMap Bytes Handle) (id : Bytes) :
    ∀ e ∈ (PluginLoader.closeHandle handles id).1, OfLoader e := by
  unfold PluginLoader.closeHandle
  split <;> simp [OfLoader]

/-! ### Sinks -/

theorem framed_add_sink (d : Daemon) (o : Outcomes) (id : Bytes) (config : ComponentConfig) :
    Framed OfLoader d (d.addSink o id config) := by
  have opened := open_plugin_of_loader d.loader (pluginPath d.loader.pluginDir (ascii "sink") (pluginOf id config)) (o.sink id)
  unfold addSink PluginLoader.loadSink
  rcases came : PluginLoader.openPlugin d.loader
    (pluginPath d.loader.pluginDir (ascii "sink") (pluginOf id config)) (o.sink id)
    with ⟨_ | ⟨kind, home⟩, events, loader⟩ <;> rw [came] at opened
  · exact framed_beside events opened rfl rfl rfl rfl
  · exact framed_rewired events opened rfl rfl rfl

theorem framed_unlink_sink {id : Bytes} {doomed : LoadedSink} (unlinked : d.unlinkSink id = some (doomed, d')) :
    Framed may d d' := by
  unfold unlinkSink at unlinked
  split at unlinked <;> cases unlinked
  exact framed_rewired [] nofun rfl rfl (List.append_nil _).symm

/-- What the end of a sink leaves in the trace. -/
def EndOfSink (doomed : LoadedSink) (e : Event) : Prop :=
  OfLoader e ∨ e = .flushed doomed.ref ∨ e = .destroyed doomed.home

theorem framed_discard_sink (d : Daemon) (doomed : LoadedSink) : Framed (EndOfSink doomed) d (d.discardSink doomed) := by
  refine framed_beside (.flushed doomed.ref :: .destroyed doomed.home ::
    (PluginLoader.closeHandle d.loader.sinkHandles doomed.id).1) ?_ rfl rfl rfl rfl
  rw [List.forall_mem_cons, List.forall_mem_cons]
  exact ⟨.inr (.inl rfl), .inr (.inr rfl), fun e member => .inl (close_handle_of_loader _ _ e member)⟩

theorem framed_remove_sink (d : Daemon) (id : Bytes) :
    Framed (fun e => ∃ s ∈ d.sinks, s.id = id ∧ EndOfSink s e) d (d.removeSink id) := by
  unfold removeSink
  cases unlinked : d.unlinkSink id with
  | none => exact .refl _ d
  | some found =>
    obtain ⟨doomed, rest⟩ := found
    obtain ⟨present, named, -⟩ := unlink_sink_some unlinked
    exact (framed_unlink_sink unlinked).trans ((framed_discard_sink rest doomed).mono
      fun e ends => ⟨doomed, present, named, ends⟩)

/-! ### Probes -/

/-- What the end of a probe leaves in the trace. -/
def EndOfProbe (probe : LoadedProbe) (e : Event) : Prop :=
  OfLoader e ∨ e = .detached probe.ptr ∨ e = .destroyed probe.home

theorem framed_discard_probe (d : Daemon) (probe : LoadedProbe) :
    Framed (EndOfProbe probe) d (d.discardProbe probe) := by
  refine framed_beside (.destroyed probe.home :: (PluginLoader.closeHandle d.loader.probeHandles probe.id).1) ?_ rfl rfl
    rfl rfl
  rw [List.forall_mem_cons]
  exact ⟨.inr (.inr rfl), fun e member => .inl (close_handle_of_loader _ _ e member)⟩

/-- A probe that fails a stage is ended at once. -/
theorem framed_add_probe (d : Daemon) (o : Outcomes) (id : Bytes) (config : ComponentConfig) :
    Framed (fun e => ∃ probe : LoadedProbe, probe.home.path = fileOf d (ascii "probe") id config ∧ EndOfProbe probe e) d
      (d.addProbe o id config) := by
  let home : Handle := ⟨fileOf d (ascii "probe") id config, d.loader.nextRef⟩
  have opened := open_plugin_of_loader d.loader (fileOf d (ascii "probe") id config) (o.probe id)
  have ofProbe : ∀ {e : Event} (offersRing : Bool), EndOfProbe ⟨id, home, offersRing⟩ e →
      ∃ probe : LoadedProbe, probe.home.path = fileOf d (ascii "probe") id config ∧ EndOfProbe probe e :=
    fun offersRing ends => ⟨_, rfl, ends⟩
  have ofLoader : ∀ {events : List Event}, (∀ e ∈ events, OfLoader e) → ∀ e ∈ events,
      ∃ probe : LoadedProbe, probe.home.path = fileOf d (ascii "probe") id config ∧ EndOfProbe probe e :=
    fun each e member => ofProbe false (.inl (each e member))
  unfold addProbe PluginLoader.loadProbe
  rw [← fileOf]
  cases came : o.probe id with
  | built offersRing =>
    rw [came] at opened
    simp only [PluginLoader.openPlugin] at opened ⊢
    split
    · refine .trans ?_ ((framed_discard_probe _ ⟨id, home, offersRing⟩).mono fun e => ofProbe offersRing)
      exact framed_beside _ (ofLoader opened) rfl rfl rfl rfl
    · split
      · refine .trans ?_ ((framed_discard_probe _ ⟨id, home, offersRing⟩).mono fun e => ofProbe offersRing)
        refine framed_beside (_ ++ [.detached (.probe d.loader.nextRef)]) ?_ rfl rfl rfl (List.append_assoc _ _ _)
        refine List.forall_mem_append.mpr ⟨ofLoader opened, fun e member => ?_⟩
        exact ofProbe offersRing (.inr (.inl (List.mem_singleton.mp member)))
      · exact framed_beside _ (ofLoader opened) rfl rfl rfl rfl
  | noFile | noSymbol | registersElse | rejected =>
    rw [came] at opened
    exact framed_beside _ (ofLoader opened) rfl rfl rfl rfl

theorem framed_forget_probe (d : Daemon) (probe : LoadedProbe) : Framed (EndOfProbe probe) d (d.forgetProbe probe) := by
  have detaches : Framed (EndOfProbe probe) d
      { d with probes := d.probes.erase probe, trace := d.trace ++ [.detached probe.ptr] } :=
    framed_beside [.detached probe.ptr] (fun e member => .inr (.inl (List.mem_singleton.mp member))) rfl rfl rfl rfl
  exact detaches.trans (framed_discard_probe _ probe)

/-! ### The loops of `start` -/

theorem resolver_start_sinks (d : Daemon) (o : Outcomes) : (d.startSinks o).resolver = d.resolver :=
  (foldl_related (R := Framed OfLoader) (Framed.refl _) .trans
    (fun d (entry : Bytes × ComponentConfig) => framed_add_sink d o entry.1 entry.2) _ d).resolver

theorem resolver_start_probes (d : Daemon) (o : Outcomes) : (d.startProbes o).resolver = d.resolver :=
  (foldl_related (R := Framed fun _ => True) (Framed.refl _) .trans
    (fun d (entry : Bytes × ComponentConfig) => (framed_add_probe d o entry.1 entry.2).mono fun _ _ => trivial) _ d).resolver

end SlurmTracer.DaemonFrames
