import SlurmTracer.LoopSignals
import SlurmTracer.ReportedEvents
import SlurmTracer.ZombieFreedom

/-!
What becomes of a sample. The context pointer libbpf hands back was given to it
when the ring was armed, which may be several reloads ago; it is still the
binding of the component whose ring it is, that component is alive, and its
records are stamped with its own id (`samples_dispatched`).
-/
namespace SlurmTracer.SampleDispatch
open SlurmTracer.Core Lib Core.Daemon DaemonProofs DaemonRuns Lib.Reconcile EventLoopProofs ZombieFreedom
  LoopSignals Lib.Transition

/-! ### Bindings and ids -/

/-- Every binding's emitter is its component's own. Addresses are not used
again, so what has one now had it when it was bound. -/
structure Stamped (d : Daemon) : Prop where
  watcher : ∀ b ∈ d.loop.bindings, b.probe = .watcher → b.out = .pipeline
  probes : ∀ b ∈ d.loop.bindings, ∀ p ∈ d.probes, p.ptr = b.probe → b.out = .instance p.id
  bound : ∀ b ∈ d.loop.bindings, ∀ ref, b.probe = .probe ref → ref < d.loader.nextRef
  listed : ∀ p ∈ d.probes, p.home.ref < d.loader.nextRef

/-- What a call that starts nothing leaves. -/
structure Fewer (d d' : Daemon) : Prop where
  bindings : d'.loop.bindings ⊆ d.loop.bindings
  probes : d'.probes ⊆ d.probes
  nextRef : d.loader.nextRef ≤ d'.loader.nextRef

variable {d d' : Daemon}

theorem Fewer.refl (d : Daemon) : Fewer d d := ⟨List.Subset.refl _, List.Subset.refl _, Nat.le_refl _⟩

theorem Fewer.trans {a b c : Daemon} (first : Fewer a b) (second : Fewer b c) : Fewer a c :=
  ⟨List.Subset.trans second.bindings first.bindings, List.Subset.trans second.probes first.probes,
    Nat.le_trans first.nextRef second.nextRef⟩

theorem fewer_beside (beside : BesideSinks d d') : Fewer d d' :=
  ⟨by rw [beside.loop]; exact List.Subset.refl _, by rw [beside.probes]; exact List.Subset.refl _, beside.nextRef⟩

theorem stamped_fewer (stamped : Stamped d) (fewer : Fewer d d') : Stamped d' where
  watcher := fun b member => stamped.watcher b (fewer.bindings member)
  probes := fun b member p present => stamped.probes b (fewer.bindings member) p (fewer.probes present)
  bound := fun b member ref same => Nat.lt_of_lt_of_le (stamped.bound b (fewer.bindings member) ref same) fewer.nextRef
  listed := fun p present => Nat.lt_of_lt_of_le (stamped.listed p (fewer.probes present)) fewer.nextRef

/-- `remove` keeps bindings, it makes none. -/
theorem remove_bindings_subset (l : EventLoop) (probe : ProbePtr) (rearm : ProbePtr → Bool) :
    (l.remove probe rearm).2.bindings ⊆ l.bindings := by
  by_cases bound : ∃ b ∈ l.bindings, b.probe = probe
  · rw [(remove_bound bound rearm).2.1]
    exact (List.filter_sublist.trans List.eraseP_sublist).subset
  · push Not at bound
    rw [remove_unbound bound]
    exact List.Subset.refl _

theorem fewer_remove_probe (d : Daemon) (o : Outcomes) (id : Bytes) : Fewer d (d.removeProbe o id) := by
  refine ⟨?_, (remove_probe_sublist d o id).subset, (remove_probe_frame d o id).nextRef⟩
  unfold removeProbe
  cases d.probes.find? (·.id = id) with
  | none => exact List.Subset.refl _
  | some probe =>
    simp only
    rw [(forget_all_frame _ _).2]
    exact remove_bindings_subset _ _ _

/-- A new instance is bound under an address nobody had. -/
theorem stamped_add_probe (stamped : Stamped d) (o : Outcomes) (id : Bytes) (config : ComponentConfig) :
    Stamped (d.addProbe o id config) := by
  cases outcome : o.probe id with
  | built offersRing =>
    obtain ⟨probes, loop, nextRef, -, -⟩ := add_probe_built (d := d) outcome config
    have listed : ∀ p ∈ (d.addProbe o id config).probes,
        p ∈ d.probes ∨ p.id = id ∧ p.home.ref = d.loader.nextRef := by
      intro p member
      rw [probes, List.mem_append, Option.mem_toList] at member
      refine member.imp_right fun started => ?_
      refine ⟨?_, (started_ref started).1⟩
      unfold startedProbe at started
      rw [outcome] at started
      simp only at started
      split at started <;> cases started
      rfl
    have bound : ∀ b ∈ (d.addProbe o id config).loop.bindings,
        b ∈ d.loop.bindings ∨ b.probe = .probe d.loader.nextRef ∧ b.out = .instance id := by
      intro b member
      rw [loop] at member
      split at member
      · rw [add_bindings] at member
        split at member
        · refine (List.mem_append.mp member).imp_right fun new => ?_
          rw [List.mem_singleton.mp new]
          exact ⟨rfl, rfl⟩
        · exact .inl member
      · exact .inl member
    refine ⟨?_, ?_, ?_, ?_⟩
    · intro b member isWatcher
      rcases bound b member with old | ⟨new, -⟩
      · exact stamped.watcher b old isWatcher
      · rw [isWatcher] at new
        cases new
    · intro b member p present same
      rcases bound b member with old | ⟨new, out⟩ <;> rcases listed p present with was | ⟨isNew, ref⟩
      · exact stamped.probes b old p was same
      · have below := stamped.bound b old _ same.symm
        omega
      · have below := stamped.listed p was
        rw [new, LoadedProbe.ptr, ProbePtr.probe.injEq] at same
        omega
      · rw [out, isNew]
    · intro b member ref same
      rcases bound b member with old | ⟨new, -⟩
      · have below := stamped.bound b old ref same
        omega
      · rw [same, ProbePtr.probe.injEq] at new
        omega
    · intro p present
      rcases listed p present with was | ⟨-, ref⟩
      · have below := stamped.listed p was
        omega
      · omega
  | _ =>
    obtain ⟨probes, loop, nextRef, -, -⟩ := @add_probe_unbuilt d o id (by simp [outcome]) config
    exact stamped_fewer stamped ⟨by rw [loop]; exact List.Subset.refl _, by rw [probes]; exact List.Subset.refl _,
      nextRef⟩

theorem stamped_add_from (stamped : Stamped d) (next : Config) (o : Outcomes) (id : Bytes) :
    Stamped (addProbeFrom next o d id) := by
  unfold addProbeFrom
  cases next.probes[id]? with
  | none => exact stamped
  | some config => exact stamped_add_probe stamped o id config

theorem stamped_reload (stamped : Stamped d) (o : Outcomes) (loaded : Option Config) :
    Stamped (d.reloadConfig o loaded) := by
  by_cases noPath : d.configPath = []
  · simpa only [reloadConfig, if_pos noPath] using stamped
  cases loaded with
  | none => simpa only [reloadConfig, if_neg noPath] using stamped
  | some next =>
    by_cases accepted : diffForReload d.config next = none
    · simpa only [reloadConfig, if_neg noPath, accepted] using stamped
    · rw [reload_accepted noPath accepted]
      have sinks := stamped_fewer stamped (fewer_beside (sink_phase_frame d o next))
      have removed := stamped_fewer sinks
        (foldl_related (R := Fewer) .refl .trans (fun d id => fewer_remove_probe d o id)
          (diffLoop (sinkPhase d o next).config.probes next.probes) (sinkPhase d o next))
      have added := foldl_related (R := fun d d' => Stamped d → Stamped d') (fun _ held => held)
        (fun first second held => second (first held)) (fun d id held => stamped_add_from held next o id)
        (diffLoop next.probes (sinkPhase d o next).config.probes) _ removed
      exact ⟨added.watcher, added.probes, added.bound, added.listed⟩

theorem stamped_act (stamped : Stamped d) (a : Act) : Stamped (act d a) := by
  cases a with
  | emit out bootOffsetNs passwd r =>
    obtain ⟨pipeline, resolver, shipments, is⟩ := emit_effect d out bootOffsetNs passwd r
    rw [act, is]
    exact ⟨stamped.watcher, stamped.probes, stamped.bound, stamped.listed⟩
  | tick monotonicNs now =>
    obtain ⟨pipeline, resolver, shipments, is⟩ := tick_effect d monotonicNs now
    rw [act, is]
    exact ⟨stamped.watcher, stamped.probes, stamped.bound, stamped.listed⟩
  | reload o loaded => exact stamped_reload stamped o loaded

theorem stamped_start {config : Config} {configPath : Bytes} {env : StartOutcomes}
    (up : (start (.new config configPath) env).1 = true) : Stamped (start (.new config configPath) env).2 := by
  obtain ⟨resolver, -, -, result, -⟩ := start_true up
  have beside := (start_sinks_loop { Daemon.new config configPath with resolver := some resolver }
    env.toOutcomes).1
  rw [result]
  generalize startSinks { Daemon.new config configPath with resolver := some resolver } env.toOutcomes = d at *
  have noProbes : d.probes = [] := beside.probes
  have noLoop : d.loop = {} := beside.loop
  have bindings : (watched (piped d env.now)).loop.bindings = [⟨0, .watcher, .pipeline⟩] := by
    simp [watched, piped, noLoop, add_bindings]
  have probes : (watched (piped d env.now)).probes = [] := by simp [watched, piped, noProbes]
  have began : Stamped (watched (piped d env.now)) := by
    constructor <;> simp [bindings, probes]
  exact foldl_related (R := fun d d' => Stamped d → Stamped d') (fun _ held => held)
    (fun first second held => second (first held))
    (fun d (entry : Bytes × ComponentConfig) held => stamped_add_probe held env.toOutcomes entry.1 entry.2) _ _ began

/-! ### Runs of the loop -/

/-- What the daemon keeps up between any two steps of its loop. -/
structure Running (d : Daemon) : Prop where
  sound : Sound d
  stamped : Stamped d

theorem running_start {config : Config} {configPath : Bytes} {env : StartOutcomes}
    (up : (start (.new config configPath) env).1 = true) : Running (start (.new config configPath) env).2 :=
  ⟨(sound_start up).1, stamped_start up⟩

theorem running_act (running : Running d) (a : Act) : Running (act d a) :=
  ⟨(sound_act running.sound a).1, stamped_act running.stamped a⟩

/-- The watcher's samples only touch the resolver. -/
theorem running_resolver (running : Running d) (resolver : Option CgroupResolver) : Running { d with resolver } where
  sound :=
    { settled := ⟨running.sound.settled.sinks, running.sound.settled.probes,
        ⟨running.sound.settled.fresh.unique, running.sound.settled.fresh.below⟩⟩
      wired := wired_beside_sinks running.sound.wired ⟨rfl, rfl, rfl, Nat.le_refl _⟩
        ⟨fun _ held => held, fun _ held => held⟩
      holdsWatcher := running.sound.holdsWatcher }
  stamped := ⟨running.stamped.watcher, running.stamped.probes, running.stamped.bound, running.stamped.listed⟩

/-- What a sample of a ring does: the watcher's goes to the resolver, a
probe's to that probe, whose record goes out under its id. -/
def Dispatched (plugins : Plugins) (d : Daemon) (ring : ArmedRing) (data : Bytes) (bootOffsetNs : UInt64)
    (passwd : PasswdReply) (after : Daemon) : Prop :=
  match ring.probe with
  | .watcher =>
    d.cgroupWatcher = true ∧ after = { d with resolver := d.resolver.map (CgroupWatcher.onSample · data) }
  | .probe ref =>
    ∃ p ∈ d.probes, p.home.ref = ref ∧ p.offersRing = true ∧
      after = match plugins p.home data with
        | none => d
        | some r => d.emit (.instance p.id) bootOffsetNs passwd r

variable {plugins : Plugins}

/-- The context of an armed ring is a live binding's, and leads to whom the ring
belongs. -/
theorem dispatched_of_armed (running : Running d) {ring : ArmedRing} (armed : ring ∈ rings d.loop) (data : Bytes)
    (bootOffsetNs : UInt64) (passwd : PasswdReply) :
    ∃ after, d.onSample plugins ring.ctx data bootOffsetNs passwd = some after ∧
      Dispatched plugins d ring data bootOffsetNs passwd after := by
  have loop := running.sound.wired.loop
  rw [loop.rings] at armed
  obtain ⟨b, member, rfl⟩ := List.mem_map.mp armed
  have found : d.loop.bindings.find? (·.addr = b.addr) = some b := Keyed.find_key loop.addresses member
  rcases running.sound.wired.known b member with isWatcher | ⟨p, listed, ptr, offers⟩
  · refine ⟨{ d with resolver := d.resolver.map (CgroupWatcher.onSample · data) }, ?_, ?_⟩
    · simp only [onSample, ringOf, found, isWatcher, running.sound.holdsWatcher, if_true]
    · simp only [Dispatched, ringOf, isWatcher, running.sound.holdsWatcher, and_self]
  · have isProbe : b.probe = .probe p.home.ref := ptr.symm
    have out := running.stamped.probes b member p listed ptr
    have search : d.probes.find? (·.ptr = .probe p.home.ref) = some p :=
      Keyed.find_key running.sound.settled.fresh.unique listed
    refine ⟨match plugins p.home data with
      | none => d
      | some r => d.emit (.instance p.id) bootOffsetNs passwd r, ?_, ?_⟩
    · simp only [onSample, ringOf, found, isProbe, search, out]
      cases plugins p.home data <;> rfl
    · simp only [Dispatched, ringOf, isProbe]
      exact ⟨p, listed, rfl, offers, rfl⟩

theorem running_sample (running : Running d) {ring : ArmedRing} (armed : ring ∈ rings d.loop) {data : Bytes}
    {bootOffsetNs : UInt64} {passwd : PasswdReply}
    (called : d.onSample plugins ring.ctx data bootOffsetNs passwd = some d') : Running d' := by
  obtain ⟨after, is, dispatched⟩ : ∃ after, d.onSample plugins ring.ctx data bootOffsetNs passwd = some after ∧
      Dispatched plugins d ring data bootOffsetNs passwd after :=
    dispatched_of_armed running armed data bootOffsetNs passwd
  rw [called, Option.some.injEq] at is
  subst is
  unfold Dispatched at dispatched
  split at dispatched
  · rw [dispatched.2]
    exact running_resolver running _
  · obtain ⟨p, -, -, -, rfl⟩ := dispatched
    split
    · exact running
    · exact running_act running (.emit (.instance p.id) bootOffsetNs passwd _)

theorem running_step {m m' : MainLoop} {a : LoopStep} (running : Running m.daemon)
    (ran : m.step plugins a = some m') : Running m'.daemon := by
  cases turned_of_step ran with
  | sample _ armed called => exact running_sample running armed called
  | @ticked monotonicNs now _ => exact running_act running (.tick monotonicNs now)
  | @reloaded o loaded _ => exact running_act running (.reload o loaded)
  | _ => exact running

theorem running_run (actions : List LoopStep) {m m' : MainLoop} (running : Running m.daemon)
    (ran : actions.foldlM (MainLoop.step plugins) m = some m') : Running m'.daemon := by
  refine steps_related (R := fun m m' => Running m.daemon → Running m'.daemon) (fun _ held => held) ?_ actions ?_ ran
    running
  · exact fun first second held => second (first held)
  · exact fun a _ _ _ ran held => running_step held ran

/-- Over every run of the main loop, with any reloads and any refusals of
libbpf: whatever ring it polls, the callback finds a live binding and a live
component, and the sample goes where the ring belongs. -/
theorem samples_dispatched (plugins : Plugins) (config : Config) (configPath : Bytes) (env : StartOutcomes)
    (up : (start (.new config configPath) env).1 = true) (flags : Flags) (actions : List LoopStep) (m : MainLoop)
    (ran : actions.foldlM (MainLoop.step plugins) (.run (start (.new config configPath) env).2 flags) = some m)
    (ring : ArmedRing) (armed : ring ∈ m.daemon.loop.rb.getD []) (data : Bytes) (bootOffsetNs : UInt64)
    (passwd : PasswdReply) :
    ∃ after, m.daemon.onSample plugins ring.ctx data bootOffsetNs passwd = some after ∧
      Dispatched plugins m.daemon ring data bootOffsetNs passwd after :=
  dispatched_of_armed (running_run actions (by exact running_start up) ran) armed data bootOffsetNs passwd

/-- A report of a probe that came through a reload. -/
theorem samples_dispatched_after_reload :
    ∃ m data r after, (reloadTurn allSucceed (some withoutOom)).foldlM (MainLoop.step fun _ => ProcLifecycle.onEvent)
        (.run (start (.new twoProbes (ascii "slurm-tracer.json")) allUp).2 {}) = some m ∧
      ReportedEvents.sample 0 ReportedEvents.bashExec = some data ∧ ProcLifecycle.onEvent data = some r ∧
      m.daemon.onSample (fun _ => ProcLifecycle.onEvent) 2 data 0 .failed = some after ∧
      Dispatched (fun _ => ProcLifecycle.onEvent) m.daemon ⟨.probe 2, 2⟩ data 0 .failed after := by
  have ran := reload_turn (fun _ => ProcLifecycle.onEvent) (start (.new twoProbes (ascii "slurm-tracer.json")) allUp).2
    allSucceed (some withoutOom)
  obtain ⟨r, submits⟩ := Option.isSome_iff_exists.mp
    (by decide : ((ReportedEvents.sample 0 ReportedEvents.bashExec).bind ProcLifecycle.onEvent).isSome = true)
  obtain ⟨data, submitted, reported⟩ := Option.bind_eq_some_iff.mp submits
  obtain ⟨after, called⟩ := samples_dispatched _ twoProbes (ascii "slurm-tracer.json") allUp (by decide) {} _ _ ran
    ⟨.probe 2, 2⟩ (by decide) data 0 .failed
  exact ⟨_, data, r, after, ran, submitted, reported, called⟩

end SlurmTracer.SampleDispatch
