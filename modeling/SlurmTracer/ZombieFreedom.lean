import SlurmTracer.DaemonFrames

/-!
Which components are attached and which are armed. Removing a probe frees the
shared ring buffer and re-arms everybody else; a probe that is refused then is
detached and forgotten, but the watcher is not in `probes_`, where the clean-up
looks. No run has a zombie exactly as long as libbpf never refuses the watcher
(`no_zombie_iff`).
-/
namespace SlurmTracer.ZombieFreedom
open SlurmTracer.Core Lib Core.Daemon DaemonProofs DaemonFrames DaemonRuns Lib.Reconcile
  EventLoopProofs

/-- The component's ring is in the loop's current ring buffer. -/
def IsArmed (d : Daemon) (ptr : ProbePtr) : Prop := ∃ ring ∈ rings d.loop, ring.probe = ptr

/-- Every attached component with a ring is armed, and every one whose re-arm
failed is detached and forgotten. -/
structure NoZombie (d : Daemon) : Prop where
  probes : ∀ p ∈ d.probes, p.offersRing = true → IsArmed d p.ptr
  watcher : d.cgroupWatcher = true → IsArmed d .watcher
  refused : ∀ ptr, .rearmFailed ptr ∈ d.trace →
    .detached ptr ∈ d.trace ∧ (ptr = .watcher → d.cgroupWatcher = false) ∧ ∀ p ∈ d.probes, p.ptr ≠ ptr

/-! ### What each call adds to the trace -/

/-- Nothing is forgotten, and nobody new was refused. -/
structure Quiet (d d' : Daemon) : Prop where
  grows : ∀ e ∈ d.trace, e ∈ d'.trace
  refused : ∀ ptr, .rearmFailed ptr ∈ d'.trace → .rearmFailed ptr ∈ d.trace

theorem Quiet.refl (d : Daemon) : Quiet d d := ⟨fun _ held => held, fun _ held => held⟩

theorem Quiet.trans {a b c : Daemon} (first : Quiet a b) (second : Quiet b c) : Quiet a c :=
  ⟨fun e held => second.grows e (first.grows e held), fun ptr held => first.refused ptr (second.refused ptr held)⟩

private theorem quiet_append {d d' : Daemon} (events : List Event) (grown : d'.trace = d.trace ++ events)
    (none_refused : ∀ ptr, .rearmFailed ptr ∉ events) : Quiet d d' where
  grows := fun e held => by rw [grown]; exact List.mem_append_left _ held
  refused := fun ptr held => by
    rw [grown] at held
    exact (List.mem_append.mp held).resolve_right (none_refused ptr)

theorem quiet_of_framed {may : Event → Prop} {d d' : Daemon} (framed : Framed may d d')
    (spares : ∀ ptr, ¬ may (.rearmFailed ptr)) : Quiet d d' := by
  obtain ⟨events, grown, each⟩ := framed.events
  exact quiet_append events grown fun ptr new => spares ptr (each _ new)

theorem quiet_add_sink (d : Daemon) (o : Outcomes) (id : Bytes) (config : ComponentConfig) :
    Quiet d (d.addSink o id config) :=
  quiet_of_framed (framed_add_sink d o id config) (by simp [OfLoader])

theorem quiet_remove_sink (d : Daemon) (id : Bytes) : Quiet d (d.removeSink id) :=
  quiet_of_framed (framed_remove_sink d id) (by simp [EndOfSink, OfLoader])

theorem quiet_discard_probe (d : Daemon) (probe : LoadedProbe) : Quiet d (d.discardProbe probe) :=
  quiet_of_framed (framed_discard_probe d probe) (by simp [EndOfProbe, OfLoader])

theorem quiet_forget_probe (d : Daemon) (probe : LoadedProbe) : Quiet d (d.forgetProbe probe) :=
  quiet_of_framed (framed_forget_probe d probe) (by simp [EndOfProbe, OfLoader])

theorem quiet_add_probe (d : Daemon) (o : Outcomes) (id : Bytes) (config : ComponentConfig) :
    Quiet d (d.addProbe o id config) :=
  quiet_of_framed (framed_add_probe d o id config) (by simp [EndOfProbe, OfLoader])

theorem forget_dropped_trace (d : Daemon) (dead : ProbePtr) :
    Quiet d (d.forgetDropped dead) ∧
      ∀ p ∈ d.probes, p.ptr = dead → .detached dead ∈ (d.forgetDropped dead).trace := by
  unfold forgetDropped
  cases search : d.probes.find? (·.ptr = dead) with
  | none =>
    have missing := List.find?_eq_none.mp search
    exact ⟨.refl d, fun p member same => absurd same (by simpa using missing p member)⟩
  | some probe =>
    have isDead : probe.ptr = dead := by simpa using List.find?_some search
    refine ⟨quiet_forget_probe d probe, fun p member same => ?_⟩
    exact (quiet_discard_probe _ probe).grows _ (by simp [isDead])

theorem forget_all_trace (dead : List ProbePtr) {d : Daemon} (unique : (ptrs d).Nodup) :
    Quiet d (dead.foldl forgetDropped d) ∧
      ∀ p ∈ d.probes, p.ptr ∈ dead → .detached p.ptr ∈ (dead.foldl forgetDropped d).trace := by
  induction dead generalizing d with
  | nil => exact ⟨.refl d, fun _ _ named => absurd named List.not_mem_nil⟩
  | cons head dead ih =>
    obtain ⟨first, detachesHead⟩ := forget_dropped_trace d head
    obtain ⟨rest, detachesRest⟩ :=
      ih (unique.sublist ((forget_dropped_sublist d head).map LoadedProbe.ptr))
    refine ⟨first.trans rest, fun p member named => ?_⟩
    by_cases isHead : p.ptr = head
    · have now := detachesHead p member isHead
      rw [← isHead] at now
      exact rest.grows _ (by rw [← isHead]; exact now)
    · exact detachesRest p ((mem_forget_dropped unique head p).mpr ⟨member, isHead⟩)
        ((List.mem_cons.mp named).resolve_left isHead)

/-- A removal records exactly whom libbpf refused, and detaches each of those
that `probes_` lists. -/
theorem remove_probe_trace {d : Daemon} (unique : (ptrs d).Nodup) (o : Outcomes) (id : Bytes) :
    (∀ e ∈ d.trace, e ∈ (d.removeProbe o id).trace) ∧
      (∀ ptr, .rearmFailed ptr ∈ (d.removeProbe o id).trace ↔
        .rearmFailed ptr ∈ d.trace ∨ ptr ∈ droppedBy d o id) ∧
      ∀ p ∈ d.probes, p.id ≠ id → p.ptr ∈ droppedBy d o id →
        .detached p.ptr ∈ (d.removeProbe o id).trace := by
  unfold removeProbe droppedBy
  cases search : d.probes.find? (·.id = id) with
  | none => exact ⟨fun _ held => held, fun ptr => by simp, fun _ _ _ named => absurd named List.not_mem_nil⟩
  | some probe =>
    have isIt : probe.id = id := by simpa using List.find?_some search
    simp only
    generalize d.loop.remove probe.ptr (o.rearm id) = removed
    obtain ⟨dropped, loop⟩ := removed
    have forgets : Quiet { d with loop, trace := d.trace ++ dropped.map .rearmFailed }
        (forgetProbe { d with loop, trace := d.trace ++ dropped.map .rearmFailed } probe) := quiet_forget_probe _ probe
    have still : (ptrs (forgetProbe { d with loop, trace := d.trace ++ dropped.map .rearmFailed } probe)).Nodup :=
      unique.sublist (List.erase_sublist.map LoadedProbe.ptr)
    obtain ⟨quiet, detaches⟩ := forget_all_trace dropped still
    have whole := forgets.trans quiet
    refine ⟨fun e held => whole.grows e (List.mem_append_left _ held), fun ptr => ⟨fun held => ?_, ?_⟩, ?_⟩
    · rcases List.mem_append.mp (whole.refused ptr held) with old | new
      · exact Or.inl old
      · simpa using Or.inr new
    · rintro (old | new)
      · exact whole.grows _ (List.mem_append_left _ old)
      · exact whole.grows _ (List.mem_append_right _ (List.mem_map_of_mem new))
    · intro p member other named
      have differs : p ≠ probe := fun same => other (same ▸ isIt)
      exact detaches p ((List.mem_erase_of_ne differs).mpr member) named

/-! ### Bindings and components -/

def Bound (d : Daemon) (ptr : ProbePtr) : Prop := ∃ b ∈ d.loop.bindings, b.probe = ptr

/-- What holds of the loop and the lists whatever libbpf answers: every probe
with a ring is bound, nobody unknown is, and every refused probe is gone. -/
structure Wired (d : Daemon) : Prop where
  loop : Consistent d.loop
  fresh : FreshRefs d
  bound : ∀ p ∈ d.probes, p.offersRing = true → Bound d p.ptr
  known : ∀ b ∈ d.loop.bindings, b.probe = .watcher ∨ ∃ p ∈ d.probes, p.ptr = b.probe ∧ p.offersRing = true
  gone : ∀ ref, .rearmFailed (.probe ref) ∈ d.trace → ref < d.loader.nextRef ∧
    .detached (.probe ref) ∈ d.trace ∧ ∀ p ∈ d.probes, p.ptr ≠ .probe ref

theorem armed_iff_bound {d : Daemon} (loop : Consistent d.loop) (ptr : ProbePtr) :
    IsArmed d ptr ↔ Bound d ptr := by
  unfold IsArmed Bound
  rw [loop.rings]
  constructor
  · rintro ⟨ring, member, same⟩
    obtain ⟨b, present, rfl⟩ := List.mem_map.mp member
    exact ⟨b, present, same⟩
  · rintro ⟨b, present, same⟩
    exact ⟨ringOf b, List.mem_map_of_mem present, same⟩

theorem wired_beside_sinks {d d' : Daemon} (wired : Wired d) (beside : BesideSinks d d') (quiet : Quiet d d') :
    Wired d' where
  loop := by rw [beside.loop]; exact wired.loop
  fresh := fresh_refs_sublist wired.fresh (by rw [beside.probes]) beside.nextRef
  bound := by
    unfold Bound
    rw [beside.probes, beside.loop]
    exact wired.bound
  known := by
    rw [beside.probes, beside.loop]
    exact wired.known
  gone := by
    intro ref refused
    obtain ⟨below, detached, absent⟩ := wired.gone ref (quiet.refused _ refused)
    rw [beside.probes]
    exact ⟨Nat.lt_of_lt_of_le below beside.nextRef, quiet.grows _ detached, absent⟩

/-- A started probe is bound if it offers a ring; nobody else's binding
changes. -/
private theorem add_probe_loop {d : Daemon} (wired : Wired d) (o : Outcomes) (id : Bytes)
    (config : ComponentConfig) :
    Consistent (d.addProbe o id config).loop ∧
      ∀ b, b ∈ (d.addProbe o id config).loop.bindings ↔ b ∈ d.loop.bindings ∨
        ∃ p, startedProbe d o id config = some p ∧ p.offersRing = true ∧
          b = ⟨d.loop.nextAddr, p.ptr, .instance id⟩ := by
  cases outcome : o.probe id with
  | built offersRing =>
    obtain ⟨-, loop, -⟩ := add_probe_built (d := d) outcome config
    rw [loop, startedProbe, outcome]
    simp only
    cases staged : (o.stages id).opened && (o.stages id).loaded && (o.stages id).attached with
    | false => simpa using wired.loop
    | true =>
      have fresh : ∀ b ∈ d.loop.bindings, b.probe ≠ .probe d.loader.nextRef := by
        intro b member same
        rcases wired.known b member with isWatcher | ⟨p, present, here, -⟩
        · rw [same] at isWatcher
          cases isWatcher
        · have below := wired.fresh.below p present
          rw [same, LoadedProbe.ptr, ProbePtr.probe.injEq] at here
          omega
      refine ⟨add_consistent wired.loop fresh _ _ _, fun b => ?_⟩
      rw [if_pos rfl, add_bindings]
      cases offersRing <;> cases (o.stages id).armed <;> simp [LoadedProbe.ptr]
  | _ =>
    have loop := (@add_probe_unbuilt d o id (by simp [outcome]) config).2.1
    rw [loop, startedProbe, outcome]
    simpa using wired.loop

theorem wired_add_probe {d : Daemon} (wired : Wired d) (o : Outcomes) (id : Bytes)
    (config : ComponentConfig) : Wired (d.addProbe o id config) := by
  obtain ⟨loop, bindings⟩ := add_probe_loop wired o id config
  have probes := add_probe_probes d o id config
  have beside := add_probe_frame d o id config
  have quiet := quiet_add_probe d o id config
  have mem : ∀ p, p ∈ (d.addProbe o id config).probes ↔
      p ∈ d.probes ∨ startedProbe d o id config = some p := by
    intro p
    rw [probes, List.mem_append, Option.mem_toList]
  refine ⟨loop, fresh_refs_add_probe wired.fresh o id config, ?_, ?_, ?_⟩
  · intro p member offers
    rcases (mem p).mp member with old | new
    · obtain ⟨b, present, same⟩ := wired.bound p old offers
      exact ⟨b, (bindings b).mpr (Or.inl present), same⟩
    · exact ⟨_, (bindings _).mpr (Or.inr ⟨p, new, offers, rfl⟩), rfl⟩
  · intro b member
    rcases (bindings b).mp member with old | ⟨p, new, offers, rfl⟩
    · apply (wired.known b old).imp_right
      rintro ⟨p, present, same, offers⟩
      exact ⟨p, (mem p).mpr (Or.inl present), same, offers⟩
    · exact Or.inr ⟨p, (mem p).mpr (Or.inr new), rfl, offers⟩
  · intro ref refused
    obtain ⟨below, detached, absent⟩ := wired.gone ref (quiet.refused _ refused)
    refine ⟨Nat.lt_of_lt_of_le below beside.nextRef, quiet.grows _ detached, fun p member same => ?_⟩
    rcases (mem p).mp member with old | new
    · exact absent p old same
    · have isNext := (started_ref new).1
      rw [LoadedProbe.ptr, ProbePtr.probe.injEq] at same
      omega

/-- The bindings after a removal: all but the removed component's and the
refused ones'. -/
private theorem remove_probe_bindings {d : Daemon} (wired : Wired d)
    (uniqueIds : (d.probes.map LoadedProbe.id).Nodup) (o : Outcomes) (id : Bytes) :
    Consistent (d.removeProbe o id).loop ∧
      ∀ b, b ∈ (d.removeProbe o id).loop.bindings ↔
        b ∈ d.loop.bindings ∧ b.probe ∉ droppedBy d o id ∧ ∀ p ∈ d.probes, p.id = id → p.ptr ≠ b.probe := by
  unfold removeProbe droppedBy
  cases search : d.probes.find? (·.id = id) with
  | none =>
    have missing := List.find?_eq_none.mp search
    refine ⟨wired.loop, fun b => ⟨fun member => ⟨member, List.not_mem_nil, fun p present same => ?_⟩, And.left⟩⟩
    exact absurd same (by simpa using missing p present)
  | some probe =>
    have member := List.mem_of_find?_eq_some search
    have isIt : probe.id = id := by simpa using List.find?_some search
    have only : ∀ p ∈ d.probes, p.id = id → p = probe := fun p present same =>
      List.inj_on_of_nodup_map uniqueIds present member (same.trans isIt.symm)
    have frame := (forget_all_frame (d.loop.remove probe.ptr (o.rearm id)).1
      (forgetProbe { d with loop := (d.loop.remove probe.ptr (o.rearm id)).2
                            trace := d.trace ++ (d.loop.remove probe.ptr (o.rearm id)).1.map .rearmFailed }
        probe)).2
    simp only
    rw [frame]
    refine ⟨remove_consistent wired.loop _ _, fun b => ?_⟩
    simp only [forgetProbe, discard_probe_loop]
    by_cases bound : ∃ b ∈ d.loop.bindings, b.probe = probe.ptr
    · rw [mem_remove_bindings wired.loop bound, mem_dropped wired.loop bound]
      constructor
      · rintro ⟨present, other, armed⟩
        refine ⟨present, fun refused => ?_, fun p there same here => other ?_⟩
        · rw [armed] at refused
          exact absurd refused.2.2 (by simp)
        · rw [← here, only p there same]
      · rintro ⟨present, spared, notIt⟩
        have other : b.probe ≠ probe.ptr := fun same => notIt probe member isIt same.symm
        refine ⟨present, other, ?_⟩
        by_contra refused
        exact spared ⟨⟨b, present, rfl⟩, other, by simpa using refused⟩
    · push Not at bound
      rw [remove_unbound bound]
      refine ⟨fun present => ⟨present, List.not_mem_nil, fun p there same here => ?_⟩, And.left⟩
      rw [only p there same] at here
      exact bound b present here.symm

/-- Only bound components can be refused, never the one being removed. -/
private theorem dropped_by_bound {d : Daemon} (wired : Wired d) (o : Outcomes) (id : Bytes) (dead : ProbePtr)
    (reported : dead ∈ droppedBy d o id) :
    Bound d dead ∧ ∃ p ∈ d.probes, p.id = id ∧ p.offersRing = true ∧ p.ptr ≠ dead := by
  unfold droppedBy at reported
  cases search : d.probes.find? (·.id = id) with
  | none =>
    rw [search] at reported
    cases reported
  | some probe =>
    rw [search] at reported
    have member := List.mem_of_find?_eq_some search
    have isIt : probe.id = id := by simpa using List.find?_some search
    by_cases bound : ∃ b ∈ d.loop.bindings, b.probe = probe.ptr
    · obtain ⟨held, other, -⟩ := (mem_dropped wired.loop bound _ _).mp reported
      obtain ⟨b, present, same⟩ := bound
      rcases wired.known b present with isWatcher | ⟨p, there, here, offers⟩
      · rw [same, LoadedProbe.ptr] at isWatcher
        cases isWatcher
      · have isProbe : p = probe :=
          List.inj_on_of_nodup_map wired.fresh.unique there member (here.trans same)
        exact ⟨held, probe, member, isIt, isProbe ▸ offers, fun same => other same.symm⟩
    · push Not at bound
      simp [remove_unbound bound] at reported

theorem wired_remove_probe {d : Daemon} (wired : Wired d)
    (uniqueIds : (d.probes.map LoadedProbe.id).Nodup) (o : Outcomes) (id : Bytes) :
    Wired (d.removeProbe o id) := by
  obtain ⟨loop, bindings⟩ := remove_probe_bindings wired uniqueIds o id
  have mem := mem_remove_probe uniqueIds wired.fresh.unique o id
  have beside := remove_probe_frame d o id
  obtain ⟨grows, refusals, detaches⟩ := remove_probe_trace wired.fresh.unique o id
  refine ⟨loop, fresh_refs_sublist wired.fresh (remove_probe_sublist d o id) beside.nextRef, ?_, ?_, ?_⟩
  · intro p member offers
    obtain ⟨old, otherId, spared⟩ := (mem p).mp member
    obtain ⟨b, present, same⟩ := wired.bound p old offers
    refine ⟨b, (bindings b).mpr ⟨present, same ▸ spared, fun q there isIt here => otherId ?_⟩, same⟩
    have : q = p := List.inj_on_of_nodup_map wired.fresh.unique there old (here.trans same)
    rw [← this, isIt]
  · intro b member
    obtain ⟨present, spared, notIt⟩ := (bindings b).mp member
    apply (wired.known b present).imp_right
    rintro ⟨p, there, same, offers⟩
    refine ⟨p, (mem p).mpr ⟨there, fun isIt => notIt p there isIt same, same ▸ spared⟩, same, offers⟩
  · intro ref refused
    rcases (refusals _).mp refused with old | new
    · obtain ⟨below, detached, absent⟩ := wired.gone ref old
      exact ⟨Nat.lt_of_lt_of_le below beside.nextRef, grows _ detached, fun p member =>
        absent p ((mem p).mp member).1⟩
    · obtain ⟨⟨b, present, same⟩, q, there, isIt, -, other⟩ := dropped_by_bound wired o id _ new
      rcases wired.known b present with isWatcher | ⟨p, listed, here, -⟩
      · rw [same] at isWatcher
        cases isWatcher
      · have ptr : p.ptr = .probe ref := here.trans same
        have otherId : p.id ≠ id := by
          intro same
          exact other (List.inj_on_of_nodup_map uniqueIds listed there (same.trans isIt.symm) ▸ ptr)
        have below := wired.fresh.below p listed
        rw [LoadedProbe.ptr, ProbePtr.probe.injEq] at ptr
        refine ⟨by have := beside.nextRef; omega, ?_, fun p' member same => ?_⟩
        · have detached := detaches p listed otherId (by rw [LoadedProbe.ptr, ptr]; exact new)
          rwa [LoadedProbe.ptr, ptr] at detached
        · exact ((mem p').mp member).2.2 (same ▸ new)

/-! ### The watcher -/

/-- The watcher's ring is polled and was never refused. -/
def WatcherUp (d : Daemon) : Prop := Bound d .watcher ∧ .rearmFailed .watcher ∉ d.trace

theorem no_zombie_iff_watcher_up {d : Daemon} (wired : Wired d) (holds : d.cgroupWatcher = true) :
    NoZombie d ↔ WatcherUp d := by
  constructor
  · intro clean
    refine ⟨(armed_iff_bound wired.loop _).mp (clean.watcher holds), fun refused => ?_⟩
    have dropped := (clean.refused _ refused).2.1 rfl
    rw [holds] at dropped
    cases dropped
  · rintro ⟨bound, spared⟩
    refine ⟨fun p member offers => (armed_iff_bound wired.loop _).mpr (wired.bound p member offers),
      fun _ => (armed_iff_bound wired.loop _).mpr bound, fun ptr refused => ?_⟩
    cases ptr with
    | watcher => exact absurd refused spared
    | probe ref =>
      obtain ⟨-, detached, absent⟩ := wired.gone ref refused
      exact ⟨detached, by simp, absent⟩

/-- libbpf re-arms the watcher in each rebuild that taking these probes down
one after another brings about: one for each that still runs and offers a ring. -/
def RearmsWatcher (o : Outcomes) : Daemon → List Bytes → Prop
  | _, [] => True
  | d, id :: ids =>
    (∀ p ∈ d.probes, p.id = id → p.offersRing = true → o.rearm id .watcher = true) ∧
      RearmsWatcher o (d.removeProbe o id) ids

private theorem watcher_dropped_iff {d : Daemon} (wired : Wired d)
    (uniqueIds : (d.probes.map LoadedProbe.id).Nodup) (up : Bound d .watcher) (o : Outcomes) (id : Bytes) :
    ProbePtr.watcher ∉ droppedBy d o id ↔
      ∀ p ∈ d.probes, p.id = id → p.offersRing = true → o.rearm id .watcher = true := by
  constructor
  · intro spared p member isIt offers
    by_contra refused
    apply spared
    unfold droppedBy
    cases search : d.probes.find? (·.id = id) with
    | none => exact absurd isIt (by simpa using List.find?_eq_none.mp search p member)
    | some probe =>
      have found := List.mem_of_find?_eq_some search
      have here : probe.id = id := by simpa using List.find?_some search
      have same : p = probe := List.inj_on_of_nodup_map uniqueIds member found (isIt.trans here.symm)
      subst same
      exact (mem_dropped wired.loop (wired.bound p member offers) _ _).mpr
        ⟨up, by simp [LoadedProbe.ptr], by simpa using refused⟩
  · intro armed reported
    obtain ⟨-, p, member, isIt, offers, -⟩ := dropped_by_bound wired o id _ reported
    have refused := dropped_by_refused d o id _ reported
    rw [armed p member isIt offers] at refused
    cases refused

theorem watcher_up_remove_iff {d : Daemon} (wired : Wired d)
    (uniqueIds : (d.probes.map LoadedProbe.id).Nodup) (o : Outcomes) (id : Bytes) :
    WatcherUp (d.removeProbe o id) ↔ WatcherUp d ∧
      ∀ p ∈ d.probes, p.id = id → p.offersRing = true → o.rearm id .watcher = true := by
  obtain ⟨-, bindings⟩ := remove_probe_bindings wired uniqueIds o id
  obtain ⟨-, refusals, -⟩ := remove_probe_trace wired.fresh.unique o id
  unfold WatcherUp
  rw [refusals, not_or]
  constructor
  · rintro ⟨⟨b, member, same⟩, spared, kept⟩
    have up : Bound d .watcher := ⟨b, ((bindings b).mp member).1, same⟩
    exact ⟨⟨up, spared⟩, (watcher_dropped_iff wired uniqueIds up o id).mp kept⟩
  · rintro ⟨⟨up, spared⟩, armed⟩
    have kept := (watcher_dropped_iff wired uniqueIds up o id).mpr armed
    obtain ⟨b, member, same⟩ := up
    exact ⟨⟨b, (bindings b).mpr ⟨member, same ▸ kept, fun p _ _ here => by
      rw [same, LoadedProbe.ptr] at here; cases here⟩, same⟩, spared, kept⟩

theorem watcher_up_remove_all_iff (o : Outcomes) (ids : List Bytes) {d : Daemon} (wired : Wired d)
    (uniqueIds : (d.probes.map LoadedProbe.id).Nodup) :
    Wired (ids.foldl (fun d id => d.removeProbe o id) d) ∧
      (WatcherUp (ids.foldl (fun d id => d.removeProbe o id) d) ↔ WatcherUp d ∧ RearmsWatcher o d ids) := by
  induction ids generalizing d with
  | nil => exact ⟨wired, by simp [RearmsWatcher]⟩
  | cons id ids ih =>
    obtain ⟨wiredAfter, rest⟩ := ih (wired_remove_probe wired uniqueIds o id)
      (uniqueIds.sublist ((remove_probe_sublist d o id).map LoadedProbe.id))
    refine ⟨wiredAfter, rest.trans ?_⟩
    rw [watcher_up_remove_iff wired uniqueIds, and_assoc]
    exact Iff.rfl

theorem watcher_up_quiet {d d' : Daemon} (quiet : Quiet d d')
    (bound : Bound d' .watcher ↔ Bound d .watcher) : WatcherUp d' ↔ WatcherUp d :=
  and_congr bound (not_congr ⟨quiet.refused _, quiet.grows _⟩)

theorem watcher_up_add_probe {d : Daemon} (wired : Wired d) (o : Outcomes) (id : Bytes)
    (config : ComponentConfig) : WatcherUp (d.addProbe o id config) ↔ WatcherUp d := by
  obtain ⟨-, bindings⟩ := add_probe_loop wired o id config
  refine watcher_up_quiet (quiet_add_probe d o id config) ⟨?_, ?_⟩
  · rintro ⟨b, member, same⟩
    rcases (bindings b).mp member with old | ⟨p, -, -, rfl⟩
    · exact ⟨b, old, same⟩
    · cases same
  · rintro ⟨b, member, same⟩
    exact ⟨b, (bindings b).mpr (Or.inl member), same⟩

/-! ### Whole runs -/

/-- No rebuild of this act leaves the watcher without its ring. -/
def WatcherKept (d : Daemon) : Act → Prop
  | .reload o (some next) => d.configPath ≠ [] → diffForReload d.config next ≠ none →
      RearmsWatcher o (sinkPhase d o next) (diffLoop d.config.probes next.probes)
  | .reload _ none | .emit _ _ _ _ | .tick _ _ => True

/-- No rebuild of the whole run does. -/
def WatcherKeptThroughout (d : Daemon) : List Act → Prop
  | [] => True
  | a :: as => WatcherKept d a ∧ WatcherKeptThroughout (act d a) as

/-- The daemon at every return to its main loop. -/
def returns (d : Daemon) : List Act → List Daemon
  | [] => [d]
  | a :: as => d :: returns (act d a) as

/-- What every return to the main loop keeps, whatever libbpf answers. -/
structure Sound (d : Daemon) : Prop where
  settled : Settled d d.config.sinks d.config.probes
  wired : Wired d
  holdsWatcher : d.cgroupWatcher = true

private theorem quiet_sink_phase (d : Daemon) (o : Outcomes) (next : Config) : Quiet d (sinkPhase d o next) := by
  refine .trans (foldl_related .refl .trans quiet_remove_sink _ d) (foldl_related .refl .trans ?_ _ _)
  intro d id
  unfold addSinkFrom
  cases next.sinks[id]? with
  | none => exact .refl d
  | some config => exact quiet_add_sink d o id config

private theorem watcher_up_add_all (next : Config) (o : Outcomes) (ids : List Bytes) {d : Daemon}
    (wired : Wired d) : Wired (ids.foldl (addProbeFrom next o) d) ∧
      (WatcherUp (ids.foldl (addProbeFrom next o) d) ↔ WatcherUp d) := by
  induction ids generalizing d with
  | nil => exact ⟨wired, Iff.rfl⟩
  | cons id ids ih =>
    have step : Wired (addProbeFrom next o d id) ∧ (WatcherUp (addProbeFrom next o d id) ↔ WatcherUp d) := by
      unfold addProbeFrom
      cases next.probes[id]? with
      | none => exact ⟨wired, Iff.rfl⟩
      | some config => exact ⟨wired_add_probe wired o id config, watcher_up_add_probe wired o id config⟩
    obtain ⟨wiredAfter, rest⟩ := ih step.1
    exact ⟨wiredAfter, rest.trans step.2⟩

/-- A call that has nothing to do with the probes and their rings. -/
private theorem sound_beside {d d' : Daemon} (sound : Sound d) (beside : BesideSinks d d') (quiet : Quiet d d') :
    Wired d' ∧ d'.cgroupWatcher = true ∧ (WatcherUp d' ↔ WatcherUp d) := by
  have holds : d'.cgroupWatcher = d.cgroupWatcher := congrArg Settings.cgroupWatcher beside.settings
  refine ⟨wired_beside_sinks sound.wired beside quiet, holds.trans sound.holdsWatcher, ?_⟩
  exact watcher_up_quiet quiet (by unfold Bound; rw [beside.loop])

/-- Only the removals of an accepted file can cost the watcher. -/
private theorem sound_reload {d : Daemon} {o : Outcomes} {next : Config} (sound : Sound d)
    (hasPath : ¬ d.configPath = []) (accepted : ¬ diffForReload d.config next = none) :
    Sound (act d (.reload o (some next))) ∧
      (WatcherUp (act d (.reload o (some next))) ↔ WatcherUp d ∧ WatcherKept d (.reload o (some next))) := by
  have settled := settled_act sound.settled (.reload o (some next))
  have besideSinks := sink_phase_frame d o next
  have besideProbes := probe_phase_frame (sinkPhase d o next) o next
  obtain ⟨wiredSinks, holdsSinks, upSinks⟩ := sound_beside sound besideSinks (quiet_sink_phase d o next)
  have uniqueIds : ((sinkPhase d o next).probes.map LoadedProbe.id).Nodup := by
    rw [besideSinks.probes]
    exact unique_probe_ids sound.settled.probes
  have config := config_eq besideSinks.settings
  obtain ⟨wiredRemoved, upRemoved⟩ :=
    watcher_up_remove_all_iff o (diffLoop d.config.probes next.probes) wiredSinks uniqueIds
  obtain ⟨wiredAdded, upAdded⟩ := watcher_up_add_all next o (diffLoop next.probes d.config.probes) wiredRemoved
  have phase : probePhase (sinkPhase d o next) o next =
      (diffLoop next.probes d.config.probes).foldl (addProbeFrom next o)
        ((diffLoop d.config.probes next.probes).foldl (fun d id => d.removeProbe o id)
          (sinkPhase d o next)) := by rw [probePhase, config]
  rw [← phase] at wiredAdded upAdded
  rw [act, reload_accepted hasPath accepted] at settled ⊢
  refine ⟨⟨settled, ⟨wiredAdded.loop, settled.fresh, wiredAdded.bound, wiredAdded.known, wiredAdded.gone⟩,
    (congrArg Settings.cgroupWatcher besideProbes.settings).trans holdsSinks⟩, ?_⟩
  refine (upAdded.trans (upRemoved.trans (and_congr upSinks ?_)))
  exact ⟨fun kept _ _ => kept, fun kept => kept hasPath accepted⟩

/-- One act keeps everything but, if libbpf refuses it, the watcher. -/
theorem sound_act {d : Daemon} (sound : Sound d) (a : Act) :
    Sound (act d a) ∧ (WatcherUp (act d a) ↔ WatcherUp d ∧ WatcherKept d a) := by
  have settled := settled_act sound.settled a
  have shipping : ∀ pipeline resolver (shipments : List Shipment),
      let d' := { d with pipeline, resolver, trace := d.trace ++ shipments.map .shipped }
      Wired d' ∧ d'.cgroupWatcher = true ∧ (WatcherUp d' ↔ WatcherUp d) := fun pipeline resolver shipments =>
    sound_beside sound ⟨rfl, rfl, rfl, Nat.le_refl _⟩ (quiet_append (shipments.map .shipped) rfl (by simp))
  cases a with
  | emit out bootOffsetNs passwd r =>
    obtain ⟨pipeline, resolver, shipments, is⟩ := emit_effect d out bootOffsetNs passwd r
    rw [act, is] at settled ⊢
    obtain ⟨wired, holds, up⟩ := shipping pipeline resolver shipments
    exact ⟨⟨settled, wired, holds⟩, by simpa [WatcherKept] using up⟩
  | tick monotonicNs now =>
    obtain ⟨pipeline, resolver, shipments, is⟩ := tick_effect d monotonicNs now
    rw [act, is] at settled ⊢
    obtain ⟨wired, holds, up⟩ := shipping pipeline resolver shipments
    exact ⟨⟨settled, wired, holds⟩, by simpa [WatcherKept] using up⟩
  | reload o loaded =>
    cases loaded with
    | none =>
      have same : act d (.reload o none) = d := by simp [act, reloadConfig]
      rw [same]
      exact ⟨sound, by simp [WatcherKept]⟩
    | some next =>
      by_cases ignored : d.configPath = [] ∨ diffForReload d.config next = none
      · have same : act d (.reload o (some next)) = d := by
          rcases ignored with noPath | rejected
          · simp [act, reloadConfig, noPath]
          · simp [act, reloadConfig, rejected]
        rw [same]
        refine ⟨sound, ⟨fun up => ⟨up, fun hasPath accepted => ?_⟩, And.left⟩⟩
        exact absurd ignored (not_or.mpr ⟨hasPath, accepted⟩)
      · obtain ⟨hasPath, accepted⟩ := not_or.mp ignored
        exact sound_reload sound hasPath accepted

private theorem quiet_start_sinks (d : Daemon) (o : Outcomes) : Quiet d (d.startSinks o) :=
  foldl_related .refl .trans (fun d (entry : Bytes × ComponentConfig) => quiet_add_sink d o entry.1 entry.2) _ d

private theorem watcher_up_start_probes (o : Outcomes) (entries : List (Bytes × ComponentConfig)) {d : Daemon}
    (wired : Wired d) (up : WatcherUp d) :
    Wired (entries.foldl (fun d entry => d.addProbe o entry.1 entry.2) d) ∧
      WatcherUp (entries.foldl (fun d entry => d.addProbe o entry.1 entry.2) d) := by
  induction entries generalizing d with
  | nil => exact ⟨wired, up⟩
  | cons entry entries ih =>
    exact ih (wired_add_probe wired o entry.1 entry.2) ((watcher_up_add_probe wired o entry.1 entry.2).mpr up)

/-- A daemon that came up is sound, and its watcher is polled. -/
theorem sound_start {config : Config} {configPath : Bytes} {env : StartOutcomes}
    (up : (start (.new config configPath) env).1 = true) :
    Sound (start (.new config configPath) env).2 ∧ WatcherUp (start (.new config configPath) env).2 := by
  have settled := settled_start up ⟨rfl, rfl⟩
  obtain ⟨resolver, -, -, result, -⟩ := start_true up
  rw [result] at settled ⊢
  have quiet := quiet_start_sinks { Daemon.new config configPath with resolver := some resolver } env.toOutcomes
  have beside := (start_sinks_loop { Daemon.new config configPath with resolver := some resolver }
    env.toOutcomes).1
  generalize startSinks { Daemon.new config configPath with resolver := some resolver } env.toOutcomes = d at *
  have noProbes : (watched (piped d env.now)).probes = [] := by
    have : d.probes = [] := beside.probes
    simp [watched, piped, this]
  have noTrace : ∀ ptr, .rearmFailed ptr ∉ (watched (piped d env.now)).trace := by
    intro ptr refused
    have := quiet.refused ptr (by simpa [watched, piped] using refused)
    cases this
  have loop : (watched (piped d env.now)).loop = (EventLoop.add {} .watcher .pipeline true true).2 := by
    have : d.loop = {} := beside.loop
    simp [watched, piped, this]
  have wired : Wired (watched (piped d env.now)) := by
    refine ⟨?_, ⟨by rw [ptrs, noProbes]; exact List.nodup_nil, by rw [noProbes]; simp⟩,
      by rw [noProbes]; simp, ?_, fun ref refused => absurd refused (noTrace _)⟩
    · rw [loop]
      exact add_consistent consistent_empty (by simp) _ _ _
    · rw [loop, add_bindings]
      simp
  have watcherUp : WatcherUp (watched (piped d env.now)) := by
    refine ⟨?_, noTrace _⟩
    unfold Bound
    rw [loop, add_bindings]
    simp
  obtain ⟨wiredAfter, upAfter⟩ :=
    watcher_up_start_probes env.toOutcomes (watched (piped d env.now)).config.probes.toList wired watcherUp
  have besideProbes := (start_probes_loop (watched (piped d env.now)) env.toOutcomes).1
  exact ⟨⟨settled, wiredAfter, congrArg Settings.cgroupWatcher besideProbes.settings⟩, upAfter⟩

private theorem no_zombie_throughout {d : Daemon} (sound : Sound d) (up : WatcherUp d) (acts : List Act) :
    (∀ d' ∈ returns d acts, NoZombie d') ↔ WatcherKeptThroughout d acts := by
  induction acts generalizing d with
  | nil => simpa [returns, WatcherKeptThroughout] using (no_zombie_iff_watcher_up sound.wired sound.holdsWatcher).mpr up
  | cons a acts ih =>
    obtain ⟨soundAfter, upAfter⟩ := sound_act sound a
    simp only [returns, List.mem_cons, forall_eq_or_imp, WatcherKeptThroughout]
    have here := (no_zombie_iff_watcher_up sound.wired sound.holdsWatcher).mpr up
    by_cases kept : WatcherKept d a
    · have rest := ih soundAfter (upAfter.mpr ⟨up, kept⟩)
      exact ⟨fun all => ⟨kept, rest.mp all.2⟩, fun all => ⟨here, rest.mpr all.2⟩⟩
    · constructor
      · intro all
        have first : act d a ∈ returns (act d a) acts := by cases acts <;> simp [returns]
        have clean := all.2 _ first
        have upNow := (no_zombie_iff_watcher_up soundAfter.wired soundAfter.holdsWatcher).mp clean
        exact absurd (upAfter.mp upNow).2 kept
      · exact fun all => absurd all.1 kept

/-- A run has no zombie component at any return to its main loop exactly when
no rebuild of the ring buffer in it leaves the watcher refused. -/
theorem no_zombie_iff (config : Config) (configPath : Bytes) (env : StartOutcomes)
    (up : (start (.new config configPath) env).1 = true) (acts : List Act) :
    (∀ d ∈ returns (start (.new config configPath) env).2 acts, NoZombie d) ↔
      WatcherKeptThroughout (start (.new config configPath) env).2 acts := by
  obtain ⟨sound, watcherUp⟩ := sound_start up
  exact no_zombie_throughout sound watcherUp acts

/-! ### A watcher without its ring -/

/-- Two probes run; the file that is read again lacks one. -/
def twoProbes : Config where
  pluginDir := ascii "plugins"
  sinks := .ofList [(ascii "null", ComponentConfig.mk ∅)]
  probes := .ofList [(ascii "oom", ComponentConfig.mk ∅), (ascii "proc_lifecycle", ComponentConfig.mk ∅)]

def withoutOom : Config :=
  { twoProbes with probes := .ofList [(ascii "proc_lifecycle", ComponentConfig.mk ∅)] }

/-- libbpf refuses the watcher's ring while the probe is removed. -/
def refuseWatcher : Act :=
  .reload { allSucceed with rearm := fun _ ptr => ptr ≠ .watcher } (some withoutOom)

theorem no_zombie_iff_refused_watcher :
    (∀ d ∈ returns (start (.new twoProbes (ascii "slurm-tracer.json")) allUp).2 [refuseWatcher], NoZombie d) ↔
      WatcherKeptThroughout (start (.new twoProbes (ascii "slurm-tracer.json")) allUp).2 [refuseWatcher] :=
  no_zombie_iff twoProbes (ascii "slurm-tracer.json") allUp (by decide) [refuseWatcher]

/-- The watcher stays attached and held, with no ring being polled for it. -/
theorem refused_watcher_stays :
    ¬ ∀ (config : Config) (configPath : Bytes) (env : StartOutcomes) (acts : List Act),
      (start (.new config configPath) env).1 = true →
      ∀ d ∈ returns (start (.new config configPath) env).2 acts, NoZombie d := by
  intro always
  have clean := always twoProbes (ascii "slurm-tracer.json") allUp [refuseWatcher] (by decide) _
    (List.mem_cons_of_mem _ List.mem_cons_self)
  have armed := clean.watcher (by decide)
  unfold IsArmed at armed
  revert armed
  decide

end SlurmTracer.ZombieFreedom
