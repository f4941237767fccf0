import SlurmTracer.DaemonFrames
import SlurmTracer.Lib.Transition
import SlurmTracer.PipelineDelivery

/-!
What a sink is owed. A record belongs to the sinks that are running when it is
emitted, and goes to those that are wired when its batch is shipped. A removal
that lands on a partly filled batch lies between the two: `remove_sink` rewires
first and flushes the sink afterwards, so what is pending never reaches it. In
every run without such a removal a sink has been handed all it is owed before it
is destroyed (`debts_paid`).
-/
namespace SlurmTracer.SinkDebts
open SlurmTracer.Core Lib Core.Daemon DaemonProofs DaemonFrames DaemonRuns Lib.Reconcile Lib.Transition PipelineDelivery

/-! ### What an observer writes down -/

inductive Sight where
  /-- A record enters the batch while these instances are in `sinks_`. -/
  | emitted (r : Record) (running : List Handle)
  | did (event : Event)
  deriving DecidableEq

/-- The records emitted, each with the instances running then. -/
def emissions (log : List Sight) : List (Record × List Handle) := log.filterMap fun
  | .emitted r running => some (r, running)
  | .did _ => none

def shipments (log : List Sight) : List Shipment := log.filterMap fun
  | .did (.shipped s) => some s
  | _ => none

/-- The records that have left the batch. -/
def left (log : List Sight) : List Record := (shipments log).flatMap Shipment.batch

/-- The records emitted while the instance was running. -/
def owed (home : Handle) (log : List Sight) : List Record :=
  ((emissions log).filter fun e => home ∈ e.2).map Prod.fst

/-- The records passed to the `write` of an instance. -/
def delivered (ref : SinkRef) (log : List Sight) : List Record :=
  ((shipments log).filter fun s => ref ∈ s.sinks).flatMap Shipment.batch

/-- The records still in the batch: they leave it in the order they came. -/
def unshipped (log : List Sight) : List (Record × List Handle) := (emissions log).drop (left log).length

/-- Whoever is destroyed was handed all it was owed, in order and last of all. -/
def Paid (log : List Sight) : Prop :=
  ∀ i home, log[i]? = some (.did (.destroyed home)) → owed home (log.take i) <:+ delivered home.ref (log.take i)

/-! ### The system -/

/-- A daemon from its main loop to its end, and what was seen of it. -/
structure Observed where
  daemon : Daemon
  log : List Sight := []
  ended : Bool := false

inductive Turn where
  | act (a : Act)
  /-- The loop is left. -/
  | shutdown (now : Int64)

/-- The record an `emit` puts into the batch. -/
def entering (d : Daemon) : Act → List Record
  | .emit out bootOffsetNs passwd r =>
    match d.pipeline, d.resolver with
    | some pipeline, some resolver => [(pipeline.enrich ⟨resolver, bootOffsetNs, passwd⟩ (out.stamp r)).1]
    | _, _ => []
  | .tick _ _ | .reload _ _ => []

/-- What the daemon did to the world since. -/
def since (d d' : Daemon) : List Sight := (d'.trace.drop d.trace.length).map .did

def Observed.step (w : Observed) (turn : Turn) : Option Observed :=
  if w.ended then none
  else match turn with
  | .act a =>
    let entered := (entering w.daemon a).map fun r => Sight.emitted r (w.daemon.sinks.map LoadedSink.home)
    some { daemon := act w.daemon a, log := w.log ++ (entered ++ since w.daemon (act w.daemon a)) }
  | .shutdown now =>
    some { daemon := w.daemon.shutdown now, log := w.log ++ since w.daemon (w.daemon.shutdown now), ended := true }

/-- A daemon that `start` brought up. -/
def Started (w : Observed) : Prop :=
  ∃ config configPath env, (start (.new config configPath) env).1 = true ∧
    w = { daemon := (start (.new config configPath) env).2 }

/-- A reload takes no sink down for which a record is pending. -/
def Clear (w : Observed) : Turn → Prop
  | .act (.reload _ (some next)) => w.daemon.configPath ≠ [] → diffForReload w.daemon.config next ≠ none →
    ∀ s ∈ w.daemon.sinks, s.id ∈ diffLoop w.daemon.config.sinks next.sinks → ∀ e ∈ unshipped w.log, s.home ∉ e.2
  | _ => True

variable {log more : List Sight} {s : LoadedSink} {d d' : Daemon}

/-! ### Reading a log -/

@[simp] theorem emissions_append (log more : List Sight) : emissions (log ++ more) = emissions log ++ emissions more :=
  List.filterMap_append
@[simp] theorem shipments_append (log more : List Sight) : shipments (log ++ more) = shipments log ++ shipments more :=
  List.filterMap_append
@[simp] theorem left_append (log more : List Sight) : left (log ++ more) = left log ++ left more := by simp [left]
@[simp] theorem delivered_append (ref : SinkRef) (log more : List Sight) :
    delivered ref (log ++ more) = delivered ref log ++ delivered ref more := by simp [delivered]

theorem emissions_emitted (records : List Record) (running : List Handle) :
    emissions (records.map fun r => .emitted r running) = records.map fun r => (r, running) := by
  simp [emissions, List.filterMap_map]

theorem shipments_emitted (records : List Record) (running : List Handle) :
    shipments (records.map fun r => .emitted r running) = [] := by
  simp [shipments, List.filterMap_map]

theorem emissions_did (events : List Event) : emissions (events.map .did) = [] := by
  simp [emissions, List.filterMap_map]

theorem shipments_shipped (s : List Shipment) : shipments (s.map fun s => .did (.shipped s)) = s := by
  simp [shipments, List.filterMap_map]

/-- Nothing of this is a shipment. -/
def Unshipping (events : List Event) : Prop := ∀ e ∈ events, ∀ s, e ≠ .shipped s

theorem shipments_unshipping {events : List Event} (unshipping : Unshipping events) :
    shipments (events.map .did) = [] := by
  rw [shipments, List.filterMap_map, List.filterMap_eq_nil_iff]
  intro e member
  cases e with
  | shipped s => exact absurd rfl (unshipping _ member s)
  | _ => rfl

/-! ### One sink's account -/

/-- Since it came up, the sink has been running at every emission and wired at
every shipment. -/
def Account (log : List Sight) (s : LoadedSink) : Prop :=
  ∃ before during had, emissions log = before ++ during ∧ (∀ e ∈ before, s.home ∉ e.2) ∧
    (∀ e ∈ during, s.home ∈ e.2) ∧ had ≤ before.length ∧ had ≤ (left log).length ∧
    delivered s.ref log = (left log).drop had

/-- Every record emitted has left or is pending. -/
def Tallies (log : List Sight) (pending : List Record) : Prop := left log ++ pending = (emissions log).map Prod.fst

theorem account_grows (account : Account log s) {records : List Record} {running : List Handle}
    (entered : emissions more = records.map fun r => (r, running)) (runs : s.home ∈ running)
    (wired : ∀ shipment ∈ shipments more, s.ref ∈ shipment.sinks) : Account (log ++ more) s := by
  obtain ⟨before, during, had, split, early, late, notLater, bound, got⟩ := account
  have all : delivered s.ref more = left more := by
    rw [delivered, List.filter_eq_self.mpr fun shipment member => by simpa using wired shipment member, left]
  refine ⟨before, during ++ emissions more, had, ?_, early, ?_, notLater, ?_, ?_⟩
  · rw [emissions_append, split, List.append_assoc]
  · intro e member
    rcases List.mem_append.mp member with old | new
    · exact late e old
    · rw [entered] at new
      obtain ⟨r, -, rfl⟩ := List.mem_map.mp new
      exact runs
  · rw [left_append, List.length_append]
    omega
  · rw [delivered_append, got, all, left_append, List.drop_append_of_le_length bound]

/-- A sink that comes up owes nothing to the past. -/
theorem account_opens {pending : List Record} (tallies : Tallies log pending)
    (unknown : ∀ e ∈ emissions log, s.home ∉ e.2) (unwritten : ∀ shipment ∈ shipments log, s.ref ∉ shipment.sinks) :
    Account log s := by
  have fewer := congrArg List.length tallies
  rw [List.length_append, List.length_map] at fewer
  refine ⟨emissions log, [], (left log).length, (List.append_nil _).symm, unknown, by simp, by omega,
    Nat.le_refl _, ?_⟩
  have nothing : ∀ shipment ∈ shipments log, ¬ decide (s.ref ∈ shipment.sinks) = true :=
    fun shipment member => by simpa using unwritten shipment member
  rw [List.drop_length, delivered, List.filter_eq_nil_iff.mpr nothing]
  rfl

/-- Once nothing is pending for a sink, it has been handed all it is owed. -/
theorem paid_of_clear {pending : List Record} (account : Account log s) (tallies : Tallies log pending)
    (clear : ∀ e ∈ unshipped log, s.home ∉ e.2) : owed s.home log <:+ delivered s.ref log := by
  obtain ⟨before, during, had, split, early, late, notLater, bound, got⟩ := account
  have mine : owed s.home log = during.map Prod.fst := by
    rw [owed, split, List.filter_append, List.filter_eq_nil_iff.mpr fun e member => by simpa using early e member,
      List.filter_eq_self.mpr fun e member => by simpa using late e member, List.nil_append]
  rw [mine]
  rcases List.eq_nil_or_concat during with rfl | ⟨during, last, rfl⟩
  · exact List.nil_suffix
  have allLeft : (emissions log).length ≤ (left log).length := by
    by_contra behind
    -- The last record was emitted while the sink was running, and would still be pending.
    refine clear last ?_ (late last (by simp))
    rw [split, List.concat_eq_append, ← List.append_assoc, List.length_append, List.length_singleton] at behind
    rw [unshipped, split, List.concat_eq_append, ← List.append_assoc, List.drop_append_of_le_length (by omega)]
    exact List.mem_append_right _ (List.mem_singleton_self last)
  have everything : left log = (emissions log).map Prod.fst := by
    have lengths := congrArg List.length tallies
    rw [List.length_append, List.length_map] at lengths
    have nothing : pending = [] := List.length_eq_zero_iff.mp (by omega)
    rw [← tallies, nothing, List.append_nil]
  rw [got, everything, split, List.map_append, List.drop_append_of_le_length (by rw [List.length_map]; exact notLater)]
  exact List.suffix_append _ _

/-! ### What a log promises -/

theorem paid_append (paid : Paid log)
    (rest : ∀ i home, more[i]? = some (.did (.destroyed home)) →
      owed home (log ++ more.take i) <:+ delivered home.ref (log ++ more.take i)) : Paid (log ++ more) := by
  intro i home gone
  by_cases earlier : i < log.length
  · rw [List.getElem?_append_left earlier] at gone
    rw [List.take_append_of_le_length (Nat.le_of_lt earlier)]
    exact paid i home gone
  · rw [List.getElem?_append_right (Nat.not_lt.mp earlier)] at gone
    rw [List.take_append, List.take_of_length_le (Nat.not_lt.mp earlier)]
    exact rest _ home gone

/-- Nothing is destroyed while records come and go. -/
theorem paid_call (paid : Paid log) (records : List Record) (running : List Handle) (shipped : List Shipment) :
    Paid (log ++ ((records.map fun r => .emitted r running) ++ shipped.map fun s => .did (.shipped s))) := by
  apply paid_append paid
  intro i home gone
  have member := List.mem_of_getElem? gone
  rcases List.mem_append.mp member with entered | went
  · obtain ⟨r, -, is⟩ := List.mem_map.mp entered
    cases is
  · obtain ⟨shipment, -, is⟩ := List.mem_map.mp went
    cases is

/-- Events that ship nothing change no account. -/
theorem paid_unshipping (paid : Paid log) {events : List Event} (unshipping : Unshipping events)
    (settled : ∀ home, .destroyed home ∈ events → owed home log <:+ delivered home.ref log) :
    Paid (log ++ events.map .did) := by
  apply paid_append paid
  intro i home gone
  have member := List.mem_of_getElem? gone
  obtain ⟨e, present, is⟩ := List.mem_map.mp member
  cases is
  have silent : shipments ((events.map .did).take i) = [] := by
    rw [← List.map_take]
    exact shipments_unshipping fun e member => unshipping e (List.mem_of_mem_take member)
  have same : owed home (log ++ (events.map .did).take i) = owed home log := by
    rw [owed, emissions_append, ← List.map_take, emissions_did, List.append_nil, owed]
  rw [same, delivered_append, delivered, delivered, silent]
  simpa [delivered] using settled home present

/-! ### What a reload does in between -/

/-- The pending batch is carried over, the pipeline stays wired to what runs,
nothing is shipped, and only some instances are destroyed. -/
structure Carried (gone : Handle → Prop) (d d' : Daemon) : Prop where
  piped : ∀ p, d.pipeline = some p → p.sinks = d.sinks.map LoadedSink.ref →
    ∃ p', d'.pipeline = some p' ∧ p'.sinks = d'.sinks.map LoadedSink.ref ∧ p'.batch = p.batch
  events : ∃ events, d'.trace = d.trace ++ events ∧ Unshipping events ∧ ∀ home, .destroyed home ∈ events → gone home

variable {gone gone' : Handle → Prop}

theorem Carried.refl (gone : Handle → Prop) (d : Daemon) : Carried gone d d :=
  ⟨fun p piped wired => ⟨p, piped, wired, rfl⟩, [], (List.append_nil _).symm, nofun, nofun⟩

theorem Carried.trans {a b c : Daemon} (first : Carried gone a b) (second : Carried gone b c) :
    Carried gone a c := by
  refine ⟨fun p piped wired => ?_, ?_⟩
  · obtain ⟨p', piped', wired', same⟩ := first.piped p piped wired
    obtain ⟨p'', piped'', wired'', same'⟩ := second.piped p' piped' wired'
    exact ⟨p'', piped'', wired'', same'.trans same⟩
  · obtain ⟨events, is, unshipping, only⟩ := first.events
    obtain ⟨events', is', unshipping', only'⟩ := second.events
    refine ⟨events ++ events', by rw [is', is, List.append_assoc], ?_, ?_⟩
    · exact fun e member => (List.mem_append.mp member).elim (unshipping e) (unshipping' e)
    · exact fun home member => (List.mem_append.mp member).elim (only home) (only' home)

theorem Carried.mono (carried : Carried gone d d') (wider : ∀ home, gone home → gone' home) :
    Carried gone' d d' := by
  obtain ⟨events, is, unshipping, only⟩ := carried.events
  exact ⟨carried.piped, events, is, unshipping, fun home member => wider home (only home member)⟩

theorem carried_of_framed {may : Event → Prop} (framed : Framed may d d') (unshipping : ∀ s, ¬ may (.shipped s))
    (only : ∀ home, may (.destroyed home) → gone home) : Carried gone d d' := by
  obtain ⟨events, is, each⟩ := framed.events
  refine ⟨fun p piped wired => ⟨_, framed.pipeline p piped wired, rfl, rfl⟩, events, is, ?_, ?_⟩
  · rintro _ member s rfl
    exact unshipping s (each _ member)
  · exact fun home member => only home (each _ member)

theorem carried_remove_sink (d : Daemon) (id : Bytes) :
    Carried (fun home => ∃ s ∈ d.sinks, s.home = home ∧ s.id = id) d (d.removeSink id) := by
  refine carried_of_framed (framed_remove_sink d id) (by simp [EndOfSink, OfLoader]) ?_
  rintro home ⟨s, present, named, ends⟩
  have is : home = s.home := by simpa [EndOfSink, OfLoader] using ends
  exact ⟨s, present, is.symm, named⟩

theorem carried_add_sink (d : Daemon) (o : Outcomes) (id : Bytes) (config : ComponentConfig) :
    Carried (fun _ => False) d (d.addSink o id config) :=
  carried_of_framed (framed_add_sink d o id config) (by simp [OfLoader]) (by simp [OfLoader])

/-- Every running probe is from a probe's file. -/
def FromFiles (d : Daemon) : Prop := ∀ p ∈ d.probes, ProbeFile d.loader.pluginDir p.home.path

theorem carried_add_probe (d : Daemon) (o : Outcomes) (id : Bytes) (config : ComponentConfig) :
    Carried (fun home => ProbeFile d.loader.pluginDir home.path) d (d.addProbe o id config) := by
  refine carried_of_framed (framed_add_probe d o id config) (by simp [EndOfProbe, OfLoader]) ?_
  rintro home ⟨probe, file, ends⟩
  have is : home = probe.home := by simpa [EndOfProbe, OfLoader] using ends
  exact ⟨pluginOf id config, is ▸ file⟩

/-! ### The loops of a reload -/

/-- A call on the probes destroys nothing but probes. -/
structure Probing (d d' : Daemon) : Prop where
  dir : d'.loader.pluginDir = d.loader.pluginDir
  carried : FromFiles d → FromFiles d' ∧ Carried (fun home => ProbeFile d.loader.pluginDir home.path) d d'

theorem Probing.refl (d : Daemon) : Probing d d := ⟨rfl, fun files => ⟨files, .refl _ d⟩⟩

theorem Probing.trans {a b c : Daemon} (first : Probing a b) (second : Probing b c) : Probing a c := by
  refine ⟨second.dir.trans first.dir, fun files => ?_⟩
  obtain ⟨files, carried⟩ := first.carried files
  obtain ⟨files, carried'⟩ := second.carried files
  rw [first.dir] at carried'
  exact ⟨files, carried.trans carried'⟩

theorem from_files_sublist (files : FromFiles d) (left : d'.probes.Sublist d.probes)
    (dir : d'.loader.pluginDir = d.loader.pluginDir) : FromFiles d' := by
  intro p member
  rw [dir]
  exact files p (left.subset member)

theorem probing_add_probe (d : Daemon) (o : Outcomes) (id : Bytes) (config : ComponentConfig) :
    Probing d (d.addProbe o id config) := by
  have dir := dir_eq (add_probe_frame d o id config).settings
  refine ⟨dir, fun files => ⟨?_, carried_add_probe d o id config⟩⟩
  intro p member
  rw [dir]
  rw [add_probe_probes, List.mem_append] at member
  rcases member with old | new
  · exact files p old
  · have started := Option.mem_toList.mp new
    unfold startedProbe at started
    split at started
    · simp only [Option.ite_none_right_eq_some] at started
      cases started.2
      exact ⟨pluginOf id config, rfl⟩
    · cases started

theorem probing_forget_probe {probe : LoadedProbe} (present : probe ∈ d.probes) :
    Probing d (d.forgetProbe probe) := by
  refine ⟨rfl, fun files => ⟨from_files_sublist files List.erase_sublist rfl, ?_⟩⟩
  refine carried_of_framed (framed_forget_probe d probe) (by simp [EndOfProbe, OfLoader]) fun home ends => ?_
  have is : home = probe.home := by simpa [EndOfProbe, OfLoader] using ends
  exact is ▸ files probe present

theorem probing_forget_dropped (d : Daemon) (dead : ProbePtr) : Probing d (d.forgetDropped dead) := by
  unfold forgetDropped
  cases search : d.probes.find? (·.ptr = dead) with
  | none => exact .refl d
  | some probe => exact probing_forget_probe (List.mem_of_find?_eq_some search)

theorem probing_remove_probe (d : Daemon) (o : Outcomes) (id : Bytes) : Probing d (d.removeProbe o id) := by
  unfold removeProbe
  cases search : d.probes.find? (·.id = id) with
  | none => exact .refl d
  | some probe =>
    have present := List.mem_of_find?_eq_some search
    let removal := d.loop.remove probe.ptr (o.rearm id)
    have reports : Probing d { d with loop := removal.2, trace := d.trace ++ removal.1.map .rearmFailed } := by
      refine ⟨rfl, fun files => ⟨files, fun p piped wired => ⟨p, piped, wired, rfl⟩, _, rfl, ?_, ?_⟩⟩ <;>
        simp [Unshipping]
    refine .trans (reports.trans ?_) (foldl_related .refl .trans probing_forget_dropped _ _)
    exact probing_forget_probe present

theorem probing_probe_phase (d : Daemon) (o : Outcomes) (next : Config) : Probing d (probePhase d o next) := by
  refine .trans (foldl_related .refl .trans (fun d id => probing_remove_probe d o id)
    (diffLoop d.config.probes next.probes) d) ?_
  refine foldl_related .refl .trans (fun d id => ?_) _ _
  unfold addProbeFrom
  cases next.probes[id]? with
  | none => exact .refl d
  | some config => exact probing_add_probe d o id config

theorem probing_start_probes (d : Daemon) (o : Outcomes) : Probing d (d.startProbes o) := by
  have adds : ∀ d (entry : Bytes × ComponentConfig), Probing d (d.addProbe o entry.1 entry.2) :=
    fun d entry => probing_add_probe d o entry.1 entry.2
  exact foldl_related .refl .trans adds d.config.probes.toList d

theorem carried_remove_sinks (ids : List Bytes) (d : Daemon) :
    Carried (fun home => ∃ s ∈ d.sinks, s.home = home ∧ s.id ∈ ids) d (ids.foldl removeSink d) := by
  induction ids generalizing d with
  | nil => exact .refl _ d
  | cons id ids ih =>
    refine .trans ((carried_remove_sink d id).mono ?_) ((ih (d.removeSink id)).mono ?_)
    · rintro home ⟨s, present, is, named⟩
      exact ⟨s, present, is, named ▸ List.mem_cons_self⟩
    · rintro home ⟨s, present, is, named⟩
      exact ⟨s, (remove_sink_sublist d id).subset present, is, List.mem_cons_of_mem _ named⟩

theorem carried_sink_phase (d : Daemon) (o : Outcomes) (next : Config) :
    Carried (fun home => ∃ s ∈ d.sinks, s.home = home ∧ s.id ∈ diffLoop d.config.sinks next.sinks) d
      (sinkPhase d o next) := by
  apply (carried_remove_sinks (diffLoop d.config.sinks next.sinks) d).trans
  suffices still : Carried (fun _ => False) ((diffLoop d.config.sinks next.sinks).foldl removeSink d)
      (sinkPhase d o next) from still.mono fun home => False.elim
  refine foldl_related (R := Carried fun _ => False) (Carried.refl _) .trans (fun d id => ?_) _ _
  unfold addSinkFrom
  cases next.sinks[id]? with
  | none => exact .refl _ d
  | some config => exact carried_add_sink d o id config

/-- Whoever comes up gets an address nobody had. -/
structure FreshSinks (d d' : Daemon) : Prop where
  nextRef : d.loader.nextRef ≤ d'.loader.nextRef
  fresh : ∀ s ∈ d'.sinks, s ∈ d.sinks ∨ (d.loader.nextRef ≤ s.ref ∧ s.ref < d'.loader.nextRef)

theorem FreshSinks.refl (d : Daemon) : FreshSinks d d := ⟨Nat.le_refl _, fun _ => Or.inl⟩

theorem FreshSinks.trans {a b c : Daemon} (first : FreshSinks a b) (second : FreshSinks b c) : FreshSinks a c := by
  refine ⟨Nat.le_trans first.nextRef second.nextRef, fun s present => ?_⟩
  rcases second.fresh s present with old | ⟨since, below⟩
  · exact (first.fresh s old).imp_right fun ⟨since, below⟩ => ⟨since, Nat.lt_of_lt_of_le below second.nextRef⟩
  · exact Or.inr ⟨Nat.le_trans first.nextRef since, below⟩

theorem fresh_sinks_add_sink (d : Daemon) (o : Outcomes) (id : Bytes) (config : ComponentConfig) :
    FreshSinks d (d.addSink o id config) := by
  refine ⟨(add_sink_frame d o id config).nextRef, fun s present => ?_⟩
  rw [add_sink_sinks, List.mem_append] at present
  apply present.imp_right
  intro new
  unfold builtSink at new
  cases outcome : o.sink id with
  | built kind =>
    rw [outcome] at new
    have is := Option.mem_toList.mp new
    cases is
    simp [addSink, PluginLoader.loadSink, PluginLoader.openPlugin, outcome, LoadedSink.ref]
  | _ => simp [outcome] at new

theorem fresh_sinks_sink_phase (d : Daemon) (o : Outcomes) (next : Config) :
    FreshSinks d (sinkPhase d o next) := by
  have removes : ∀ d id, FreshSinks d (removeSink d id) := fun d id =>
    ⟨(remove_sink_frame d id).nextRef, fun s present => Or.inl ((remove_sink_sublist d id).subset present)⟩
  refine .trans (foldl_related .refl .trans removes (diffLoop d.config.sinks next.sinks) d)
    (foldl_related .refl .trans (fun d id => ?_) _ _)
  unfold addSinkFrom
  cases next.sinks[id]? with
  | none => exact .refl d
  | some config => exact fresh_sinks_add_sink d o id config

theorem fresh_sinks_start_sinks (d : Daemon) (o : Outcomes) : FreshSinks d (d.startSinks o) := by
  have adds : ∀ d (entry : Bytes × ComponentConfig), FreshSinks d (d.addSink o entry.1 entry.2) :=
    fun d entry => fresh_sinks_add_sink d o entry.1 entry.2
  exact foldl_related .refl .trans adds d.config.sinks.toList d

/-! ### A turn of the main loop -/

/-- What holds whenever the main loop comes round. -/
structure Balanced (d : Daemon) (log : List Sight) : Prop where
  settled : Settled d d.config.sinks d.config.probes
  piped : ∃ p, d.pipeline = some p ∧ p.sinks = d.sinks.map LoadedSink.ref ∧ Tallies log p.batch
  accounts : ∀ s ∈ d.sinks, Account log s
  below : ∀ s ∈ d.sinks, s.ref < d.loader.nextRef
  known : ∀ e ∈ emissions log, ∀ home ∈ e.2, home.ref < d.loader.nextRef ∧ SinkFile d.loader.pluginDir home.path
  written : ∀ shipment ∈ shipments log, ∀ ref ∈ shipment.sinks, ref < d.loader.nextRef
  paid : Paid log

/-- What is seen of a call into the pipeline. -/
def seen (d : Daemon) (o : Outcome) : List Sight :=
  (o.enriched.map fun r => .emitted r (d.sinks.map LoadedSink.home)) ++ o.shipments.map fun s => .did (.shipped s)

theorem emissions_seen (d : Daemon) (o : Outcome) :
    emissions (seen d o) = o.enriched.map fun r => (r, d.sinks.map LoadedSink.home) := by
  have silent : emissions (o.shipments.map fun s => .did (.shipped s)) = [] := by
    simp [emissions, List.filterMap_map]
  rw [seen, emissions_append, emissions_emitted, silent, List.append_nil]

theorem shipments_seen (d : Daemon) (o : Outcome) : shipments (seen d o) = o.shipments := by
  rw [seen, shipments_append, shipments_emitted, shipments_shipped, List.nil_append]

theorem tallies_call {p : Pipeline} (tallies : Tallies log p.batch) (d : Daemon) (op : Op) :
    Tallies (log ++ seen d (call p op)) (call p op).after.batch := by
  have conserved := (moves_call p op).conserved
  rw [← List.flatMap_def] at conserved
  have leaves : left (seen d (call p op)) = (call p op).shipments.flatMap Shipment.batch := by
    rw [left, shipments_seen]
  rw [Tallies, left_append, leaves, emissions_append, List.map_append, ← tallies, emissions_seen, List.map_map,
    List.append_assoc, ← conserved, List.append_assoc]
  exact congrArg (fun records => left log ++ (p.batch ++ records)) (List.map_id _).symm

/-- The sinks that run are on the list of everything the call ships. -/
theorem account_call {p : Pipeline} (account : Account log s) (present : s ∈ d.sinks)
    (wired : p.sinks = d.sinks.map LoadedSink.ref) (op : Op) : Account (log ++ seen d (call p op)) s := by
  apply account_grows account (emissions_seen d _) (List.mem_map_of_mem present)
  intro shipment member
  rw [shipments_seen] at member
  rw [((moves_call p op).toList shipment member).1, wired]
  exact List.mem_map_of_mem present

theorem balanced_call {p : Pipeline} (balanced : Balanced d log) (isPipeline : d.pipeline = some p) {op : Op}
    (notSet : ∀ sinks, op ≠ .setSinks sinks) (resolver : Option CgroupResolver) :
    Balanced { d with pipeline := some (call p op).after, resolver
                      trace := d.trace ++ (call p op).shipments.map .shipped } (log ++ seen d (call p op)) := by
  obtain ⟨settled, ⟨p', isPipeline', wired, tallies⟩, accounts, below, known, written, paid⟩ := balanced
  cases isPipeline.symm.trans isPipeline'
  refine ⟨⟨settled.sinks, settled.probes, ⟨settled.fresh.unique, settled.fresh.below⟩⟩,
    ⟨_, rfl, (sinks_call p notSet).trans wired, tallies_call tallies d op⟩, ?_, below, ?_, ?_,
    paid_call paid _ _ _⟩
  · exact fun s present => account_call (accounts s present) present wired op
  · intro e member home runs
    rw [emissions_append, emissions_seen, List.mem_append] at member
    rcases member with old | new
    · exact known e old home runs
    · obtain ⟨r, -, rfl⟩ := List.mem_map.mp new
      obtain ⟨s, present, rfl⟩ := List.mem_map.mp runs
      exact ⟨below s present, sink_file settled present⟩
  · intro shipment member ref wrote
    rw [shipments_append, shipments_seen, List.mem_append] at member
    rcases member with old | new
    · exact written shipment old ref wrote
    · rw [((moves_call p op).toList shipment new).1, wired] at wrote
      obtain ⟨s, present, rfl⟩ := List.mem_map.mp wrote
      exact below s present

/-- Between two states in which the pending batch is carried over. -/
theorem balanced_carried (balanced : Balanced d log) {events : List Event} (trace : d'.trace = d.trace ++ events)
    (carried : Carried gone d d') (settled : Settled d' d'.config.sinks d'.config.probes)
    (dir : d'.loader.pluginDir = d.loader.pluginDir) (fresh : FreshSinks d d')
    (clear : ∀ home, gone home → owed home log <:+ delivered home.ref log) :
    Balanced d' (log ++ events.map .did) := by
  obtain ⟨-, ⟨p, isPipeline, wired, tallies⟩, accounts, below, known, written, paid⟩ := balanced
  obtain ⟨p', isPipeline', wired', same⟩ := carried.piped p isPipeline wired
  obtain ⟨events', trace', unshipping, only⟩ := carried.events
  cases List.append_cancel_left (trace.symm.trans trace')
  have emitsNothing := emissions_did events
  have shipsNothing := shipments_unshipping unshipping
  have tallies' : Tallies (log ++ events.map .did) p.batch := by
    rw [Tallies, left_append, left, left, shipsNothing, emissions_append, emitsNothing]
    simpa [Tallies, left] using tallies
  have knows : ∀ e ∈ emissions (log ++ events.map .did), e ∈ emissions log := by
    intro e member
    rwa [emissions_append, emitsNothing, List.append_nil] at member
  have wrote : ∀ shipment ∈ shipments (log ++ events.map .did), shipment ∈ shipments log := by
    intro shipment member
    rwa [shipments_append, shipsNothing, List.append_nil] at member
  refine ⟨settled, ⟨p', isPipeline', wired', same ▸ tallies'⟩, ?_, ?_, ?_, ?_, ?_⟩
  · intro s present
    rcases fresh.fresh s present with old | ⟨since, -⟩
    · have entersNothing : emissions (events.map .did) = ([] : List Record).map fun r => (r, [s.home]) :=
        emitsNothing
      exact account_grows (accounts s old) entersNothing (List.mem_singleton_self _) (by simp [shipsNothing])
    · refine account_opens tallies' (fun e member runs => ?_) fun shipment member there => ?_
      · have before := (known e (knows e member) s.home runs).1
        exact absurd before (Nat.not_lt.mpr since)
      · exact absurd (written shipment (wrote shipment member) s.ref there) (Nat.not_lt.mpr since)
  · intro s present
    rcases fresh.fresh s present with old | ⟨-, soon⟩
    · exact Nat.lt_of_lt_of_le (below s old) fresh.nextRef
    · exact soon
  · intro e member home runs
    obtain ⟨before, file⟩ := known e (knows e member) home runs
    exact ⟨Nat.lt_of_lt_of_le before fresh.nextRef, dir ▸ file⟩
  · exact fun shipment member ref there =>
      Nat.lt_of_lt_of_le (written shipment (wrote shipment member) ref there) fresh.nextRef
  · exact paid_unshipping paid unshipping fun home member => clear home (only home member)

theorem since_appended {events : List Event} (trace : d'.trace = d.trace ++ events) :
    since d d' = events.map .did := by
  rw [since, trace, List.drop_left]

theorem since_self (d : Daemon) : since d d = [] := since_appended (List.append_nil _).symm

/-- What an observer writes down of one act. -/
def sightsOf (d : Daemon) (a : Act) : List Sight :=
  ((entering d a).map fun r => Sight.emitted r (d.sinks.map LoadedSink.home)) ++ since d (act d a)

/-- An act that comes down to a call into the pipeline. -/
theorem balanced_moved (balanced : Balanced d log) {p : Pipeline} (isPipeline : d.pipeline = some p) (op : Op)
    (notSet : ∀ sinks, op ≠ .setSinks sinks) {a : Act} (resolver : Option CgroupResolver)
    (moved : act d a = { d with pipeline := some (call p op).after, resolver
                                trace := d.trace ++ (call p op).shipments.map .shipped })
    (entered : entering d a = (call p op).enriched) : Balanced (act d a) (log ++ sightsOf d a) := by
  have trace := congrArg Daemon.trace moved
  have sights : sightsOf d a = seen d (call p op) := by
    rw [sightsOf, since_appended trace, entered, List.map_map]
    rfl
  rw [sights, moved]
  exact balanced_call balanced isPipeline notSet resolver

theorem balanced_still (balanced : Balanced d log) {a : Act} (still : act d a = d) (entered : entering d a = []) :
    Balanced (act d a) (log ++ sightsOf d a) := by
  rw [sightsOf, entered, still, since_self]
  simpa using balanced

theorem balanced_emit (balanced : Balanced d log) (out : Emitter) (bootOffsetNs : UInt64) (passwd : PasswdReply)
    (r : Record) :
    Balanced (act d (.emit out bootOffsetNs passwd r)) (log ++ sightsOf d (.emit out bootOffsetNs passwd r)) := by
  obtain ⟨p, isPipeline, -⟩ := balanced.piped
  cases isResolver : d.resolver with
  | none =>
    exact balanced_still balanced (by simp only [act, emit, isPipeline, isResolver])
      (by simp only [entering, isPipeline, isResolver])
  | some resolver =>
    refine balanced_moved balanced isPipeline (.emit ⟨resolver, bootOffsetNs, passwd⟩ (out.stamp r)) (by simp)
      (some (p.emit ⟨resolver, bootOffsetNs, passwd⟩ (out.stamp r)).2.2) ?_ ?_
    · simp only [act, emit, isPipeline, isResolver, call]
    · simp only [entering, isPipeline, isResolver, call]

theorem balanced_tick (balanced : Balanced d log) (monotonicNs : UInt64) (now : Int64) :
    Balanced (act d (.tick monotonicNs now)) (log ++ sightsOf d (.tick monotonicNs now)) := by
  obtain ⟨p, isPipeline, -⟩ := balanced.piped
  cases isResolver : d.resolver with
  | none => exact balanced_still balanced (by simp only [act, tick, isPipeline, isResolver]) rfl
  | some resolver =>
    rcases ticked : p.tick now with ⟨after, shipments⟩
    have called : call p (.tick now) = ⟨[], shipments, after⟩ := by rw [call, ticked]
    refine balanced_moved balanced isPipeline (.tick now) (by simp) (some (resolver.tick monotonicNs)) ?_ ?_
    · simp only [act, tick, isPipeline, isResolver, ticked, called]
    · rw [called, entering]

/-- A probe is owed nothing. -/
theorem owed_probe (balanced : Balanced d log) {home : Handle} (file : ProbeFile d.loader.pluginDir home.path) :
    owed home log = [] := by
  rw [owed, List.filter_eq_nil_iff.mpr fun e member runs => ?_]
  · rfl
  · exact kinds_apart (balanced.known e member home (by simpa using runs)).2 file

/-- A reload carries the batch over, and destroys what the new file takes down
and probes. -/
theorem carried_reload (settled : Settled d d.config.sinks d.config.probes) {next : Config}
    (hasPath : d.configPath ≠ []) (accepted : diffForReload d.config next ≠ none) (o : Outcomes) :
    Carried (fun home => (∃ s ∈ d.sinks, s.home = home ∧ s.id ∈ diffLoop d.config.sinks next.sinks) ∨
        ProbeFile d.loader.pluginDir home.path) d (d.reloadConfig o (some next)) ∧
      FreshSinks d (d.reloadConfig o (some next)) ∧
      (d.reloadConfig o (some next)).loader.pluginDir = d.loader.pluginDir := by
  rw [reload_accepted hasPath accepted]
  have sinkFrame := sink_phase_frame d o next
  have probeFrame := probe_phase_frame (sinkPhase d o next) o next
  have files : FromFiles (sinkPhase d o next) := by
    intro p present
    rw [dir_eq sinkFrame.settings]
    rw [sinkFrame.probes] at present
    exact probe_file settled present
  have sinkHalf := carried_sink_phase d o next
  have probeHalf := ((probing_probe_phase (sinkPhase d o next) o next).carried files).2
  rw [dir_eq sinkFrame.settings] at probeHalf
  have both := (sinkHalf.mono fun home gone => Or.inl gone).trans (probeHalf.mono fun home gone => Or.inr gone)
  have fresh := fresh_sinks_sink_phase d o next
  refine ⟨⟨both.piped, both.events⟩, ⟨Nat.le_trans fresh.nextRef probeFrame.nextRef, fun s present => ?_⟩,
    (dir_eq probeFrame.settings).trans (dir_eq sinkFrame.settings)⟩
  refine (fresh.fresh s (probeFrame.sinks ▸ present)).imp_right fun ⟨since, soon⟩ => ⟨since, ?_⟩
  exact Nat.lt_of_lt_of_le soon probeFrame.nextRef

theorem balanced_reload {w : Observed} (balanced : Balanced w.daemon w.log) (o : Outcomes) (loaded : Option Config)
    (clear : Clear w (.act (.reload o loaded))) :
    Balanced (w.daemon.reloadConfig o loaded) (w.log ++ since w.daemon (w.daemon.reloadConfig o loaded)) := by
  have still : w.daemon.reloadConfig o loaded = w.daemon →
      Balanced (w.daemon.reloadConfig o loaded) (w.log ++ since w.daemon (w.daemon.reloadConfig o loaded)) := by
    intro same
    rw [same, since_self, List.append_nil]
    exact balanced
  by_cases noPath : w.daemon.configPath = []
  · exact still (by simp [reloadConfig, noPath])
  cases loaded with
  | none => exact still (by simp [reloadConfig])
  | some next =>
    by_cases accepted : diffForReload w.daemon.config next = none
    · exact still (by simp [reloadConfig, accepted])
    obtain ⟨carried, fresh, dir⟩ := carried_reload balanced.settled noPath accepted o
    obtain ⟨events, trace, -⟩ := carried.events
    rw [since_appended trace]
    apply balanced_carried balanced trace carried (settled_reload balanced.settled o _) dir fresh
    rintro home (⟨s, present, rfl, named⟩ | file)
    · obtain ⟨p, -, -, tallies⟩ := balanced.piped
      exact paid_of_clear (balanced.accounts s present) tallies (clear noPath accepted s present named)
    · rw [owed_probe balanced file]
      exact List.nil_suffix

theorem balanced_act {w : Observed} (balanced : Balanced w.daemon w.log) (a : Act) (clear : Clear w (.act a)) :
    Balanced (act w.daemon a) (w.log ++ sightsOf w.daemon a) := by
  cases a with
  | emit out bootOffsetNs passwd r => exact balanced_emit balanced out bootOffsetNs passwd r
  | tick monotonicNs now => exact balanced_tick balanced monotonicNs now
  | reload o loaded => exact balanced_reload balanced o loaded clear

/-! ### The end, and the beginning -/

/-- At the end the batch is shipped first, so that nothing is pending for
whom it destroys. -/
theorem paid_shutdown (balanced : Balanced d log) (now : Int64) : Paid (log ++ since d (d.shutdown now)) := by
  obtain ⟨p, isPipeline, wired, tallies⟩ := balanced.piped
  let rest : List Event := (p.flush now).2.2.map .flushed ++ (if d.cgroupWatcher then [.detached .watcher] else []) ++
    d.probes.map (.detached ·.ptr) ++ d.probes.map (.destroyed ·.home) ++ d.sinks.map (.destroyed ·.home)
  have trace : (d.shutdown now).trace = d.trace ++ ((call p (.flush now)).shipments.map .shipped ++ rest) := by
    simp [shutdown, isPipeline, call, rest, Pipeline.flush]
  have shipped : since d (d.shutdown now) = seen d (call p (.flush now)) ++ rest.map .did := by
    rw [since_appended trace, List.map_append, List.map_map]
    rfl
  have flushed :=
    balanced_call balanced isPipeline (show ∀ sinks, Op.flush now ≠ .setSinks sinks by simp) d.resolver
  have nothingPending : (call p (.flush now)).after.batch = [] := by simp [call, Pipeline.flush, ship_fst]
  have tallies' := tallies_call tallies d (.flush now)
  rw [nothingPending] at tallies'
  have allLeft : unshipped (log ++ seen d (call p (.flush now))) = [] := by
    have lengths := congrArg List.length tallies'
    rw [List.append_nil, List.length_map] at lengths
    rw [unshipped, lengths, List.drop_length]
  rw [shipped, ← List.append_assoc]
  refine paid_unshipping flushed.paid ?_ fun home destroyed => ?_
  · intro e member s is
    subst is
    simp [rest] at member
  · have whose : (∃ p ∈ d.probes, p.home = home) ∨ ∃ s ∈ d.sinks, s.home = home := by
      simpa [rest] using destroyed
    rcases whose with ⟨p, present, rfl⟩ | ⟨s, present, rfl⟩
    · rw [owed_probe flushed (probe_file balanced.settled present)]
      exact List.nil_suffix
    · exact paid_of_clear (flushed.accounts s present) tallies' (by simp [allLeft])

theorem piped_pipeline (d : Daemon) (now : Int64) :
    (piped d now).pipeline = some ((Pipeline.new d.pipelineOptions [] now).setSinks (d.sinks.map LoadedSink.ref)) := by
  rw [piped, wire_sinks_pipeline]
  rfl

/-- The probes of a start come up beside a wired pipeline. -/
theorem balanced_start {env : StartOutcomes} (up : (start d env).1 = true) (empty : d.sinks = [] ∧ d.probes = []) :
    Balanced (start d env).2 [] := by
  have settled := settled_start up empty
  obtain ⟨resolver, -, -, result, -⟩ := start_true up
  have sinksFrame := (start_sinks_loop { d with resolver := some resolver } env.toOutcomes).1
  have fresh := fresh_sinks_start_sinks { d with resolver := some resolver } env.toOutcomes
  generalize startSinks { d with resolver := some resolver } env.toOutcomes = sinksUp at *
  have probesFrame := (start_probes_loop (watched (piped sinksUp env.now)) env.toOutcomes).1
  have probing := probing_start_probes (watched (piped sinksUp env.now)) env.toOutcomes
  have isSinks : (watched (piped sinksUp env.now)).sinks = sinksUp.sinks := by simp [watched, piped]
  have noProbes : (watched (piped sinksUp env.now)).probes = [] := by
    simp [watched, piped, sinksFrame.probes, empty.2]
  have files : FromFiles (watched (piped sinksUp env.now)) := by
    intro p present
    rw [noProbes] at present
    cases present
  obtain ⟨p, isPipeline, wired, batch⟩ := (probing.carried files).2.piped _ (piped_pipeline sinksUp env.now)
    (by rw [isSinks]; rfl)
  have tallies : Tallies [] p.batch := by
    rw [batch]
    rfl
  rw [result] at settled ⊢
  refine ⟨settled, ⟨p, isPipeline, wired, tallies⟩, ?_, ?_, by simp [emissions], by simp [shipments],
    by simp [Paid]⟩
  · exact fun s _ => account_opens tallies (by simp [emissions]) (by simp [shipments])
  · intro s present
    rw [probesFrame.sinks, isSinks] at present
    rcases fresh.fresh s present with old | ⟨-, soon⟩
    · simp [empty.1] at old
    · refine Nat.lt_of_lt_of_le soon (Nat.le_trans ?_ probesFrame.nextRef)
      simp [watched, piped]

/-- What every turn keeps. -/
def Kept (w : Observed) : Prop := Paid w.log ∧ (w.ended = false → Balanced w.daemon w.log)

/-- In every run that takes no sink down while a record is pending that the
sink was running for, whoever is destroyed has been handed all it was owed. -/
theorem debts_paid {w : Observed} (run : Runs Started Observed.step Clear w) : Paid w.log := by
  have kept : Kept w := by
    refine run.invariant ?_ ?_
    · rintro w ⟨config, configPath, env, up, rfl⟩
      exact ⟨by simp [Paid], fun _ => balanced_start up ⟨rfl, rfl⟩⟩
    · rintro w turn w' ⟨-, balanced⟩ clear ran
      unfold Observed.step at ran
      cases isOver : w.ended with
      | true => simp [isOver] at ran
      | false =>
        rw [isOver, if_neg Bool.false_ne_true] at ran
        cases turn with
        | act a =>
          cases ran
          have still := balanced_act (balanced isOver) a clear
          exact ⟨still.paid, fun _ => still⟩
        | shutdown now =>
          cases ran
          exact ⟨paid_shutdown (balanced isOver) now, nofun⟩
  exact kept.1

/-! ### Two instances of one sink, and a file without the second -/

def pair : Config where
  pluginDir := ascii "plugins"
  sinks := .ofList [(ascii "null", ComponentConfig.mk ∅),
    (ascii "spare", (ComponentConfig.mk ∅).set (ascii "plugin") (ascii "null"))]
  probes := .ofList [(ascii "oom", ComponentConfig.mk ∅)]

def solo : Config := { pair with sinks := .ofList [(ascii "null", ComponentConfig.mk ∅)] }

def comesUp : Observed := { daemon := (start (.new pair (ascii "slurm-tracer.json")) allUp).2 }

theorem comes_up_started : Started comesUp := ⟨pair, ascii "slurm-tracer.json", allUp, by decide, rfl⟩

def spare : Handle := ⟨pluginPath (ascii "plugins") (ascii "sink") (ascii "null"), 1⟩

def record : Turn := .act (.emit (.instance (ascii "oom")) 0 .notFound {})

def dropsSpare : Turn := .act (.reload allSucceed (some solo))

/-- Two seconds in, the pending batch is due. -/
def due : Turn := .act (.tick 0 2000000000)

def after (turns : List Turn) : Option Observed := turns.foldlM Observed.step comesUp

/-- The batch is shipped before the file changes. -/
theorem debts_paid_due : ∃ w, after [record, due, dropsSpare] = some w ∧ Paid w.log := by
  obtain ⟨shipped, ran⟩ : ∃ w, after [record, due] = some w := Option.isSome_iff_exists.mp (by decide)
  have settled : (after [record, due]).map (fun w => (unshipped w.log, w.ended)) = some ([], false) := by decide
  rw [ran, Option.map_some, Option.some_inj, Prod.mk.injEq] at settled
  obtain ⟨nothingPending, goesOn⟩ := settled
  have run : Runs Started Observed.step Clear shipped := by
    refine (Runs.start comes_up_started).along [record, due] (fun turn member w => ?_) ran
    simp only [List.mem_cons, List.not_mem_nil, or_false] at member
    rcases member with rfl | rfl <;> trivial
  obtain ⟨w, dropped⟩ : ∃ w, shipped.step dropsSpare = some w := by simp [Observed.step, goesOn, dropsSpare]
  refine ⟨w, ?_, debts_paid (run.next ?_ dropped)⟩
  · rw [after] at ran ⊢
    rw [show [record, due, dropsSpare] = [record, due] ++ [dropsSpare] from rfl, List.foldlM_append, ran]
    simpa using dropped
  · intro _ _ s _ _ e pending
    rw [nothingPending] at pending
    cases pending

/-- With the batch still open, the record never reaches the sink it was
emitted for. -/
theorem pending_record_lost : ∃ w, Runs Started Observed.step Anything w ∧ ∃ i home r,
    w.log[i]? = some (.did (.destroyed home)) ∧ r ∈ owed home (w.log.take i) ∧ r ∉ delivered home.ref (w.log.take i) := by
  obtain ⟨w, ran⟩ : ∃ w, after [record, dropsSpare] = some w := Option.isSome_iff_exists.mp (by decide)
  have sees : (after [record, dropsSpare]).map (fun w => (w.log[2]?, (owed spare (w.log.take 2)).length,
      delivered spare.ref (w.log.take 2))) = some (some (.did (.destroyed spare)), 1, []) := by decide
  rw [ran, Option.map_some, Option.some_inj, Prod.mk.injEq, Prod.mk.injEq] at sees
  obtain ⟨destroyed, one, nothing⟩ := sees
  obtain ⟨r, is⟩ := List.length_eq_one_iff.mp one
  exact ⟨w, (Runs.start comes_up_started).steps _ ran, 2, spare, r, destroyed, by simp [is], by simp [nothing]⟩

end SlurmTracer.SinkDebts
