import SlurmTracer.DropTotals
import SlurmTracer.FlushBarrier
import SlurmTracer.QueueConservation
import SlurmTracer.RunAccounts

/-!
From the pipeline into the sinks, with everything running at once. The queue of
every sink is what the sink's own steps make of the batches shipped to it, and
of nothing else. At the report every record that was counted has been shipped,
and nothing a listed sink was handed is left in it (`served_at_report`).
-/
namespace SlurmTracer.SinkHandover
open SlurmTracer.Core Lib Core.Threads DaemonProofs DaemonRuns NonBlocking ThreadSteps PipelineDelivery
open QueueConservation (Ledger Handled AtMostOneRetry)
open RunAccounts (shipmentsOf shippedRecords Undisturbed)
open FlushBarrier (Accounted InFlight)

/-- The batches that were written to the sink, in order. -/
def handed (ref : SinkRef) (trace : List Event) : List (List Record) :=
  ((shipmentsOf trace).filter fun s => ref ∈ s.sinks).map Shipment.batch

/-- The sinks that are alive: those listed, and the one being removed. -/
def instances (t : Threads) : List LoadedSink := t.daemon.sinks ++
  match t.position with
  | .flushing _ _ doomed _ | .joining _ _ doomed => [doomed]
  | _ => []

/-- The sink's own steps, over the batches it was handed and no others, lead to
its queue and to this ledger. -/
def Projects (t : Threads) (s : LoadedSink) (l : Ledger Record) : Prop :=
  ∃ steps, QueueConservation.run s.kind.step {} {} steps = some (t.queues s.ref, l) ∧
    l.accepted = handed s.ref t.daemon.trace

/-- What holds at every moment. The sinks below `began` are those of the start. -/
structure Books (began : Nat) (t : Threads) : Prop where
  piped : ∃ p, t.daemon.pipeline = some p ∧ p.sinks = t.daemon.sinks.map LoadedSink.ref ∧
    p.stats.records = (shippedRecords t.daemon.trace).length + p.batch.length
  once : ((instances t).map LoadedSink.ref).Nodup
  below : ∀ s ∈ instances t, s.ref < t.daemon.loader.nextRef
  past : ∀ shipment ∈ shipmentsOf t.daemon.trace, ∀ ref ∈ shipment.sinks, ref < t.daemon.loader.nextRef
  projects : ∀ s ∈ instances t, ∃ l, Projects t s l
  unstopped : ∀ s ∈ t.daemon.sinks, (t.queues s.ref).stopping = false
  older : began ≤ t.daemon.loader.nextRef
  whole : ∀ s ∈ t.daemon.sinks, s.ref < began → ∀ shipment ∈ shipmentsOf t.daemon.trace, s.ref ∈ shipment.sinks

variable {t t' : Threads} {began : Nat} {s : LoadedSink} {l : Ledger Record}

theorem listed_alive (listed : s ∈ t.daemon.sinks) : s ∈ instances t := List.mem_append_left _ listed

/-- Outside a removal only the listed sinks are alive. -/
theorem alive_listed (calm : match t.position with
    | .flushing _ _ _ _ | .joining _ _ _ => False
    | _ => True) : instances t = t.daemon.sinks := by
  unfold instances
  split at calm
  · cases calm
  · cases calm
  · exact List.append_nil _

theorem alive_of_running (running : t.Running s) : s ∈ instances t := by
  rcases running with listed | removed
  · exact listed_alive listed
  · refine List.mem_append_right _ ?_
    revert removed
    cases t.position <;> simp

/-! ### The sink's own run -/

section Runs
variable {step : QueueSink Record → SinkStep Record → Option (QueueSink Record)} {q q' : QueueSink Record}

theorem run_append (steps more : List (SinkStep Record)) (q : QueueSink Record) (l : Ledger Record) :
    QueueConservation.run step q l (steps ++ more) =
      (QueueConservation.run step q l steps).bind fun mid => QueueConservation.run step mid.1 mid.2 more := by
  induction steps generalizing q l with
  | nil => rfl
  | cons a steps ih =>
    rw [List.cons_append, QueueConservation.run, QueueConservation.run]
    cases step q a with
    | none => rfl
    | some q' => exact ih _ _

/-- The ledger takes down every batch that is written. -/
theorem run_writes (batches : List (List Record)) (nonempty : ∀ batch ∈ batches, batch ≠ []) (l : Ledger Record)
    (wrote : (batches.map .write).foldlM step q = some q') :
    ∃ l', QueueConservation.run step q l (batches.map .write) = some (q', l') ∧ l'.accepted = l.accepted ++ batches := by
  induction batches generalizing q l with
  | nil =>
    cases wrote
    exact ⟨l, rfl, (List.append_nil _).symm⟩
  | cons batch batches ih =>
    obtain ⟨here, nonempty⟩ := List.forall_mem_cons.mp nonempty
    rw [List.map_cons, List.foldlM_cons, Option.bind_eq_bind, Option.bind_eq_some_iff] at wrote
    obtain ⟨mid, first, rest⟩ := wrote
    obtain ⟨l', ran, accepted⟩ := ih nonempty (l.record q mid (.write batch)) rest
    refine ⟨l', ?_, ?_⟩
    · rw [List.map_cons, QueueConservation.run, first]
      exact ran
    · rw [accepted, Ledger.record, if_neg here, List.append_assoc, List.singleton_append]

/-- Only a write is accepted. -/
theorem record_accepted (l : Ledger Record) (before after : QueueSink Record) {a : SinkStep Record}
    (notWrite : ∀ batch, a ≠ .write batch) : (l.record before after a).accepted = l.accepted := by
  cases a with
  | write batch => exact absurd rfl (notWrite batch)
  | pop | attempt ok =>
    simp only [Ledger.record]
    split <;> rfl
  | finish | stop | exit => rfl

end Runs

/-- What the class of a sink takes the attempts at a batch for. -/
def acked : SinkKind → List Bool → Bool
  | .http _, posts => posts.getLast? == some true
  | .null, _ | .stdoutJson _, _ => true

/-- A step of a sink is a write to one that keeps nothing, or one of a queue. -/
theorem kind_step {kind : SinkKind} {q q' : QueueSink Record} {a : SinkStep Record} (ran : kind.step q a = some q') :
    (q' = q ∧ ∃ batch, a = .write batch) ∨
      ∃ capacity attempt, QueueConservation.Reads attempt (acked kind) ∧ q.step capacity attempt a = some q' := by
  cases kind with
  | null =>
    cases a with
    | write batch =>
      cases ran
      exact .inl ⟨rfl, batch, rfl⟩
    | _ => cases ran
  | stdoutJson maxQueuedBatches => exact .inr ⟨_, _, QueueConservation.stdout_json_reads, ran⟩
  | http opt => exact .inr ⟨_, _, QueueConservation.http_reads, ran⟩

/-- Nobody but the destructor stops a sink. -/
theorem step_running {kind : SinkKind} {q q' : QueueSink Record} {a : SinkStep Record} (ran : kind.step q a = some q')
    (notStop : a ≠ .stop) : q'.stopping = q.stopping := by
  rcases kind_step ran with ⟨rfl, -⟩ | ⟨capacity, attempt, -, stepped⟩
  · rfl
  · cases QueueSteps.change_of_step stepped with
    | write running written => rcases QueueSteps.write_some written with rfl | ⟨n, -, rfl⟩ <;> rfl
    | stop => exact absurd rfl notStop
    | _ => rfl

theorem worker_keeps_queued {kind : SinkKind} {q q' : QueueSink Record} {a : SinkStep Record}
    (workers : IsWorkers a = true) (ran : kind.step q a = some q') : q'.queuedBatches = q.queuedBatches := by
  rcases kind_step ran with ⟨rfl, -⟩ | ⟨capacity, attempt, -, stepped⟩
  · rfl
  · exact FlushBarrier.worker_keeps_queued stepped (by rintro batch rfl; cases workers)

theorem writes_running {kind : SinkKind} {q q' : QueueSink Record} (batches : List (List Record))
    (running : q.stopping = false) (wrote : (batches.map .write).foldlM kind.step q = some q') :
    q'.stopping = false := by
  refine Transition.steps_related (R := fun q q' => q.stopping = false → q'.stopping = false) (fun _ held => held)
    ?_ _ ?_ wrote running
  · exact fun first second held => second (first held)
  · intro a member q q' ran held
    obtain ⟨batch, -, rfl⟩ := List.mem_map.mp member
    exact (step_running ran nofun).trans held

theorem projects_step (projects : Projects t s l) {a : SinkStep Record} {q : QueueSink Record}
    (stepped : s.kind.step (t.queues s.ref) a = some q) (notWrite : ∀ batch, a ≠ .write batch) :
    ∃ l, Projects (t.setQueue s.ref q) s l := by
  obtain ⟨steps, ran, accepted⟩ := projects
  refine ⟨l.record (t.queues s.ref) q a, steps ++ [a], ?_, (record_accepted l _ _ notWrite).trans accepted⟩
  rw [run_append, ran, Option.bind_some, QueueConservation.run, stepped]
  simp [QueueConservation.run, setQueue]

/-! ### The writes of a shipment -/

theorem deliver_to_listed (distinct : (t.daemon.sinks.map LoadedSink.ref).Nodup) (listed : s ∈ t.daemon.sinks)
    {batch : List Record} {ref : SinkRef} (ran : deliverTo batch t ref = some t') :
    if s.ref = ref then s.kind.step (t.queues s.ref) (.write batch) = some (t'.queues s.ref)
    else t'.queues s.ref = t.queues s.ref := by
  unfold deliverTo at ran
  by_cases here : s.ref = ref
  · subst here
    rw [Keyed.find_key distinct listed] at ran
    obtain ⟨q, stepped, rfl⟩ := Option.map_eq_some_iff.mp ran
    simp [setQueue, stepped]
  · rw [if_neg here]
    split at ran
    · cases ran
      rfl
    · obtain ⟨q, -, rfl⟩ := Option.map_eq_some_iff.mp ran
      simp [setQueue, here]

/-- One pass over the sinks writes to each of them once. -/
theorem deliver_to_all (distinct : (t.daemon.sinks.map LoadedSink.ref).Nodup) (listed : s ∈ t.daemon.sinks)
    {batch : List Record} {refs : List SinkRef} (once : refs.Nodup)
    (ran : refs.foldlM (deliverTo batch) t = some t') :
    if s.ref ∈ refs then s.kind.step (t.queues s.ref) (.write batch) = some (t'.queues s.ref)
    else t'.queues s.ref = t.queues s.ref := by
  induction refs generalizing t with
  | nil =>
    cases ran
    rfl
  | cons ref refs ih =>
    obtain ⟨others, once⟩ := List.nodup_cons.mp once
    rw [List.foldlM_cons, Option.bind_eq_bind, Option.bind_eq_some_iff] at ran
    obtain ⟨mid, first, rest⟩ := ran
    have daemon : mid.daemon = t.daemon := (deliver_frame [⟨batch, [ref]⟩] (by simpa [deliver] using first)).2
    have here := deliver_to_listed distinct listed first
    have later := ih (t := mid) (by rwa [daemon]) (by rwa [daemon]) once rest
    by_cases same : s.ref = ref
    · rw [if_pos same] at here
      rw [if_neg (same ▸ others)] at later
      rwa [if_pos (by simp [same]), later]
    · rw [if_neg same] at here
      simpa only [List.mem_cons, same, false_or, here] using later

/-- What a listed sink gets of a call that ships to all of them. -/
theorem deliver_writes (distinct : (t.daemon.sinks.map LoadedSink.ref).Nodup) (listed : s ∈ t.daemon.sinks)
    {shipments : List Shipment} (toAll : ∀ shipment ∈ shipments, shipment.sinks = t.daemon.sinks.map LoadedSink.ref)
    (ran : deliver t shipments = some t') :
    ((shipments.map Shipment.batch).map SinkStep.write).foldlM s.kind.step (t.queues s.ref) =
      some (t'.queues s.ref) := by
  induction shipments generalizing t with
  | nil =>
    cases ran
    rfl
  | cons shipment shipments ih =>
    obtain ⟨here, toAll⟩ := List.forall_mem_cons.mp toAll
    rw [deliver, List.foldlM_cons, Option.bind_eq_bind, Option.bind_eq_some_iff] at ran
    obtain ⟨mid, first, rest⟩ := ran
    have daemon : mid.daemon = t.daemon := (deliver_frame [shipment] (by simpa [deliver] using first)).2
    have wrote := deliver_to_all distinct listed (by rwa [here]) first
    rw [here, if_pos (List.mem_map_of_mem listed)] at wrote
    have later := ih (t := mid) (by rwa [daemon]) (by rwa [daemon]) (by rwa [daemon]) rest
    rw [List.map_cons, List.map_cons, List.foldlM_cons, Option.bind_eq_bind, wrote, Option.bind_some]
    exact later

/-! ### Calls into the pipeline -/

/-- What a call ships, and what it leaves of the pipeline. -/
structure Ships (p p' : Pipeline) (shipments : List Shipment) : Prop where
  sinks : p'.sinks = p.sinks
  toAll : ∀ shipment ∈ shipments, shipment.sinks = p.sinks ∧ shipment.batch ≠ []
  counted : p'.stats.records + p.batch.length =
    p.stats.records + (shipments.flatMap Shipment.batch).length + p'.batch.length

theorem enrich_records (p : Pipeline) (s : Surroundings) (r : Record) :
    (p.enrich s r).2.1.stats.records = p.stats.records := by
  unfold Pipeline.enrich
  simp only
  split <;> simp only [(RunAccounts.enrich_user_keeps p s.passwd _).2.2]

theorem ships_emit (p : Pipeline) (s : Surroundings) (r : Record) : Ships p (p.emit s r).1 (p.emit s r).2.1 := by
  have moves := moves_call p (.emit s r)
  have sinks := @sinks_call p (.emit s r) nofun
  have total := congrArg List.length moves.conserved
  have counts := (RunAccounts.emit_counts p s r).1
  have records := enrich_records p s r
  simp only [call, ← List.flatMap_def, List.length_append, List.length_singleton] at moves sinks total
  refine ⟨sinks, fun shipment member => ⟨(moves.toList shipment member).1, (moves.toList shipment member).2.1⟩, ?_⟩
  rw [counts]
  simp only
  omega

theorem ships_ship (p : Pipeline) (lastFlush : Int64) : Ships p { p.ship.1 with lastFlush } p.ship.2 := by
  rw [ship_fst, ship_snd]
  by_cases empty : p.batch = []
  · rw [if_pos empty]
    exact ⟨rfl, nofun, by simp [empty]⟩
  · rw [if_neg empty]
    exact ⟨rfl, by simp [empty], by simp⟩

theorem ships_tick (p : Pipeline) (now : Int64) : Ships p (p.tick now).1 (p.tick now).2 := by
  rcases tick_cases p now with still | ships
  · rw [still]
    exact ⟨rfl, nofun, by simp⟩
  · rw [ships]
    exact ships_ship p now

theorem handed_grown (ref : SinkRef) (trace : List Event) (shipments : List Shipment)
    (toAll : ∀ shipment ∈ shipments, ref ∈ shipment.sinks) :
    handed ref (trace ++ shipments.map .shipped) = handed ref trace ++ shipments.map Shipment.batch := by
  have all : shipments.filter (fun s => ref ∈ s.sinks) = shipments := List.filter_eq_self.mpr (by simpa using toAll)
  rw [handed, RunAccounts.shipments_of_append, RunAccounts.shipments_of_shipped, List.filter_append, List.map_append,
    all, handed]

/-- The main loop calls into the pipeline, and every listed sink is written
to. -/
theorem books_deliver (books : Books began t) (polling : t.position = .polling) {p p' : Pipeline}
    {resolver : Option CgroupResolver} {shipments : List Shipment} (isPipeline : t.daemon.pipeline = some p)
    (ships : Ships p p' shipments)
    (ran : deliver { t with daemon := { t.daemon with
      pipeline := some p', resolver, trace := t.daemon.trace ++ shipments.map .shipped } } shipments = some t') :
    Books began t' := by
  obtain ⟨q, isPipeline', wired, records⟩ := books.piped
  cases isPipeline.symm.trans isPipeline'
  obtain ⟨position, daemon⟩ := deliver_frame shipments ran
  have alive : instances t' = t.daemon.sinks := by
    unfold instances
    rw [position, daemon, polling]
    exact List.append_nil _
  have was : instances t = t.daemon.sinks := by
    unfold instances
    rw [polling]
    exact List.append_nil _
  have once := books.once
  have below := books.below
  rw [was] at once below
  have toAll : ∀ shipment ∈ shipments, shipment.sinks = t.daemon.sinks.map LoadedSink.ref :=
    fun shipment member => (ships.toAll shipment member).1.trans wired
  have lists : ∀ s ∈ t.daemon.sinks, ∀ shipment ∈ shipments, s.ref ∈ shipment.sinks := by
    intro s listed shipment member
    rw [toAll shipment member]
    exact List.mem_map_of_mem listed
  refine ⟨?_, by rwa [alive], by rwa [alive, daemon], ?_, ?_, ?_, by rw [daemon]; exact books.older, ?_⟩
  · refine ⟨p', by rw [daemon], ships.sinks.trans (by rw [wired, daemon]), ?_⟩
    have counted := ships.counted
    rw [daemon, RunAccounts.shipped_records_grown, List.length_append]
    omega
  · intro shipment member ref listed
    rw [daemon, RunAccounts.shipments_of_append, RunAccounts.shipments_of_shipped, List.mem_append] at member
    rw [daemon]
    rcases member with old | new
    · exact books.past shipment old ref listed
    · rw [toAll shipment new] at listed
      obtain ⟨s, present, rfl⟩ := List.mem_map.mp listed
      exact below s present
  · intro s listed
    rw [alive] at listed
    obtain ⟨l, steps, before, accepted⟩ := books.projects s (listed_alive listed)
    have wrote := deliver_writes (s := s) (by exact once) (by exact listed) (by exact toAll) ran
    obtain ⟨l', after, more⟩ := run_writes (shipments.map Shipment.batch)
      (by simpa using fun shipment member => (ships.toAll shipment member).2) l wrote
    refine ⟨l', steps ++ (shipments.map Shipment.batch).map .write, ?_, ?_⟩
    · rw [run_append, before, Option.bind_some]
      exact after
    · rw [more, accepted, daemon]
      exact (handed_grown _ _ _ (lists s listed)).symm
  · intro s listed
    rw [daemon] at listed
    have wrote := deliver_writes (s := s) (by exact once) (by exact listed) (by exact toAll) ran
    exact writes_running _ (books.unstopped s listed) wrote
  · intro s listed old shipment member
    rw [daemon] at listed
    rw [daemon, RunAccounts.shipments_of_append, RunAccounts.shipments_of_shipped, List.mem_append] at member
    exact member.elim (books.whole s listed old shipment) (lists s listed shipment)

/-! ### Everything else the threads do -/

theorem Books.once_of (books : Books began t) {listed : List LoadedSink} (are : instances t = listed) :
    (listed.map LoadedSink.ref).Nodup := are ▸ books.once

/-- A step that ships nothing and leaves the queues of the sinks that live on
alone. -/
theorem books_beside (books : Books began t) (undisturbed : Undisturbed t.daemon t'.daemon)
    (sinks : t'.daemon.sinks ⊆ t.daemon.sinks) (alive : instances t' ⊆ instances t)
    (once : ((instances t').map LoadedSink.ref).Nodup) (nextRef : t.daemon.loader.nextRef ≤ t'.daemon.loader.nextRef)
    (queues : ∀ s ∈ instances t', t'.queues s.ref = t.queues s.ref) : Books began t' := by
  obtain ⟨p, isPipeline, wired, records⟩ := books.piped
  have shipments := undisturbed.shipments
  refine ⟨⟨_, undisturbed.pipeline p isPipeline wired, rfl, ?_⟩, once, ?_, ?_, ?_, ?_, Nat.le_trans books.older nextRef, ?_⟩
  · rw [shippedRecords, shipments]
    exact records
  · exact fun s member => Nat.lt_of_lt_of_le (books.below s (alive member)) nextRef
  · rw [shipments]
    exact fun shipment member ref listed => Nat.lt_of_lt_of_le (books.past shipment member ref listed) nextRef
  · intro s member
    obtain ⟨l, steps, ran, accepted⟩ := books.projects s (alive member)
    exact ⟨l, steps, by rw [queues s member, ran], by rw [accepted, handed, handed, shipments]⟩
  · intro s listed
    rw [queues s (listed_alive listed)]
    exact books.unstopped s (sinks listed)
  · rw [shipments]
    exact fun s listed => books.whole s (sinks listed)

/-- A step of one sink that is not a write. -/
theorem books_sink_step (books : Books began t) (member : s ∈ instances t) {a : SinkStep Record} {q : QueueSink Record}
    (stepped : s.kind.step (t.queues s.ref) a = some q) (notWrite : ∀ batch, a ≠ .write batch)
    (stops : a = .stop → s ∉ t.daemon.sinks) : Books began (t.setQueue s.ref q) := by
  have one : ∀ other ∈ instances t, other.ref = s.ref → other = s :=
    fun other alive same => List.inj_on_of_nodup_map books.once alive member same
  refine ⟨books.piped, books.once, books.below, books.past, ?_, ?_, books.older, books.whole⟩
  · intro other alive
    obtain ⟨l, projects⟩ := books.projects other alive
    by_cases here : other.ref = s.ref
    · cases one other alive here
      exact projects_step projects stepped notWrite
    · obtain ⟨steps, ran, accepted⟩ := projects
      exact ⟨l, steps, by simpa [setQueue, here] using ran, accepted⟩
  · intro other listed
    by_cases here : other.ref = s.ref
    · cases one other (listed_alive listed) here
      have running := step_running stepped fun isStop => stops isStop listed
      simpa [setQueue] using running.trans (books.unstopped s listed)
    · simpa [setQueue, here] using books.unstopped other listed

theorem add_sink_from_grows (next : Config) (o : Outcomes) (d : Daemon) (id : Bytes) :
    (Daemon.addSinkFrom next o d id).sinks = d.sinks ∨ ∃ s, (Daemon.addSinkFrom next o d id).sinks = d.sinks ++ [s] ∧
      s.ref = d.loader.nextRef ∧ s.ref < (Daemon.addSinkFrom next o d id).loader.nextRef := by
  unfold Daemon.addSinkFrom
  cases next.sinks[id]? with
  | none => exact .inl rfl
  | some config => exact DropTotals.add_sink_grows d o id config

theorem books_add_sink (books : Books began t) {r : Reload} {id : Bytes} {ids : List Bytes}
    (place : t.position = .addingSinks r (id :: ids)) :
    Books began { t.addSink r id with position := .addingSinks r ids } := by
  have was : instances t = t.daemon.sinks := alive_listed (by rw [place]; trivial)
  have undisturbed := RunAccounts.undisturbed_add_sink_from r.next r.o t.daemon id
  have apart : ∀ s ∈ t.daemon.sinks, (t.addSink r id).queues s.ref = t.queues s.ref := by
    intro s listed
    have below := books.below s (listed_alive listed)
    simp [addSink, setQueue, Nat.ne_of_lt below]
  have alive : instances { t.addSink r id with position := .addingSinks r ids } =
      (Daemon.addSinkFrom r.next r.o t.daemon id).sinks := alive_listed trivial
  have moves := DropTotals.moves_add_sink t r id
  have nextRef := moves.nextRef
  have once := books.once_of was
  rcases add_sink_from_grows r.next r.o t.daemon id with same | ⟨new, grown, ref, below⟩
  · refine books_beside books undisturbed (by exact same ▸ List.Subset.refl _) ?_ ?_ nextRef ?_ <;> rw [alive, same]
    · exact was ▸ List.Subset.refl _
    · exact once
    · exact apart
  · obtain ⟨p, isPipeline, wired, records⟩ := books.piped
    have shipments := undisturbed.shipments
    refine ⟨⟨_, undisturbed.pipeline p isPipeline wired, rfl, ?_⟩, ?_, ?_, ?_, ?_, ?_, Nat.le_trans books.older nextRef, ?_⟩
    · simp only [shippedRecords, addSink, shipments]
      exact records
    · rw [alive, grown, List.map_append]
      refine Keyed.nodup_snoc once fun taken => ?_
      obtain ⟨s, listed, same⟩ := List.mem_map.mp taken
      exact Nat.ne_of_lt (books.below s (listed_alive listed)) (same.trans ref)
    · rw [alive, grown]
      intro s member
      rcases List.mem_append.mp member with old | isNew
      · exact Nat.lt_of_lt_of_le (books.below s (listed_alive old)) nextRef
      · rw [List.mem_singleton.mp isNew]
        exact below
    · simp only [addSink, shipments]
      exact fun shipment member ref listed => Nat.lt_of_lt_of_le (books.past shipment member ref listed) nextRef
    · rw [alive, grown]
      intro s member
      rcases List.mem_append.mp member with old | isNew
      · obtain ⟨l, steps, ran, accepted⟩ := books.projects s (listed_alive old)
        refine ⟨l, steps, (by rw [ran, ← apart s old]), ?_⟩
        simpa only [handed, addSink, shipments] using accepted
      · rw [List.mem_singleton.mp isNew]
        have nothing : handed new.ref t.daemon.trace = [] := by
          rw [handed, List.map_eq_nil_iff, List.filter_eq_nil_iff]
          intro shipment member listed
          have known := books.past shipment member new.ref (by simpa using listed)
          exact Nat.ne_of_lt known ref
        refine ⟨{}, [], ?_, ?_⟩
        · simp [QueueConservation.run, addSink, setQueue, ref]
        · simpa only [handed, addSink, shipments] using nothing.symm
    · intro s listed
      rcases List.mem_append.mp (by exact grown ▸ listed : s ∈ t.daemon.sinks ++ [new]) with old | isNew
      · exact (congrArg (·.stopping) (apart s old)).trans (books.unstopped s old)
      · rw [List.mem_singleton.mp isNew]
        simp [addSink, setQueue, ref]
    · simp only [addSink, shipments]
      intro s listed old
      rcases List.mem_append.mp (by exact grown ▸ listed : s ∈ t.daemon.sinks ++ [new]) with present | isNew
      · exact books.whole s present old
      · rw [List.mem_singleton.mp isNew, ref] at old
        exact absurd old (Nat.not_lt.mpr books.older)

theorem books_proceed (books : Books began t) (proceeds : Proceeds t t') : Books began t' := by
  -- Steps that leave the sinks as they are.
  have calm : ∀ {daemon position}, (instances t = t.daemon.sinks) →
      instances { t with daemon, position } = daemon.sinks → daemon.sinks = t.daemon.sinks →
      Undisturbed t.daemon daemon → t.daemon.loader.nextRef ≤ daemon.loader.nextRef →
      Books began { t with daemon, position } := by
    intro daemon position was alive sinks undisturbed nextRef
    have once := books.once
    refine books_beside books undisturbed (sinks ▸ List.Subset.refl _) ?_ ?_ nextRef fun _ _ => rfl
    · rw [alive, sinks, was]
      exact List.Subset.refl _
    · rwa [alive, sinks, ← was]
  cases proceeds with
  | sinksRemoved place | notListed place _ | sinksAdded place | probesRemoved place =>
    exact calm (alive_listed (by rw [place]; trivial)) (alive_listed trivial) rfl (.refl _) (Nat.le_refl _)
  | committed place commit =>
    refine calm (alive_listed (by rw [place]; trivial)) (alive_listed trivial) rfl ?_ (Nat.le_refl _)
    exact RunAccounts.undisturbed_traced [] rfl rfl rfl rfl (List.append_nil _).symm
  | @removeProbe r id ids place =>
    have frame := remove_probe_frame t.daemon r.o id
    exact calm (alive_listed (by rw [place]; trivial)) (alive_listed trivial) frame.sinks
      (RunAccounts.undisturbed_remove_probe _ _ _) frame.nextRef
  | @addProbe r id ids place =>
    have frame := DropTotals.add_probe_from_frame r.next r.o t.daemon id
    exact calm (alive_listed (by rw [place]; trivial)) (alive_listed trivial) frame.sinks
      (RunAccounts.undisturbed_add_probe_from _ _ _ _) frame.nextRef
  | addSink place => exact books_add_sink books place
  | @discarded r id ids doomed daemon place unlinked null =>
    have was : instances t = t.daemon.sinks := alive_listed (by rw [place]; trivial)
    obtain ⟨-, -, sinks, loader⟩ := unlink_sink_some unlinked
    have once := books.once_of was
    have alive : instances { t with daemon := daemon.discardSink doomed, position := .removingSinks r ids } =
        t.daemon.sinks.erase doomed := (alive_listed trivial).trans sinks
    refine books_beside books ((RunAccounts.undisturbed_unlink_sink unlinked).trans
      (RunAccounts.undisturbed_discard_sink _ _)) ?_ ?_ ?_ ?_ fun _ _ => rfl
    · exact (sinks ▸ List.erase_sublist.subset : daemon.sinks ⊆ t.daemon.sinks)
    · rw [alive, was]
      exact List.erase_sublist.subset
    · rw [alive]
      exact once.sublist (List.erase_sublist.map _)
    · rw [discard_sink_next_ref, loader]
  | @unlinked r id ids doomed daemon place unlinked backed =>
    have was : instances t = t.daemon.sinks := alive_listed (by rw [place]; trivial)
    obtain ⟨listed, -, sinks, loader⟩ := unlink_sink_some unlinked
    have once := books.once_of was
    have moved : (daemon.sinks ++ [doomed]).Perm t.daemon.sinks := by
      rw [sinks]
      exact (List.perm_append_singleton _ _).trans (List.perm_cons_erase listed).symm
    refine books_beside books (RunAccounts.undisturbed_unlink_sink unlinked) ?_ ?_ ?_ ?_ fun _ _ => rfl
    · exact (sinks ▸ List.erase_sublist.subset : daemon.sinks ⊆ t.daemon.sinks)
    · rw [was]
      exact moved.subset
    · exact ((moved.map _).nodup_iff).mpr once
    · exact Nat.le_of_eq (by rw [loader])
  | @flushed r ids doomed target q place passes stopped =>
    have was : instances t = t.daemon.sinks ++ [doomed] := by rw [instances, place]
    have apart : doomed ∉ t.daemon.sinks := by
      intro listed
      have once := books.once_of was
      rw [List.map_append, List.nodup_append] at once
      exact once.2.2 _ (List.mem_map_of_mem listed) _ (List.mem_map_of_mem (by simp)) rfl
    have stepped := books_sink_step books (by rw [was]; simp) stopped nofun fun _ => apart
    refine books_beside stepped (.refl _) (List.Subset.refl _) ?_ ?_ (Nat.le_refl _) fun _ _ => rfl
    · exact (was ▸ List.Subset.refl _ : t.daemon.sinks ++ [doomed] ⊆ instances t)
    · exact books.once_of was
  | @joined r ids doomed place exited =>
    have was : instances t = t.daemon.sinks ++ [doomed] := by rw [instances, place]
    have alive : instances { t with daemon := t.daemon.discardSink doomed, position := .removingSinks r ids } =
        t.daemon.sinks := alive_listed trivial
    refine books_beside books (RunAccounts.undisturbed_discard_sink _ _) (List.Subset.refl _) ?_ ?_
      (Nat.le_of_eq (discard_sink_next_ref _ _).symm) fun _ _ => rfl
    · rw [alive, was]
      exact List.subset_append_left _ _
    · have once := books.once_of was
      rw [List.map_append] at once
      rw [alive]
      exact once.sublist (List.sublist_append_left _ _)

theorem books_still (books : Books began t) {daemon : Daemon} (same : daemon = t.daemon)
    (ran : deliver { t with daemon } (shippedSince t.daemon daemon) = some t') : Books began t' := by
  subst same
  have nothing : shippedSince t.daemon t.daemon = [] := by simp [shippedSince]
  rw [nothing] at ran
  cases ran
  exact books

theorem shipped_since {before after : Daemon} {shipments : List Shipment}
    (grown : after.trace = before.trace ++ shipments.map .shipped) : shippedSince before after = shipments := by
  rw [shippedSince, grown, List.drop_left, List.filterMap_map]
  exact List.filterMap_some

theorem books_step {a : ThreadStep} (books : Books began t) (stepped : Stepped t a t') : Books began t' := by
  obtain ⟨p, isPipeline, -⟩ := books.piped
  cases stepped with
  | @emit out bootOffsetNs passwd r daemon _ polling emitted delivered =>
    cases resolved : t.daemon.resolver with
    | none => exact books_still books (by simp only [emitted, Daemon.emit, isPipeline, resolved]) delivered
    | some resolver =>
      simp only [Daemon.emit, isPipeline, resolved] at emitted
      subst emitted
      rw [shipped_since rfl] at delivered
      exact books_deliver books polling isPipeline (ships_emit p _ _) delivered
  | @tick monotonicNs now daemon _ polling ticked delivered =>
    cases resolved : t.daemon.resolver with
    | none => exact books_still books (by simp only [ticked, Daemon.tick, isPipeline, resolved]) delivered
    | some resolver =>
      have ships := ships_tick p now
      simp only [Daemon.tick, isPipeline, resolved] at ticked
      generalize p.tick now = after at ticked ships
      subst ticked
      rw [shipped_since rfl] at delivered
      exact books_deliver books polling isPipeline ships delivered
  | reload polling hasPath accepted =>
    have was : instances t = t.daemon.sinks := alive_listed (by rw [polling]; trivial)
    have once := books.once_of was
    refine books_beside books (.refl _) (List.Subset.refl _) ?_ ?_ (Nat.le_refl _) fun _ _ => rfl
    · rw [alive_listed (by trivial), was]
      exact List.Subset.refl _
    · rwa [alive_listed (by trivial)]
  | proceed proceeds => exact books_proceed books proceeds
  | worker workers running stepped =>
    refine books_sink_step books ?_ stepped ?_ ?_
    · exact alive_of_running running
    · rintro batch rfl
      cases workers
    · rintro rfl
      cases workers

theorem books_start {config : Config} {configPath : Bytes} {env : StartOutcomes}
    (up : (Daemon.start (.new config configPath) env).1 = true) :
    Books (Daemon.start (.new config configPath) env).2.loader.nextRef
      { daemon := (Daemon.start (.new config configPath) env).2 } := by
  obtain ⟨once, below⟩ := DropTotals.sink_refs_start up
  obtain ⟨p, isPipeline, wired, noStats, noBatch, silent⟩ := RunAccounts.start_unshipped up
  generalize (Daemon.start (.new config configPath) env).2 = d at *
  have alive : instances { daemon := d } = d.sinks := alive_listed trivial
  refine ⟨⟨p, isPipeline, wired, ?_⟩, by rwa [alive], by rwa [alive], ?_, ?_, fun _ _ => rfl, Nat.le_refl _, ?_⟩
  · rw [shippedRecords, silent, noStats, noBatch]
    rfl
  · simp [silent]
  · exact fun s _ => ⟨{}, [], rfl, by simp [handed, silent]⟩
  · simp [silent]

/-! ### The end of the run -/

theorem accounted_run {kind : SinkKind} (steps : List (SinkStep Record)) {q q' : QueueSink Record}
    {l l' : Ledger Record} (accounted : Accounted q) (ran : QueueConservation.run kind.step q l steps = some (q', l')) :
    Accounted q' := by
  induction steps generalizing q l with
  | nil =>
    cases ran
    exact accounted
  | cons a steps ih =>
    rw [QueueConservation.run] at ran
    split at ran
    · cases ran
    · rename_i mid stepped
      refine ih ?_ ran
      rcases kind_step stepped with ⟨rfl, -⟩ | ⟨capacity, attempt, -, stepped⟩
      · exact accounted
      · exact FlushBarrier.accounted_step accounted stepped

theorem no_room (queue : List (List Record)) (written dropped : Nat) :
    SinkQueue.evictLoop 0 queue written dropped = none := by
  induction queue generalizing written dropped with
  | nil => rfl
  | cons batch queue ih =>
    rw [SinkQueue.evictLoop, if_pos (Nat.zero_le _)]
    exact ih _ _

/-- A queue without room takes no step that one with room for a batch would not
take. -/
theorem step_with_room {capacity : Nat} {attempt : Nat → Bool → Attempt} {q q' : QueueSink Record}
    {a : SinkStep Record} (ran : q.step capacity attempt a = some q') : q.step (max 1 capacity) attempt a = some q' := by
  by_cases room : 1 ≤ capacity
  · rwa [Nat.max_eq_right room]
  · have none : capacity = 0 := by omega
    subst none
    cases a with
    | write batch =>
      by_cases empty : batch = []
      · simpa only [QueueSink.step, SinkQueue.write, if_pos empty] using ran
      · cases stopping : q.stopping <;> simp [QueueSink.step, SinkQueue.write, empty, no_room, stopping] at ran
    | _ => exact ran

theorem run_mono {step step' : QueueSink Record → SinkStep Record → Option (QueueSink Record)}
    (more : ∀ {q a q'}, step q a = some q' → step' q a = some q') (steps : List (SinkStep Record))
    {q q' : QueueSink Record} {l l' : Ledger Record} (ran : QueueConservation.run step q l steps = some (q', l')) :
    QueueConservation.run step' q l steps = some (q', l') := by
  induction steps generalizing q l with
  | nil => exact ran
  | cons a steps ih =>
    rw [QueueConservation.run] at ran ⊢
    split at ran
    · cases ran
    · rename_i mid stepped
      rw [more stepped]
      exact ih ran

/-- What the invariant of the sink's class says of a sink that has a queue. -/
theorem inv_of_projects (projects : Projects t s l) (backed : s.kind ≠ .null) :
    ∃ capacity, QueueConservation.Inv capacity (acked s.kind) (t.queues s.ref) l := by
  obtain ⟨steps, ran, -⟩ := projects
  cases is : s.kind with
  | null => exact absurd is backed
  | stdoutJson maxQueuedBatches =>
    rw [is] at ran
    exact ⟨_, QueueConservation.inv_run (Nat.le_max_left _ _) QueueConservation.stdout_json_reads steps
      (QueueConservation.inv_initial _ _) (run_mono step_with_room steps (by exact ran))⟩
  | http maxQueuedBatches =>
    rw [is] at ran
    exact ⟨_, QueueConservation.inv_run (Nat.le_max_left _ _) QueueConservation.http_reads steps
      (QueueConservation.inv_initial _ _) (run_mono step_with_room steps (by exact ran))⟩

end SlurmTracer.SinkHandover
