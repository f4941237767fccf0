import SlurmTracer.DaemonRuns
import SlurmTracer.ThreadSteps

/-!
Whether the daemon thread ever waits for a worker. On the hot path it never
does; on the reload path it waits in `flush` and in the destructor of every
sink it removes that has a worker. A run in which no reload removes such a sink
never waits (`never_waits`).
-/
namespace SlurmTracer.NonBlocking
open SlurmTracer.Core Lib Core.Threads DaemonProofs DaemonRuns ThreadSteps Lib.Transition

/-- The daemon thread waits for a condition only a worker can make true: the
drain of a queue, or its worker's exit. -/
def Waiting (t : Threads) : Prop :=
  match t.position with
  | .flushing _ _ doomed target => (t.queues doomed.ref).flushPasses target = false
  | .joining _ _ doomed => (t.queues doomed.ref).worker ≠ .exited
  | _ => False

/-- A daemon that came up, with nothing queued anywhere. -/
def Came (t : Threads) : Prop :=
  ∃ config configPath env, (Daemon.start (.new config configPath) env).1 = true ∧
    t = { daemon := (Daemon.start (.new config configPath) env).2 }

/-- An accepted reload takes down no running sink that has a worker. -/
def SparesWorkers (t : Threads) : ThreadStep → Prop
  | .reload _ next => ∀ diff, diffForReload t.daemon.config next = some diff →
      ∀ id ∈ diff.removedSinks, ∀ s ∈ t.daemon.sinks, s.id = id → s.kind = .null
  | .emit _ _ _ _ | .tick _ _ | .proceed | .worker _ _ => True

/-! ### While it waits, only workers move -/

/-- Whatever step is taken while the daemon thread waits, a worker takes it. -/
theorem waiting_only_workers {t t' : Threads} {a : ThreadStep} (waiting : Waiting t)
    (ran : step t a = some t') : ∃ sink w, a = .worker sink w ∧ IsWorkers w = true := by
  unfold Waiting at waiting
  cases stepped_of_step ran with
  | worker workers _ _ => exact ⟨_, _, rfl, workers⟩
  | emit polling _ _ | tick polling _ _ | reload polling _ _ => simp only [polling] at waiting
  | proceed proceeds =>
    cases proceeds with
    | flushed place passes _ =>
      simp only [place] at waiting
      rw [waiting] at passes
      cases passes
    | joined place exited =>
      simp only [place] at waiting
      exact absurd exited waiting
    | sinksRemoved place | notListed place _ | discarded place _ _ | unlinked place _ _ | sinksAdded place
    | addSink place | probesRemoved place | removeProbe place | committed place _ | addProbe place =>
      simp only [place] at waiting

/-! ### Where the daemon thread stands -/

/-- The daemon thread is never inside a call on a sink with a worker, and the
removals it has left to do name none. -/
def Unhindered (t : Threads) : Prop :=
  match t.position with
  | .removingSinks _ ids => ∀ id ∈ ids, ∀ s ∈ t.daemon.sinks, s.id = id → s.kind = .null
  | .flushing _ _ _ _ | .joining _ _ _ => False
  | .polling | .addingSinks _ _ | .removingProbes _ _ | .addingProbes _ _ => True

private theorem deliver_to_frame {batch : List Record} {t t' : Threads} {ref : SinkRef}
    (ran : deliverTo batch t ref = some t') : t'.position = t.position ∧ t'.daemon = t.daemon := by
  unfold deliverTo at ran
  split at ran
  · cases ran
    exact ⟨rfl, rfl⟩
  · obtain ⟨q, -, rfl⟩ := Option.map_eq_some_iff.mp ran
    exact ⟨rfl, rfl⟩

/-- The writes move neither the daemon thread nor the daemon. -/
theorem deliver_frame (shipments : List Shipment) {t t' : Threads} (ran : deliver t shipments = some t') :
    t'.position = t.position ∧ t'.daemon = t.daemon :=
  deliver_related (R := fun t t' => t'.position = t.position ∧ t'.daemon = t.daemon) (fun _ => ⟨rfl, rfl⟩)
    (fun first second => ⟨second.1.trans first.1, second.2.trans first.2⟩) deliver_to_frame shipments ran

private theorem unhindered_proceed {t t' : Threads} (held : Unhindered t) (proceeds : Proceeds t t') :
    Unhindered t' := by
  unfold Unhindered at held
  cases proceeds with
  | @notListed r id ids place absent =>
    simp only [place] at held
    exact fun other member => held other (List.mem_cons_of_mem _ member)
  | @discarded r id ids doomed daemon place unlinked null =>
    simp only [place] at held
    obtain ⟨-, -, sinks, -⟩ := unlink_sink_some unlinked
    intro other later s listed
    rw [discard_sink_sinks, sinks] at listed
    exact held other (List.mem_cons_of_mem _ later) s (List.mem_of_mem_erase listed)
  | unlinked place unlinked backed =>
    simp only [place] at held
    obtain ⟨member, named, -, -⟩ := unlink_sink_some unlinked
    exact absurd (held _ List.mem_cons_self _ member named) backed
  | flushed place _ _ | joined place _ => simp only [place] at held
  | sinksRemoved _ | sinksAdded _ | addSink _ | probesRemoved _ | removeProbe _ | committed _ _ | addProbe _ => trivial

theorem unhindered_step {t t' : Threads} {a : ThreadStep} (held : Unhindered t) (meets : SparesWorkers t a)
    (ran : step t a = some t') : Unhindered t' := by
  cases stepped_of_step ran with
  | proceed proceeds => exact unhindered_proceed held proceeds
  | worker _ _ _ => exact held
  | emit polling _ delivered | tick polling _ delivered =>
    have position := (deliver_frame _ delivered).1
    simp only [Unhindered, position, polling]
  | reload _ _ accepted => exact meets _ accepted

/-- In a run in which no reload removes a running sink with a worker, the
daemon thread never waits for one. -/
theorem never_waits {t : Threads} (reached : Runs Came step SparesWorkers t) : ¬ Waiting t := by
  have held : Unhindered t := reached.invariant
    (fun s came => by obtain ⟨_, _, _, _, rfl⟩ := came; trivial)
    fun s a s' held meets ran => unhindered_step held meets ran
  unfold Unhindered at held
  unfold Waiting
  split
  · rename_i place
    simp only [place] at held
  · rename_i place
    simp only [place] at held
  · exact id

private theorem stop_keeps_worker {kind : SinkKind} (backed : kind ≠ .null) (q : QueueSink Record) :
    kind.step q .stop = some { q with stopping := true } := by
  cases kind with
  | null => exact absurd rfl backed
  | stdoutJson maxQueuedBatches => rfl
  | http maxQueuedBatches => rfl

/-- Removing a sink whose worker runs makes the daemon thread wait: for the
queue to drain, or, if nothing is queued, for the worker to exit. -/
theorem removal_waits {t : Threads} {r : Reload} {id : Bytes} {ids : List Bytes} {doomed : LoadedSink}
    {daemon : Daemon} (here : t.position = .removingSinks r (id :: ids))
    (unlinked : t.daemon.unlinkSink id = some (doomed, daemon)) (backed : doomed.kind ≠ .null)
    (runs : (t.queues doomed.ref).worker ≠ .exited) :
    ∃ t₁, t.proceed = some t₁ ∧ (Waiting t₁ ∨ ∃ t₂, t₁.proceed = some t₂ ∧ Waiting t₂) := by
  refine ⟨{ t with daemon, position := .flushing r ids doomed (t.queues doomed.ref).flushTarget }, ?_, ?_⟩
  · simp only [Threads.proceed, here, unlinked, if_neg backed]
  · cases passes : (t.queues doomed.ref).flushPasses (t.queues doomed.ref).flushTarget with
    | false => exact Or.inl passes
    | true =>
      let stopped : QueueSink Record := { t.queues doomed.ref with stopping := true }
      refine Or.inr ⟨{ setQueue { t with daemon } doomed.ref stopped with position := .joining r ids doomed }, ?_, ?_⟩
      · simp only [Threads.proceed, passes, if_true, stop_keeps_worker backed, Option.map_some]
        rfl
      · simpa only [Waiting, setQueue, if_true] using runs

/-! ### The thread carries out the reload -/

/-- What the daemon will be once the reload under way is through. -/
def finished (t : Threads) : Daemon :=
  let commit (r : Reload) (d : Daemon) : Daemon :=
    { d with config := { d.config with sinks := r.next.sinks, probes := r.next.probes } }
  let addProbes (r : Reload) (ids : List Bytes) (d : Daemon) : Daemon :=
    commit r (ids.foldl (Daemon.addProbeFrom r.next r.o) d)
  let removeProbes (r : Reload) (ids : List Bytes) (d : Daemon) : Daemon :=
    addProbes r r.diff.addedProbes (ids.foldl (fun d id => d.removeProbe r.o id) d)
  let addSinks (r : Reload) (ids : List Bytes) (d : Daemon) : Daemon :=
    removeProbes r r.diff.removedProbes (ids.foldl (Daemon.addSinkFrom r.next r.o) d)
  let removeSinks (r : Reload) (ids : List Bytes) (d : Daemon) : Daemon :=
    addSinks r r.diff.addedSinks (ids.foldl Daemon.removeSink d)
  match t.position with
  | .polling => t.daemon
  | .removingSinks r ids => removeSinks r ids t.daemon
  | .flushing r ids doomed _ | .joining r ids doomed => removeSinks r ids (t.daemon.discardSink doomed)
  | .addingSinks r ids => addSinks r ids t.daemon
  | .removingProbes r ids => removeProbes r ids t.daemon
  | .addingProbes r ids => addProbes r ids t.daemon

/-- Every step of a reload leaves its outcome as it is. -/
theorem finished_proceed {t t' : Threads} (ran : t.proceed = some t') : finished t' = finished t := by
  cases proceeds_of_proceed ran with
  | notListed place search | discarded place search _ | unlinked place search _ =>
    simp only [finished, place, List.foldl_cons, Daemon.removeSink, search]
  | committed place commit => simp only [finished, place, commit, List.foldl_nil]
  | flushed place _ _ | joined place _ => simp only [finished, place, setQueue]
  | addSink place => simp only [finished, place, List.foldl_cons, Threads.addSink, setQueue]
  | sinksRemoved place | sinksAdded place | probesRemoved place => simp only [finished, place, List.foldl_nil]
  | removeProbe place | addProbe place => simp only [finished, place, List.foldl_cons]

/-- The thread that starts on an accepted file is on its way to the daemon
`reload_config` makes of it. -/
theorem finished_reload {t t' : Threads} {o : Outcomes} {next : Config}
    (ran : step t (.reload o next) = some t') : finished t' = t.daemon.reloadConfig o (some next) := by
  cases stepped_of_step ran with
  | reload _ hasPath accepted =>
    simp only [finished, Daemon.reloadConfig, if_neg hasPath, accepted, Daemon.applyReload]

/-- The daemon thread goes on with its reload, or a worker moves. -/
def GoesOn : ThreadStep → Prop
  | .proceed | .worker _ _ => True
  | .emit _ _ _ _ | .tick _ _ | .reload _ _ => False

theorem finished_goes_on {t t' : Threads} {a : ThreadStep} (goesOn : GoesOn a) (ran : step t a = some t') :
    finished t' = finished t := by
  cases a with
  | proceed => exact finished_proceed ran
  | worker sink w =>
    cases stepped_of_step ran with
    | worker _ _ _ => rfl
  | emit _ _ _ _ | tick _ _ | reload _ _ => exact goesOn.elim

/-- Back in its main loop, the thread has made of the daemon what
`reload_config` makes of it in one go, however the workers moved meanwhile. -/
theorem reload_carried_out {t began back : Threads} {o : Outcomes} {next : Config}
    (read : step t (.reload o next) = some began) (steps : List ThreadStep) (goOn : ∀ a ∈ steps, GoesOn a)
    (ran : steps.foldlM step began = some back) (polling : back.position = .polling) :
    back.daemon = t.daemon.reloadConfig o (some next) := by
  have same : finished back = finished began :=
    steps_related (R := fun t t' => finished t' = finished t) (fun _ => rfl) (fun first second => second.trans first)
      steps (fun a member _ _ stepped => finished_goes_on (goOn a member) stepped) ran
  have settled : finished back = back.daemon := by simp only [finished, polling]
  rw [← settled, same, finished_reload read]

/-! ### A stalled endpoint -/

/-- `Waiting`, computed. -/
def waits (t : Threads) : Bool :=
  match t.position with
  | .flushing _ _ doomed target => !(t.queues doomed.ref).flushPasses target
  | .joining _ _ doomed => (t.queues doomed.ref).worker ≠ .exited
  | _ => false

private theorem waits_iff (t : Threads) : waits t = true ↔ Waiting t := by
  unfold waits Waiting
  split <;> simp

instance (t : Threads) : Decidable (Waiting t) := decidable_of_iff (waits t = true) (waits_iff t)

/-- An http sink and a null sink, shipping record by record. -/
def httpAndNull : Config where
  pluginDir := ascii "plugins"
  batchSize := 1
  sinks := .ofList [(ascii "http", ComponentConfig.mk ∅), (ascii "null", ComponentConfig.mk ∅)]
  probes := .ofList [(ascii "oom", ComponentConfig.mk ∅)]

def onlyNull : Config := { httpAndNull with sinks := .ofList [(ascii "null", ComponentConfig.mk ∅)] }

def onlyHttp : Config := { httpAndNull with sinks := .ofList [(ascii "http", ComponentConfig.mk ∅)] }

def toCollector : SocketOptions where
  host := ascii "db"
  maxQueuedBatches := 4

/-- Every plugin builds what its name says. -/
def namedKinds : StartOutcomes :=
  { allUp with sink := fun id => .built (if id = ascii "http" then .http toCollector else .null) }

def bothUp : Threads := { daemon := (Daemon.start (.new httpAndNull (ascii "slurm-tracer.json")) namedKinds).2 }

theorem both_came : Came bothUp :=
  ⟨httpAndNull, ascii "slurm-tracer.json", namedKinds, by decide, rfl⟩

/-- A record goes out and the worker takes it up; its post hangs. Then the file
is read again without the http sink. -/
def stalledRemoval : List ThreadStep :=
  [.emit (.instance (ascii "oom")) 0 .notFound {},
    .worker ⟨ascii "http", ⟨ascii "plugins/sinks/libst_sink_http.so", 0⟩, .http toCollector⟩ .pop,
    .reload allSucceed onlyNull, .proceed]

/-- The daemon thread waits for as long as the endpoint stalls. -/
theorem stalled_removal_waits : ¬ ∀ t, Runs Came step Anything t → ¬ Waiting t := by
  intro never
  have stuck : ((stalledRemoval.foldlM step bothUp).any fun t => decide (Waiting t)) = true := by decide
  cases ran : stalledRemoval.foldlM step bothUp with
  | none =>
    rw [ran] at stuck
    cases stuck
  | some t =>
    rw [ran] at stuck
    exact never t (Runs.steps (.start both_came) stalledRemoval ran) (of_decide_eq_true stuck)

/-- A reload that removes only the null sink, begun. -/
def nullRemoval : Threads :=
  let diff : ConfigDiff := { addedProbes := [], removedProbes := [], addedSinks := [], removedSinks := [ascii "null"] }
  { bothUp with position := .removingSinks ⟨allSucceed, onlyHttp, diff⟩ [ascii "null"] }

theorem never_waits_null_removal : ¬ Waiting nullRemoval := by
  refine never_waits (.next (a := .reload allSucceed onlyHttp) (.start both_came) ?_ rfl)
  intro diff accepted
  have is : diffForReload bothUp.daemon.config onlyHttp = some
      { addedProbes := [], removedProbes := [], addedSinks := [], removedSinks := [ascii "null"] } := by decide
  cases is.symm.trans accepted
  decide

end SlurmTracer.NonBlocking
