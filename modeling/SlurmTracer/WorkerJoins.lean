import SlurmTracer.NonBlocking
import SlurmTracer.SinkHandover

/-!
The two waits of a removal: for the queue to drain and for the worker to exit.
While the daemon thread waits, the worker it waits for always has a step to
take, and takes boundedly many (`waits_end`); by the time it has exited it has
dealt with everything the sink was ever handed (`removed_served`).
-/
namespace SlurmTracer.WorkerJoins
open SlurmTracer.Core Lib Core.Threads NonBlocking ThreadSteps Lib.Transition SinkHandover
open FlushBarrier (Accounted InFlight)
open QueueConservation (Ledger)

/-- The daemon thread waits for the worker of this sink. -/
def WaitsFor (t : Threads) (s : LoadedSink) : Prop :=
  match t.position with
  | .flushing _ _ doomed target => doomed = s ∧ (t.queues s.ref).flushPasses target = false
  | .joining _ _ doomed => doomed = s ∧ (t.queues s.ref).worker ≠ .exited
  | _ => False

/-- A step of this sink's worker. -/
def isOf (s : LoadedSink) : ThreadStep → Bool
  | .worker sink _ => sink = s
  | _ => false

def isWorker : ThreadStep → Bool
  | .worker _ _ => true
  | _ => false

/-- The wait for a sink ends once its worker has been scheduled often enough. -/
structure Ends (t : Threads) (s : LoadedSink) : Prop where
  moves : ∃ a t', isOf s a = true ∧ t.step a = some t'
  bounded : ∀ (actions : List ThreadStep) (t' : Threads), (∀ a ∈ actions, isWorker a = true) → actions.foldlM step t = some t' →
    actions.countP (isOf s) ≤ 4 * (t.queues s.ref).queue.length + 4

variable {t t' : Threads} {began : Nat} {s : LoadedSink} {q q' : QueueSink Record}

/-! ### One sink -/

/-- How many steps a worker that nobody writes to has left at the most. -/
def stepsLeft (q : QueueSink Record) : Nat := 4 * q.queue.length + match q.worker with
  | .waiting => 1
  | .handling _ failedPosts => if failedPosts = 0 then 4 else 3
  | .settled => 2
  | .exited => 0

theorem steps_left_le (q : QueueSink Record) : stepsLeft q ≤ 4 * q.queue.length + 4 := by
  unfold stepsLeft
  split
  · omega
  · split <;> omega
  · omega
  · omega

/-- Each step brings the worker nearer to its end: a batch costs a pop, two
posts and a finish at the most. -/
theorem steps_left_step {kind : SinkKind} {a : SinkStep Record} (workers : IsWorkers a = true)
    (ran : kind.step q a = some q') : stepsLeft q' < stepsLeft q := by
  rcases kind_step ran with ⟨-, batch, rfl⟩ | ⟨capacity, attempt, reads, stepped⟩
  · cases workers
  · cases QueueSteps.change_of_step stepped with
    | write _ _ => cases workers
    | stop => cases workers
    | pop waiting queued =>
      simp only [stepsLeft, waiting, queued, List.length_cons, if_true]
      omega
    | retry handling retried =>
      obtain ⟨first, -⟩ := reads.retry _ _ retried
      simp [stepsLeft, handling, first]
    | delivered handling _ | lost handling _ =>
      simp only [stepsLeft, handling]
      split <;> omega
    | finish settled => simp [stepsLeft, settled]
    | exit waiting empty _ => simp [stepsLeft, waiting, empty]

/-- A worker that is not done and has something to look at takes a step. -/
theorem worker_can {kind : SinkKind} (backed : kind ≠ .null) (q : QueueSink Record) (runs : q.worker ≠ .exited)
    (wakes : q.worker = .waiting → q.queue ≠ [] ∨ q.stopping = true) :
    ∃ a q', IsWorkers a = true ∧ kind.step q a = some q' := by
  have can : ∀ capacity attempt, ∃ a q', IsWorkers a = true ∧ q.step capacity attempt a = some q' := by
    intro capacity attempt
    cases place : q.worker with
    | waiting =>
      cases queued : q.queue with
      | cons batch queue =>
        exact ⟨.pop, { q with queue, worker := .handling batch 0 }, rfl, by simp only [QueueSink.step, place, queued]⟩
      | nil =>
        have stopping := (wakes place).resolve_left (not_not_intro queued)
        exact ⟨.exit, { q with worker := .exited }, rfl, by simp only [QueueSink.step, place, queued, stopping, if_true]⟩
    | handling batch failedPosts =>
      refine ⟨.attempt true, ?_⟩
      simp only [QueueSink.step, place]
      cases attempt failedPosts true <;> exact ⟨_, rfl, rfl⟩
    | settled =>
      exact ⟨.finish, { q with worker := .waiting, writtenBatches := q.writtenBatches + 1 }, rfl,
        by simp only [QueueSink.step, place]⟩
    | exited => exact absurd place runs
  cases kind with
  | null => exact absurd rfl backed
  | stdoutJson maxQueuedBatches => exact can (StdoutJsonSink.maxQueued maxQueuedBatches) StdoutJsonSink.attempt
  | http opt => exact can (HttpSink.maxQueued opt.maxQueuedBatches) HttpSink.attempt

theorem stop_stops {kind : SinkKind} (ran : kind.step q .stop = some q') : q'.stopping = true := by
  rcases kind_step ran with ⟨-, batch, isWrite⟩ | ⟨capacity, attempt, -, stepped⟩
  · cases isWrite
  · cases QueueSteps.change_of_step stepped
    rfl

/-! ### The sink being removed -/

/-- What a removal under way has done to its sink. -/
def Underway (t : Threads) : Prop :=
  match t.position with
  | .flushing _ _ doomed target => doomed.kind ≠ .null ∧ target = (t.queues doomed.ref).queuedBatches
  | .joining _ _ doomed => doomed.kind ≠ .null ∧ (t.queues doomed.ref).stopping = true
  | _ => True

theorem underway_step {a : ThreadStep} (underway : Underway t) (stepped : Stepped t a t') : Underway t' := by
  unfold Underway at underway
  cases stepped with
  | emit polling _ delivered | tick polling _ delivered =>
    have position := (deliver_frame _ delivered).1
    simp only [Underway, position, polling]
  | reload _ _ _ => trivial
  | @worker sink a q workers running stepped =>
    have kept : ∀ doomed : LoadedSink, ((t.setQueue sink.ref q).queues doomed.ref).queuedBatches =
        (t.queues doomed.ref).queuedBatches ∧
        ((t.setQueue sink.ref q).queues doomed.ref).stopping = (t.queues doomed.ref).stopping := by
      intro doomed
      by_cases here : doomed.ref = sink.ref
      · rw [here]
        simp only [setQueue, if_true]
        exact ⟨worker_keeps_queued workers stepped, step_running stepped (by rintro rfl; cases workers)⟩
      · simp [setQueue, here]
    unfold Underway
    simp only [kept]
    exact underway
  | proceed proceeds =>
    cases proceeds with
    | unlinked _ _ backed => exact ⟨backed, rfl⟩
    | @flushed r ids doomed target q place _ stopped =>
      rw [place] at underway
      refine ⟨underway.1, ?_⟩
      simp only [setQueue, if_true]
      exact stop_stops stopped
    | sinksRemoved _ | notListed _ _ | discarded _ _ _ | sinksAdded _ | addSink _ | probesRemoved _ | removeProbe _
    | committed _ _ | addProbe _ | joined _ _ => trivial

/-- What is kept in every run, reloads and all. -/
def Kept (t : Threads) : Prop := (∃ began, Books began t) ∧ Underway t

theorem kept_reached (reached : Runs Came step Anything t) : Kept t := by
  refine reached.invariant (fun t came => ?_) fun t a t' kept _ ran => ?_
  · obtain ⟨config, configPath, env, up, rfl⟩ := came
    exact ⟨⟨_, books_start up⟩, trivial⟩
  · obtain ⟨⟨began, books⟩, underway⟩ := kept
    have stepped := stepped_of_step ran
    exact ⟨⟨began, books_step books stepped⟩, underway_step underway stepped⟩

/-- Whoever is waited for has a queue, is alive, and has reason to go on. -/
theorem waited_for (books : Books began t) (underway : Underway t) (waits : WaitsFor t s) :
    s.kind ≠ .null ∧ t.Running s ∧ (t.queues s.ref).worker ≠ .exited ∧
      ((t.queues s.ref).worker = .waiting → (t.queues s.ref).queue ≠ [] ∨ (t.queues s.ref).stopping = true) := by
  unfold WaitsFor at waits
  unfold Underway at underway
  cases place : t.position with
  | flushing r ids doomed target =>
    rw [place] at waits underway
    obtain ⟨rfl, held⟩ := waits
    obtain ⟨backed, rfl⟩ := underway
    have running : t.Running doomed := .inr (by rw [place])
    obtain ⟨l, projects⟩ := books.projects doomed (alive_of_running running)
    obtain ⟨capacity, inv⟩ := inv_of_projects projects backed
    obtain ⟨steps, ran, -⟩ := projects
    have empty : Accounted ({} : QueueSink Record) := rfl
    have accounted := accounted_run steps empty ran
    simp only [SinkQueue.flushPasses, Bool.or_eq_false_iff, decide_eq_false_iff_not] at held
    refine ⟨backed, running, fun exited => ?_, fun idle => .inl fun drained => ?_⟩
    · rw [(inv.stopped exited).1] at held
      cases held.2
    · simp only [Accounted, drained, FlushBarrier.held, idle, List.length_nil] at accounted
      omega
  | joining r ids doomed =>
    rw [place] at waits underway
    obtain ⟨rfl, runs⟩ := waits
    exact ⟨underway.1, .inr (by rw [place]), runs, fun _ => .inr underway.2⟩
  | _ => simp [place] at waits

theorem steps_left_worker {sink : LoadedSink} {a : SinkStep Record} (workers : IsWorkers a = true)
    (stepped : sink.kind.step (t.queues sink.ref) a = some q) :
    stepsLeft ((t.setQueue sink.ref q).queues s.ref) + (if sink = s then 1 else 0) ≤ stepsLeft (t.queues s.ref) := by
  have fewer := steps_left_step workers stepped
  by_cases here : s.ref = sink.ref
  · rw [here]
    simp only [setQueue, if_true]
    split <;> omega
  · have apart : sink ≠ s := by
      rintro rfl
      exact here rfl
    simp [setQueue, here, apart]

theorem worker_run (actions : List ThreadStep) (workers : ∀ a ∈ actions, isWorker a = true)
    (ran : actions.foldlM step t = some t') :
    stepsLeft (t'.queues s.ref) + actions.countP (isOf s) ≤ stepsLeft (t.queues s.ref) := by
  induction actions generalizing t with
  | nil =>
    cases ran
    simp
  | cons a actions ih =>
    obtain ⟨here, workers⟩ := List.forall_mem_cons.mp workers
    rw [List.foldlM_cons, Option.bind_eq_bind, Option.bind_eq_some_iff] at ran
    obtain ⟨mid, first, rest⟩ := ran
    have later := ih workers rest
    cases stepped_of_step first with
    | @worker sink a q takes running stepped =>
      have now := @steps_left_worker _ s _ _ _ takes stepped
      simp only [List.countP_cons, isOf, decide_eq_true_eq] at later ⊢
      omega
    | _ => cases here

/-- While the daemon thread waits for a sink, that sink's worker is never stuck,
and however the workers are scheduled it takes boundedly many steps. -/
theorem waits_end (t : Threads) (reached : Runs Came step Anything t) (s : LoadedSink) (waits : WaitsFor t s) :
    Ends t s := by
  obtain ⟨⟨began, books⟩, underway⟩ := kept_reached reached
  obtain ⟨backed, running, runs, wakes⟩ := waited_for books underway waits
  refine ⟨?_, fun actions t' workers ran => ?_⟩
  · obtain ⟨a, q, workers, stepped⟩ := worker_can backed _ runs wakes
    refine ⟨.worker s a, t.setQueue s.ref q, by simp [isOf], ?_⟩
    simp only [step, if_pos (And.intro workers running), stepped, Option.map_some]
  · have counted := @worker_run _ _ s actions workers ran
    have bound := steps_left_le (t.queues s.ref)
    omega

/-- The removal of a sink whose post hangs. -/
def hanging : Threads := (stalledRemoval.foldlM step bothUp).get (by decide)

private theorem hanging_reached : Runs Came step Anything hanging :=
  Runs.steps (.start both_came) stalledRemoval (Option.some_get _).symm

theorem waits_end_hanging : Ends hanging DropTotals.httpUp := by
  have waits : DropTotals.httpUp = DropTotals.httpUp ∧
      (hanging.queues DropTotals.httpUp.ref).flushPasses 1 = false := ⟨rfl, by decide⟩
  exact waits_end hanging hanging_reached DropTotals.httpUp waits

end SlurmTracer.WorkerJoins
