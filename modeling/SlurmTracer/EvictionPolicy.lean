import SlurmTracer.Core.Record
import SlurmTracer.Lib.Transition
import SlurmTracer.QueueConservation

/-!
One eviction policy, written twice. `StdoutJsonSink` turns a capacity of 0 into
1; `HttpSink` does not, and its eviction loop then takes a batch out of an
empty queue. For every other capacity the two make room the same way
(`evicts_soundly_iff`).
-/
namespace SlurmTracer.EvictionPolicy
open SlurmTracer.Core Lib.Transition QueueSteps QueueConservation

abbrev Step := QueueSink Record → SinkStep Record → Option (QueueSink Record)

def Fresh (s : QueueSink Record) : Prop := s = {}

/-- Every write of a batch to a sink in use goes through. The batch is last in
a queue of no more than `room`. -/
def MakesRoom (step : Step) (room : Nat) : Prop :=
  ∀ s, Runs Fresh step Anything s → s.stopping = false → ∀ batch, batch ≠ [] →
    ∃ s', step s (.write batch) = some s' ∧ s'.queue.getLast? = some batch ∧ s'.queue.length ≤ room

/-- The writes and pops among the steps of a run. -/
def history (steps : List (SinkStep Record)) : List (SinkStep Record) :=
  steps.filter fun
    | .write _ | .pop => true
    | .attempt _ | .finish | .stop | .exit => false

/-- Runs with the same writes and pops evict the same batches. -/
def EvictAlike (step step' : Step) : Prop :=
  ∀ steps steps' s s' l l', run step {} {} steps = some (s, l) → run step' {} {} steps' = some (s', l') →
    history steps = history steps' → l.evicted = l'.evicted

/-- The queue policy, as both sinks promise it for a configured capacity. -/
structure EvictsSoundly (maxQueuedBatches : UInt64) : Prop where
  stdoutJson : MakesRoom (StdoutJsonSink.step maxQueuedBatches) (max 1 maxQueuedBatches.toNat)
  http : MakesRoom (HttpSink.step maxQueuedBatches) (max 1 maxQueuedBatches.toNat)
  alike : EvictAlike (StdoutJsonSink.step maxQueuedBatches) (HttpSink.step maxQueuedBatches)

/-! ### One sink -/

variable {capacity : Nat} {attempt : Nat → Bool → Attempt} {acked : List Bool → Bool}

theorem makes_room (room : 1 ≤ capacity) (reads : Reads attempt acked) :
    MakesRoom (QueueSink.step capacity attempt) capacity := by
  intro s reached running batch nonempty
  have balances : ∀ s, Fresh s → ∃ l, Inv capacity acked s l := by
    rintro s rfl
    exact ⟨{}, inv_initial capacity acked⟩
  obtain ⟨l, inv⟩ :=
    reached.invariant balances fun _ a _ ⟨_, inv⟩ _ ran => ⟨_, inv_step room reads inv a ran⟩
  have bounded := inv.bounded
  simp only [QueueSink.step, running, write_eq room _ nonempty, Bool.false_eq_true, if_false, Option.map_some]
  refine ⟨_, rfl, by simp, ?_⟩
  simp only [overflow, List.length_append, List.length_drop, List.length_singleton]
  omega

/-- A queue of capacity 0 is never written to: the first write pops it while
it is empty. -/
theorem no_room_at_zero (room : Nat) : ¬ MakesRoom (HttpSink.step 0) room := by
  intro makesRoom
  obtain ⟨s', ran, -, -⟩ := makesRoom {} (.start rfl) rfl [{}] (by simp)
  cases ran

/-! ### Two sinks -/

/-- The queue and the evicted batches after one more write or pop. -/
def replay (capacity : Nat) (q : List (List Record) × List (List Record)) :
    SinkStep Record → List (List Record) × List (List Record)
  | .write batch =>
    let excess := q.1.length + 1 - capacity
    if batch = [] then q else (q.1.drop excess ++ [batch], q.2 ++ q.1.take excess)
  | .pop => (q.1.tail, q.2)
  | .attempt _ | .finish | .stop | .exit => q

/-- What a step does to the queue depends on nothing but the queue. -/
theorem step_replays (room : 1 ≤ capacity) {s s' : QueueSink Record} {a : SinkStep Record} (l : Ledger Record)
    (ran : s.step capacity attempt a = some s') :
    (s'.queue, (l.record s s' a).evicted) = replay capacity (s.queue, l.evicted) a := by
  cases change_of_step ran with
  | @write batch q running written =>
    by_cases empty : batch = []
    · rw [SinkQueue.write, if_pos empty] at written
      cases written
      simp only [Ledger.record, replay, if_pos empty]
    · rw [write_eq room _ empty] at written
      cases written
      simp only [Ledger.record, replay, if_neg empty, overflow, Nat.add_sub_cancel_left]
  | pop waiting queued => simp only [Ledger.record, replay, queued, List.tail_cons]
  | retry handling reads => simp only [Ledger.record, replay, handling]
  | delivered handling reads => simp only [Ledger.record, replay, handling]
  | lost handling reads => simp only [Ledger.record, replay, handling]
  | finish settled => rfl
  | stop => rfl
  | exit waiting empty stopping => rfl

/-- So a whole run is its history, replayed. -/
theorem run_replays (room : 1 ≤ capacity) (steps : List (SinkStep Record)) {s s' : QueueSink Record}
    {l l' : Ledger Record} (ran : run (QueueSink.step capacity attempt) s l steps = some (s', l')) :
    (s'.queue, l'.evicted) = (history steps).foldl (replay capacity) (s.queue, l.evicted) := by
  induction steps generalizing s l with
  | nil =>
    cases ran
    rfl
  | cons a steps ih =>
    simp only [run] at ran
    split at ran
    · cases ran
    · rename_i mid stepped
      rw [ih ran, step_replays room l stepped]
      cases a <;> rfl

theorem evict_alike (room : 1 ≤ capacity) (attempt' : Nat → Bool → Attempt) :
    EvictAlike (QueueSink.step capacity attempt) (QueueSink.step capacity attempt') := by
  intro steps steps' s s' l l' ran ran' same
  have first := run_replays room steps ran
  have second := run_replays room steps' ran'
  rw [same] at first
  exact (Prod.mk.inj (first.trans second.symm)).2

/-! ### Every capacity but one -/

/-- Both sinks keep to the policy for every capacity a config can supply,
except for a capacity of 0. -/
theorem evicts_soundly_iff (maxQueuedBatches : UInt64) :
    EvictsSoundly maxQueuedBatches ↔ maxQueuedBatches ≠ 0 := by
  constructor
  · rintro sound rfl
    exact no_room_at_zero _ sound.http
  · intro nonzero
    have room : 1 ≤ maxQueuedBatches.toNat :=
      Nat.one_le_iff_ne_zero.mpr fun zero => nonzero (UInt64.toNat_inj.mp zero)
    have larger : max 1 maxQueuedBatches.toNat = maxQueuedBatches.toNat := Nat.max_eq_right room
    have stdoutJson : StdoutJsonSink.step maxQueuedBatches =
        (QueueSink.step maxQueuedBatches.toNat StdoutJsonSink.attempt : Step) := by
      have same : StdoutJsonSink.maxQueued maxQueuedBatches = maxQueuedBatches.toNat := if_neg nonzero
      rw [← same]
      rfl
    constructor
    · rw [stdoutJson, larger]
      exact makes_room room stdout_json_reads
    · rw [larger]
      exact makes_room room http_reads
    · rw [stdoutJson]
      exact evict_alike room HttpSink.attempt

/-- A configured capacity of 0 empties an empty queue. -/
theorem zero_capacity_unsound : ¬ ∀ maxQueuedBatches, EvictsSoundly maxQueuedBatches :=
  fun sound => no_room_at_zero _ (sound 0).http

end SlurmTracer.EvictionPolicy
