import SlurmTracer.Lib.Transition
import SlurmTracer.QueueSteps

/-!
`flush` as a barrier. Its wait compares two lifetime counters, and evictions
advance the same one as finished batches do. Every batch accepted and not yet
counted is waiting or in flight, so the wait ends with nothing left and is
never stuck on an evicted batch (`flush_barrier`).
-/
namespace SlurmTracer.FlushBarrier
open SlurmTracer.Core Lib.Transition QueueSteps

variable {ρ : Type}

/-- The worker holds a batch that is not counted as written yet. -/
def InFlight (s : QueueSink ρ) : Prop :=
  match s.worker with
  | .handling _ _ | .settled => True
  | .waiting | .exited => False

/-- What a caller may rely on at the wait in `flush`. -/
structure Barrier (s : CalledSink ρ) : Prop where
  /-- The wait lets the caller through. -/
  passes : ∀ target, s.caller = .flushing target → s.flushPasses target = true → s.stopping = false →
    s.queue = [] ∧ ¬ InFlight s.toQueueSink
  /-- The wait holds the caller back. -/
  waits : ∀ target, s.caller = .flushing target → s.flushPasses target = false →
    s.queue ≠ [] ∨ InFlight s.toQueueSink

/-! ### The counters -/

/-- The batches outside the queue that are still to be counted. -/
def held (s : QueueSink ρ) : Nat :=
  match s.worker with
  | .handling _ _ | .settled => 1
  | .waiting | .exited => 0

theorem held_pos_iff (s : QueueSink ρ) : 0 < held s ↔ InFlight s := by
  unfold held InFlight
  split <;> simp

/-- Every accepted batch is counted, waiting or held. -/
def Accounted (s : QueueSink ρ) : Prop := s.writtenBatches + s.queue.length + held s = s.queuedBatches

/-- An evicted batch leaves the queue and is counted. -/
theorem accounted_write {capacity : Nat} {s : QueueSink ρ} {q : SinkQueue ρ} {batch : List ρ}
    (accounted : Accounted s) (written : s.toSinkQueue.write capacity batch = some q) :
    Accounted { s with toSinkQueue := q } := by
  have same : held { s with toSinkQueue := q } = held s := rfl
  unfold Accounted at accounted ⊢
  rw [same]
  rcases write_some written with rfl | ⟨n, fits, rfl⟩
  · exact accounted
  · simp only [List.length_append, List.length_drop, List.length_singleton]
    omega

/-- No step of a sink loses count. -/
theorem accounted_step {capacity : Nat} {attempt : Nat → Bool → Attempt} {s s' : QueueSink ρ}
    (accounted : Accounted s) {a : SinkStep ρ} (ran : s.step capacity attempt a = some s') : Accounted s' := by
  cases change_of_step ran with
  | write running written => exact accounted_write accounted written
  | pop waiting queued =>
    simp only [Accounted, held, waiting, queued, List.length_cons] at accounted ⊢
    omega
  | retry handling reads => simpa only [Accounted, held, handling] using accounted
  | delivered handling reads => simpa only [Accounted, held, handling] using accounted
  | lost handling reads => simpa only [Accounted, held, handling] using accounted
  | finish settled =>
    simp only [Accounted, held, settled] at accounted ⊢
    omega
  | stop => exact accounted
  | exit waiting empty stopping => simpa only [Accounted, held, waiting] using accounted

/-! ### The caller -/

/-- The caller that waits in `flush` waits for every batch there is. -/
structure Inv (s : CalledSink ρ) : Prop where
  accounted : Accounted s.toQueueSink
  target : ∀ target, s.caller = .flushing target → target = s.queuedBatches

def Fresh (s : CalledSink ρ) : Prop := s = {}

/-- The worker leaves the number of batches accepted as it is. -/
theorem worker_keeps_queued {capacity : Nat} {attempt : Nat → Bool → Attempt} {s s' : QueueSink ρ}
    {a : SinkStep ρ} (ran : s.step capacity attempt a = some s') (notWrite : ∀ batch, a ≠ .write batch) :
    s'.queuedBatches = s.queuedBatches := by
  cases change_of_step ran with
  | write running written => exact absurd rfl (notWrite _)
  | _ => rfl

theorem inv_step {capacity : Nat} {attempt : Nat → Bool → Attempt} {s s' : CalledSink ρ} (inv : Inv s)
    {a : CallStep ρ} (ran : s.step (QueueSink.step capacity attempt) a = some s') : Inv s' := by
  have workers : ∀ b : SinkStep ρ, (∀ batch, b ≠ .write batch) →
      (s.toQueueSink.step capacity attempt b).map (fun q => { s with toQueueSink := q }) = some s' → Inv s' := by
    intro b notWrite ran
    obtain ⟨q, stepped, rfl⟩ := Option.map_eq_some_iff.mp ran
    refine ⟨accounted_step inv.accounted stepped, fun target waits => ?_⟩
    exact (inv.target target waits).trans (worker_keeps_queued stepped notWrite).symm
  cases a with
  | write batch =>
    simp only [CalledSink.step] at ran
    split at ran
    · rename_i idle
      obtain ⟨q, stepped, rfl⟩ := Option.map_eq_some_iff.mp ran
      refine ⟨accounted_step inv.accounted stepped, fun target waits => ?_⟩
      cases idle.symm.trans waits
    · cases ran
  | flush =>
    simp only [CalledSink.step] at ran
    split at ran
    · split at ran
      · cases ran
      · cases ran
        refine ⟨inv.accounted, fun target waits => ?_⟩
        cases waits
        rfl
    · cases ran
  | pass =>
    simp only [CalledSink.step] at ran
    split at ran
    · cases ran
    · split at ran
      · cases ran
        exact ⟨inv.accounted, nofun⟩
      · cases ran
  | destroy =>
    simp only [CalledSink.step] at ran
    split at ran
    · exact workers .stop nofun ran
    · cases ran
  | pop => exact workers .pop nofun ran
  | attempt ok => exact workers (.attempt ok) nofun ran
  | finish => exact workers .finish nofun ran
  | exit => exact workers .exit nofun ran

/-- The counters decide the wait as the queue and the worker would. -/
theorem barrier_of_inv {s : CalledSink ρ} (inv : Inv s) : Barrier s where
  passes := by
    intro target waits passed running
    have all := inv.target target waits
    have accounted := inv.accounted
    simp only [SinkQueue.flushPasses, running, Bool.or_false, decide_eq_true_eq] at passed
    simp only [Accounted] at accounted
    rw [← held_pos_iff, ← List.length_eq_zero_iff]
    omega
  waits := by
    intro target waits heldBack
    have all := inv.target target waits
    have accounted := inv.accounted
    simp only [SinkQueue.flushPasses, Bool.or_eq_false_iff, decide_eq_false_iff_not] at heldBack
    simp only [Accounted] at accounted
    rw [← held_pos_iff, ← List.length_pos_iff]
    omega

theorem inv_reached {capacity : Nat} {attempt : Nat → Bool → Attempt} {s : CalledSink ρ}
    (reached : Runs Fresh (CalledSink.step (QueueSink.step capacity attempt)) Anything s) : Inv s :=
  reached.invariant (fun _ fresh => fresh ▸ ⟨rfl, nofun⟩) fun _ _ _ inv _ ran => inv_step inv ran

/-- In both sinks, in whatever order the caller and the worker take their
steps, `flush` returns with nothing queued and nothing in flight, and waits
only while there is something. -/
theorem flush_barrier (maxQueuedBatches : UInt64) (s : CalledSink ρ) :
    (Runs Fresh (CalledSink.step (StdoutJsonSink.step maxQueuedBatches)) Anything s → Barrier s) ∧
      (Runs Fresh (CalledSink.step (HttpSink.step maxQueuedBatches)) Anything s → Barrier s) :=
  ⟨fun reached => barrier_of_inv (inv_reached reached), fun reached => barrier_of_inv (inv_reached reached)⟩

/-- A caller waits in `flush` after the second of its batches evicted the
first. -/
theorem flush_barrier_after_eviction :
    Barrier
      { queue := [[2]], writtenBatches := 1, queuedBatches := 2, dropped := 1, caller := .flushing 2 : CalledSink Nat } :=
  (flush_barrier 1 _).2 (Runs.steps (.start rfl) [.write [1], .write [2], .flush] rfl)

end SlurmTracer.FlushBarrier
