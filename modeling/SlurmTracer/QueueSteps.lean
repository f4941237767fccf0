import SlurmTracer.Core.Sink

/-! What one step of a sink can do, said once for everything that is kept by
all of them. -/
namespace SlurmTracer.QueueSteps
open SlurmTracer.Core

variable {ρ : Type} {capacity : Nat} {attempt : Nat → Bool → Attempt} {s s' : QueueSink ρ}

/-- The eviction loop counts every batch it takes off the front as written and
as dropped. -/
theorem evict_loop_some (queue : List (List ρ)) (written dropped : Nat) {left : List (List ρ) × Nat × Nat}
    (evicted : SinkQueue.evictLoop capacity queue written dropped = some left) :
    ∃ n ≤ queue.length, left = (queue.drop n, written + n, dropped + n) := by
  induction queue generalizing written dropped with
  | nil =>
    simp only [SinkQueue.evictLoop] at evicted
    split at evicted
    · cases evicted
    · cases evicted
      exact ⟨0, Nat.le_refl _, rfl⟩
  | cons batch queue ih =>
    simp only [SinkQueue.evictLoop] at evicted
    split at evicted
    · obtain ⟨n, fits, rfl⟩ := ih _ _ evicted
      refine ⟨n + 1, Nat.succ_le_succ fits, ?_⟩
      rw [List.drop_succ_cons, Nat.add_right_comm written, Nat.add_right_comm dropped]
      rfl
    · cases evicted
      exact ⟨0, Nat.zero_le _, rfl⟩

/-- What a `write` that returns has done. -/
theorem write_some {q q' : SinkQueue ρ} {batch : List ρ} (written : q.write capacity batch = some q') :
    q' = q ∨ ∃ n ≤ q.queue.length, q' = { q with
      queue := q.queue.drop n ++ [batch]
      writtenBatches := q.writtenBatches + n
      dropped := q.dropped + n
      queuedBatches := q.queuedBatches + 1 } := by
  unfold SinkQueue.write at written
  split at written
  · cases written
    exact .inl rfl
  · split at written
    · cases written
    · rename_i evicted
      cases written
      obtain ⟨n, fits, same⟩ := evict_loop_some _ _ _ evicted
      cases same
      exact .inr ⟨n, fits, rfl⟩

inductive Change (capacity : Nat) (attempt : Nat → Bool → Attempt) (s : QueueSink ρ) :
    SinkStep ρ → QueueSink ρ → Prop where
  | write {batch : List ρ} {q : SinkQueue ρ} (running : s.stopping = false)
      (written : s.toSinkQueue.write capacity batch = some q) :
      Change capacity attempt s (.write batch) { s with toSinkQueue := q }
  | pop {batch : List ρ} {queue : List (List ρ)} (waiting : s.worker = .waiting) (queued : s.queue = batch :: queue) :
      Change capacity attempt s .pop { s with queue, worker := .handling batch 0 }
  | retry {ok : Bool} {batch : List ρ} {failedPosts : Nat} (handling : s.worker = .handling batch failedPosts)
      (reads : attempt failedPosts ok = .retry) :
      Change capacity attempt s (.attempt ok) { s with worker := .handling batch (failedPosts + 1) }
  | delivered {ok : Bool} {batch : List ρ} {failedPosts : Nat} (handling : s.worker = .handling batch failedPosts)
      (reads : attempt failedPosts ok = .delivered) :
      Change capacity attempt s (.attempt ok) { s with worker := .settled }
  | lost {ok : Bool} {batch : List ρ} {failedPosts : Nat} (handling : s.worker = .handling batch failedPosts)
      (reads : attempt failedPosts ok = .lost) :
      Change capacity attempt s (.attempt ok) { s with worker := .settled, dropped := s.dropped + 1 }
  | finish (settled : s.worker = .settled) :
      Change capacity attempt s .finish { s with worker := .waiting, writtenBatches := s.writtenBatches + 1 }
  | stop : Change capacity attempt s .stop { s with stopping := true }
  | exit (waiting : s.worker = .waiting) (empty : s.queue = []) (stopping : s.stopping = true) :
      Change capacity attempt s .exit { s with worker := .exited }

theorem change_of_step {a : SinkStep ρ} (ran : s.step capacity attempt a = some s') :
    Change capacity attempt s a s' := by
  cases a with
  | write batch =>
    simp only [QueueSink.step] at ran
    cases running : s.stopping with
    | true => simp [running] at ran
    | false =>
      rw [running, if_neg Bool.false_ne_true] at ran
      obtain ⟨q, written, rfl⟩ := Option.map_eq_some_iff.mp ran
      exact .write running written
  | pop =>
    simp only [QueueSink.step] at ran
    split at ran
    · rename_i batch queue waiting queued
      cases ran
      exact .pop waiting queued
    · cases ran
  | attempt ok =>
    simp only [QueueSink.step] at ran
    split at ran
    · rename_i batch failedPosts handling
      cases reads : attempt failedPosts ok with
      | retry =>
        rw [reads] at ran
        cases ran
        exact .retry handling reads
      | delivered =>
        rw [reads] at ran
        cases ran
        exact .delivered handling reads
      | lost =>
        rw [reads] at ran
        cases ran
        exact .lost handling reads
    · cases ran
  | finish =>
    simp only [QueueSink.step] at ran
    split at ran
    · cases ran
      exact .finish (by assumption)
    · cases ran
  | stop =>
    cases ran
    exact .stop
  | exit =>
    simp only [QueueSink.step] at ran
    split at ran
    · rename_i waiting empty
      split at ran
      · rename_i stopping
        cases ran
        exact .exit waiting empty stopping
      · cases ran
    · cases ran

end SlurmTracer.QueueSteps
