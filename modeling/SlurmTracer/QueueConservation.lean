import SlurmTracer.Lib.DropOldest
import SlurmTracer.QueueSteps

/-!
What becomes of the batches a sink accepts. Over every interleaving of the
caller, the worker and the destructor, each accepted batch is evicted, waiting,
in the worker's hand or handled, in exactly one of these places, and the
counters say how many (`queue_conservation`).
-/
namespace SlurmTracer.QueueConservation
open SlurmTracer.Core Lib.DropOldest QueueSteps

variable {ρ : Type}

/-! ### The queue as a flow -/

/-- With room for one batch, the eviction loop drops the oldest batches until
there is room for another. -/
theorem evict_loop_eq {capacity : Nat} (room : 1 ≤ capacity) (queue : List (List ρ)) (written dropped : Nat) :
    SinkQueue.evictLoop capacity queue written dropped =
      some (queue.drop (queue.length + 1 - capacity), written + (queue.length + 1 - capacity),
        dropped + (queue.length + 1 - capacity)) := by
  induction queue generalizing written dropped with
  | nil =>
    have none_over : 1 - capacity = 0 := by omega
    simp [SinkQueue.evictLoop, none_over, Nat.not_le.mpr room]
  | cons batch queue ih =>
    unfold SinkQueue.evictLoop
    by_cases full : (batch :: queue).length ≥ capacity
    · have excess : (batch :: queue).length + 1 - capacity = (queue.length + 1 - capacity) + 1 := by
        simp only [List.length_cons] at full ⊢
        omega
      rw [if_pos full, ih, excess, List.drop_succ_cons]
      simp only [Option.some.injEq, Prod.mk.injEq, true_and]
      omega
    · have excess : (batch :: queue).length + 1 - capacity = 0 := by omega
      rw [if_neg full, excess]
      rfl

/-- The batches a write drops to make room. -/
def overflow (capacity : Nat) (q : SinkQueue ρ) : Nat := q.queue.length + 1 - capacity

theorem write_eq {capacity : Nat} (room : 1 ≤ capacity) (q : SinkQueue ρ) {batch : List ρ}
    (nonempty : batch ≠ []) :
    q.write capacity batch = some { q with
      queue := q.queue.drop (overflow capacity q) ++ [batch]
      writtenBatches := q.writtenBatches + overflow capacity q
      dropped := q.dropped + overflow capacity q
      queuedBatches := q.queuedBatches + 1 } := by
  rw [SinkQueue.write, if_neg nonempty, evict_loop_eq room]
  rfl

/-! ### What an observer writes down -/

/-- A batch the worker is done with, and how each attempt at it went. -/
structure Handled (ρ : Type) where
  batch : List ρ
  posts : List Bool

structure Ledger (ρ : Type) where
  accepted : List (List ρ) := []
  evicted : List (List ρ) := []
  popped : List (List ρ) := []
  /-- The attempts so far at the batch in hand. -/
  posts : List Bool := []
  handled : List (Handled ρ) := []

/-- The entry one step makes. -/
def Ledger.record (l : Ledger ρ) (before after : QueueSink ρ) : SinkStep ρ → Ledger ρ
  | .write batch =>
    if batch = [] then l
    else { l with accepted := l.accepted ++ [batch]
                  evicted := l.evicted ++ before.queue.take (after.dropped - before.dropped) }
  | .pop =>
    match after.worker with
    | .handling batch _ => { l with popped := l.popped ++ [batch] }
    | _ => l
  | .attempt ok =>
    match before.worker, after.worker with
    | .handling batch _, .settled =>
      { l with posts := [], handled := l.handled ++ [⟨batch, l.posts ++ [ok]⟩] }
    | _, _ => { l with posts := l.posts ++ [ok] }
  | .finish | .stop | .exit => l

/-- A run of a sink, every step of which was enabled. -/
def run (step : QueueSink ρ → SinkStep ρ → Option (QueueSink ρ)) :
    QueueSink ρ → Ledger ρ → List (SinkStep ρ) → Option (QueueSink ρ × Ledger ρ)
  | s, l, [] => some (s, l)
  | s, l, a :: as =>
    match step s a with
    | none => none
    | some s' => run step s' (l.record s s' a) as

/-- The batch in the worker's hand. -/
def inFlight (s : QueueSink ρ) : List (List ρ) :=
  match s.worker with
  | .handling batch _ => [batch]
  | _ => []

/-- An attempt at a batch is the last one after a success, or the second. -/
def AtMostOneRetry (posts : List Bool) : Prop := posts.length ≤ 2 ∧ true ∉ posts.dropLast

/-- The books of a sink balance. `acked` tells from the attempts at a batch
whether it was delivered. -/
structure Balanced (capacity : Nat) (acked : List Bool → Bool) (s : QueueSink ρ) (l : Ledger ρ) : Prop where
  bounded : s.queue.length ≤ capacity
  nonempty : ∀ batch ∈ l.accepted, batch ≠ []
  inOrder : (l.handled.map Handled.batch ++ inFlight s ++ s.queue).Sublist l.accepted
  counted : l.accepted.length =
    (l.handled.filter fun h => acked h.posts).length + s.dropped + (inFlight s).length + s.queue.length
  /-- Whatever was popped stays in hand until it is handled. -/
  neverEvicted : l.popped = l.handled.map Handled.batch ++ inFlight s
  evictedFromQueue : (l.evicted ++ l.popped ++ s.queue).Perm l.accepted
  posts : ∀ h ∈ l.handled, AtMostOneRetry h.posts
  postsInHand : l.posts.length ≤ 1 ∧ true ∉ l.posts
  drained : s.worker = .exited → s.queue = []

/-! ### The invariant -/

/-- How a class reads an attempt: only a first failure may be retried, and what
it counts as delivered is what `acked` tells from the attempts. -/
structure Reads (attempt : Nat → Bool → Attempt) (acked : List Bool → Bool) : Prop where
  retry : ∀ failed ok, attempt failed ok = .retry → failed = 0 ∧ ok = false
  delivered : ∀ failed ok, attempt failed ok = .delivered → acked (List.replicate failed false ++ [ok]) = true
  lost : ∀ failed ok, attempt failed ok = .lost → acked (List.replicate failed false ++ [ok]) = false

theorem stdout_json_reads : Reads StdoutJsonSink.attempt fun _ => true := by
  constructor <;> intro failed ok outcome <;> simp_all [StdoutJsonSink.attempt]

theorem http_reads : Reads HttpSink.attempt fun posts => posts.getLast? == some true := by
  constructor <;> intro failed ok outcome <;> cases ok <;> by_cases first : failed = 0 <;>
    simp_all [HttpSink.attempt]

/-- The attempts at the batch in hand, as the worker's own counter has them. -/
def PostsInHand (w : Worker ρ) (posts : List Bool) : Prop :=
  match w with
  | .handling _ failedPosts => failedPosts ≤ 1 ∧ posts = List.replicate failedPosts false
  | _ => posts = []

structure Inv (capacity : Nat) (acked : List Bool → Bool) (s : QueueSink ρ) (l : Ledger ρ) : Prop where
  flow : Flow.Conserves ⟨l.accepted, l.evicted, l.popped, s.queue⟩
  bounded : s.queue.length ≤ capacity
  nonempty : ∀ batch ∈ l.accepted, batch ≠ []
  hand : l.popped = l.handled.map Handled.batch ++ inFlight s
  dropped : s.dropped = l.evicted.length + (l.handled.filter fun h => !acked h.posts).length
  posts : ∀ h ∈ l.handled, AtMostOneRetry h.posts
  postsInHand : PostsInHand s.worker l.posts
  stopped : s.worker = .exited → s.stopping = true ∧ s.queue = []

theorem inv_initial (capacity : Nat) (acked : List Bool → Bool) : Inv capacity acked ({} : QueueSink ρ) {} where
  flow := Flow.conserves_empty
  bounded := Nat.zero_le _
  nonempty := by simp
  hand := rfl
  dropped := rfl
  posts := by simp
  postsInHand := rfl
  stopped := by simp

private theorem inv_write {capacity : Nat} {acked : List Bool → Bool} {s : QueueSink ρ} {q : SinkQueue ρ}
    {l : Ledger ρ}
    (room : 1 ≤ capacity) (inv : Inv capacity acked s l) {batch : List ρ} (running : s.stopping = false)
    (written : s.toSinkQueue.write capacity batch = some q) :
    Inv capacity acked { s with toSinkQueue := q } (l.record s { s with toSinkQueue := q } (.write batch)) := by
  by_cases empty : batch = []
  · rw [SinkQueue.write, if_pos empty] at written
    cases written
    simpa [Ledger.record, empty] using inv
  · rw [write_eq room _ empty, Option.some.injEq] at written
    have queue : q.queue = s.queue.drop (overflow capacity s.toSinkQueue) ++ [batch] := by rw [← written]
    have dropped : q.dropped = s.dropped + overflow capacity s.toSinkQueue := by rw [← written]
    have excess : overflow capacity s.toSinkQueue = s.queue.length + 1 - capacity := rfl
    have bounded := inv.bounded
    have taken : q.dropped - s.dropped = overflow capacity s.toSinkQueue := by omega
    simp only [Ledger.record, if_neg empty, taken]
    refine ⟨?_, ?_, ?_, inv.hand, ?_, inv.posts, inv.postsInHand, ?_⟩
    · rw [queue]
      exact Flow.conserves_push inv.flow _ batch
    · rw [queue, List.length_append, List.length_drop, List.length_singleton]
      omega
    · intro b member
      rcases List.mem_append.mp member with old | new
      · exact inv.nonempty b old
      · rw [List.mem_singleton.mp new]
        exact empty
    · have fits : overflow capacity s.toSinkQueue ≤ s.queue.length := by omega
      rw [dropped, inv.dropped, List.length_append, List.length_take, Nat.min_eq_left fits]
      simp only
      omega
    · intro exited
      cases running.symm.trans (inv.stopped exited).1

private theorem inv_pop {capacity : Nat} {acked : List Bool → Bool} {s : QueueSink ρ} {l : Ledger ρ}
    (inv : Inv capacity acked s l) {batch : List ρ} {queue : List (List ρ)} (waiting : s.worker = .waiting)
    (queued : s.queue = batch :: queue) :
    Inv capacity acked { s with queue, worker := .handling batch 0 }
      (l.record s { s with queue, worker := .handling batch 0 } .pop) := by
  have flow := Flow.conserves_take inv.flow
  simp only [Flow.take, queued, List.take_succ_cons, List.take_zero, List.drop_succ_cons, List.drop_zero] at flow
  have bounded := inv.bounded
  have idle : inFlight s = [] := by simp only [inFlight, waiting]
  have hand := inv.hand
  have postsInHand := inv.postsInHand
  rw [idle, List.append_nil] at hand
  rw [waiting] at postsInHand
  rw [queued, List.length_cons] at bounded
  refine ⟨flow, by simp only; omega, inv.nonempty, ?_, inv.dropped, inv.posts, ?_, fun exited => by cases exited⟩
  · simp only [Ledger.record, inFlight, hand]
  · exact ⟨Nat.zero_le _, postsInHand⟩

private theorem replicate_posts {failed : Nat} (few : failed ≤ 1) (ok : Bool) :
    AtMostOneRetry (List.replicate failed false ++ [ok]) := by
  refine ⟨?_, ?_⟩
  · rw [List.length_append, List.length_replicate, List.length_singleton]
    omega
  · rw [List.dropLast_concat]
    exact fun succeeded => by cases (List.mem_replicate.mp succeeded).2

/-- What the books say of the batch in hand. -/
private theorem books_in_hand {capacity : Nat} {acked : List Bool → Bool} {s : QueueSink ρ} {l : Ledger ρ}
    (inv : Inv capacity acked s l) {batch : List ρ} {failed : Nat} (handling : s.worker = .handling batch failed) :
    failed ≤ 1 ∧ l.posts = List.replicate failed false ∧ l.popped = l.handled.map Handled.batch ++ [batch] := by
  have postsInHand := inv.postsInHand
  have hand := inv.hand
  rw [handling] at postsInHand
  rw [inFlight, handling] at hand
  exact ⟨postsInHand.1, postsInHand.2, hand⟩

private theorem inv_retry {capacity : Nat} {acked : List Bool → Bool} {s : QueueSink ρ} {l : Ledger ρ}
    (inv : Inv capacity acked s l) {attempt : Nat → Bool → Attempt} (reading : Reads attempt acked) {ok : Bool}
    {batch : List ρ} {failed : Nat} (handling : s.worker = .handling batch failed)
    (reads : attempt failed ok = .retry) :
    Inv capacity acked { s with worker := .handling batch (failed + 1) }
      (l.record s { s with worker := .handling batch (failed + 1) } (.attempt ok)) := by
  obtain ⟨-, posts, hand⟩ := books_in_hand inv handling
  obtain ⟨first, failure⟩ := reading.retry failed ok reads
  subst first failure
  refine ⟨?_, inv.bounded, ?_, ?_, ?_, ?_, ?_, fun exited => by cases exited⟩
  · simpa [Ledger.record, handling] using inv.flow
  · simpa [Ledger.record, handling] using inv.nonempty
  · simpa [Ledger.record, handling, inFlight] using hand
  · simpa [Ledger.record, handling] using inv.dropped
  · simpa [Ledger.record, handling] using inv.posts
  · simp [Ledger.record, handling, PostsInHand, posts]

/-- The worker is done with its batch, and a loss is counted. -/
private theorem inv_settled {capacity : Nat} {acked : List Bool → Bool} {s : QueueSink ρ} {l : Ledger ρ}
    (inv : Inv capacity acked s l) {ok : Bool} {batch : List ρ} {failed dropped : Nat}
    (handling : s.worker = .handling batch failed)
    (counted : dropped = s.dropped + if acked (List.replicate failed false ++ [ok]) then 0 else 1) :
    Inv capacity acked { s with worker := .settled, dropped }
      (l.record s { s with worker := .settled, dropped } (.attempt ok)) := by
  obtain ⟨few, posts, hand⟩ := books_in_hand inv handling
  refine ⟨?_, inv.bounded, ?_, ?_, ?_, ?_, ?_, fun exited => by cases exited⟩
  · simpa [Ledger.record, handling] using inv.flow
  · simpa [Ledger.record, handling] using inv.nonempty
  · simpa [Ledger.record, handling, inFlight] using hand
  · have before := inv.dropped
    simp only [Ledger.record, handling, posts, List.filter_append, List.length_append, counted]
    by_cases delivered : acked (List.replicate failed false ++ [ok]) = true
    · simpa [delivered] using before
    · simp [delivered]
      omega
  · intro h member
    simp only [Ledger.record, handling] at member
    rcases List.mem_append.mp member with old | new
    · exact inv.posts h old
    · rw [List.mem_singleton.mp new, posts]
      exact replicate_posts few ok
  · simp [Ledger.record, handling, PostsInHand]

/-- Every enabled step keeps the books. -/
theorem inv_step {capacity : Nat} {acked : List Bool → Bool} {s s' : QueueSink ρ} {l : Ledger ρ}
    (room : 1 ≤ capacity) {attempt : Nat → Bool → Attempt} (reads : Reads attempt acked)
    (inv : Inv capacity acked s l) (a : SinkStep ρ) (ran : s.step capacity attempt a = some s') :
    Inv capacity acked s' (l.record s s' a) := by
  cases change_of_step ran with
  | write running written => exact inv_write room inv running written
  | pop waiting queued => exact inv_pop inv waiting queued
  | retry handling retried => exact inv_retry inv reads handling retried
  | delivered handling delivered => exact inv_settled inv handling (by simp [reads.delivered _ _ delivered])
  | lost handling lost => exact inv_settled inv handling (by simp [reads.lost _ _ lost])
  | finish settled =>
    refine ⟨inv.flow, inv.bounded, inv.nonempty, ?_, inv.dropped, inv.posts, ?_, fun exited => by cases exited⟩
    · simpa [inFlight, settled, Ledger.record] using inv.hand
    · simpa [PostsInHand, settled, Ledger.record] using inv.postsInHand
  | stop =>
    exact ⟨inv.flow, inv.bounded, inv.nonempty, inv.hand, inv.dropped, inv.posts, inv.postsInHand,
      fun exited => ⟨rfl, (inv.stopped exited).2⟩⟩
  | exit waiting empty stopping =>
    refine ⟨inv.flow, inv.bounded, inv.nonempty, ?_, inv.dropped, inv.posts, ?_, fun _ => ⟨stopping, empty⟩⟩
    · simpa [inFlight, waiting, Ledger.record] using inv.hand
    · simpa [PostsInHand, waiting, Ledger.record] using inv.postsInHand

theorem inv_run {capacity : Nat} {acked : List Bool → Bool} (room : 1 ≤ capacity)
    {attempt : Nat → Bool → Attempt} (reads : Reads attempt acked) (steps : List (SinkStep ρ))
    {s s' : QueueSink ρ} {l l' : Ledger ρ} (inv : Inv capacity acked s l)
    (ran : run (QueueSink.step capacity attempt) s l steps = some (s', l')) : Inv capacity acked s' l' := by
  induction steps generalizing s l with
  | nil =>
    cases ran
    exact inv
  | cons a steps ih =>
    simp only [run] at ran
    split at ran
    · cases ran
    · rename_i mid stepped
      exact ih (inv_step room reads inv a stepped) ran

/-- The invariant is what the books promise. -/
theorem balanced_of_inv {capacity : Nat} {acked : List Bool → Bool} {s : QueueSink ρ} {l : Ledger ρ}
    (inv : Inv capacity acked s l) : Balanced capacity acked s l where
  bounded := inv.bounded
  nonempty := inv.nonempty
  inOrder := by
    rw [← inv.hand]
    exact inv.flow.inOrder
  counted := by
    have total := Flow.length_accepted inv.flow
    have dropped := inv.dropped
    have split := l.handled.length_eq_length_filter_add fun h => acked h.posts
    simp only [inv.hand, List.length_append, List.length_map] at total
    omega
  neverEvicted := inv.hand
  evictedFromQueue := inv.flow.placed
  posts := inv.posts
  postsInHand := by
    have posts := inv.postsInHand
    unfold PostsInHand at posts
    split at posts
    · obtain ⟨few, posts⟩ := posts
      rw [posts, List.length_replicate]
      exact ⟨few, fun succeeded => by cases (List.mem_replicate.mp succeeded).2⟩
    · simp [posts]
  drained := fun exited => (inv.stopped exited).2

/-- Neither sink loses, repeats or reorders a batch without counting it. -/
theorem queue_conservation (maxQueuedBatches : UInt64) (room : 1 ≤ maxQueuedBatches)
    (steps : List (SinkStep ρ)) (s : QueueSink ρ) (l : Ledger ρ) :
    (run (StdoutJsonSink.step maxQueuedBatches) {} {} steps = some (s, l) →
      Balanced (StdoutJsonSink.maxQueued maxQueuedBatches) (fun _ => true) s l) ∧
    (run (HttpSink.step maxQueuedBatches) {} {} steps = some (s, l) →
      Balanced (HttpSink.maxQueued maxQueuedBatches) (fun posts => posts.getLast? == some true) s l) := by
  have positive : 1 ≤ maxQueuedBatches.toNat := by simpa using UInt64.le_iff_toNat_le.mp room
  constructor
  · intro ran
    have room' : 1 ≤ StdoutJsonSink.maxQueued maxQueuedBatches := by
      unfold StdoutJsonSink.maxQueued
      split
      · exact Nat.le_refl 1
      · exact positive
    exact balanced_of_inv (inv_run room' stdout_json_reads steps (inv_initial _ _) ran)
  · exact fun ran => balanced_of_inv (inv_run positive http_reads steps (inv_initial _ _) ran)

/-- An overflow, a failed first post and a stop. -/
theorem queue_conservation_overflow :
    Balanced (HttpSink.maxQueued 1) (fun posts => posts.getLast? == some true)
      ({ worker := .exited, stopping := true, writtenBatches := 2, queuedBatches := 2, dropped := 1 } : QueueSink Nat)
      { accepted := [[1], [2]], evicted := [[1]], popped := [[2]], handled := [⟨[2], [false, true]⟩] } :=
  (queue_conservation 1 (by decide)
    [.write [1], .write [], .write [2], .pop, .attempt false, .attempt true, .finish, .stop, .exit] _ _).2 rfl

end SlurmTracer.QueueConservation
