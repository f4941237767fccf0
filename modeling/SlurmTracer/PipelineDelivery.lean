import SlurmTracer.Core.Pipeline

/-!
What the pipeline hands to whom. Records leave in the order they were emitted,
each in one batch, and a sink is handed exactly the batches shipped while it
was in the list (`pipeline_delivery`).
-/
namespace SlurmTracer.PipelineDelivery
open SlurmTracer.Core Lib

/-- What `set_sinks` is given: the addresses of distinct instances. -/
abbrev SinkList := { sinks : List SinkRef // sinks.Nodup }

/-- A call into the pipeline. -/
inductive Op where
  | emit (s : Surroundings) (r : Record)
  | tick (now : Int64)
  | flush (now : Int64)
  | setSinks (sinks : SinkList)

/-- What one call enriched and shipped, and the pipeline it left. -/
structure Outcome where
  enriched : List Record
  shipments : List Shipment
  after : Pipeline

def call (p : Pipeline) : Op → Outcome
  | .emit s r => ⟨[(p.enrich s r).1], (p.emit s r).2.1, (p.emit s r).1⟩
  | .tick now => ⟨[], (p.tick now).2, (p.tick now).1⟩
  | .flush now => ⟨[], (p.flush now).2.1, (p.flush now).1⟩
  | .setSinks sinks => ⟨[], [], p.setSinks sinks⟩

/-- The sink list in force after a call, as the caller knows it. -/
def wiredAfter (wired : SinkList) : Op → SinkList
  | .setSinks sinks => sinks
  | .emit _ _ | .tick _ | .flush _ => wired

/-- A call made while `wired` was the list last set. -/
structure Call extends Outcome where
  wired : SinkList

/-- The calls of a run, in order. -/
def run (p : Pipeline) (wired : SinkList) : List Op → List Call
  | [] => []
  | op :: ops => ⟨call p op, wired⟩ :: run (call p op).after (wiredAfter wired op) ops

/-- The pipeline a run ends with. -/
def final (p : Pipeline) : List Op → Pipeline
  | [] => p
  | op :: ops => final (call p op).after ops

def enriched (calls : List Call) : List Record := calls.flatMap fun c => c.enriched

/-- The batches shipped, in order. -/
def shipped (calls : List Call) : List (List Record) := calls.flatMap fun c => c.shipments.map Shipment.batch

/-- The batches whose copies reached a sink's `write`, in order. -/
def received (sink : SinkRef) (calls : List Call) : List (List Record) :=
  calls.flatMap fun c => c.shipments.flatMap fun s => (s.sinks.filter (· = sink)).map fun _ => s.batch

/-- The batches shipped while the sink was in the list. -/
def owed (sink : SinkRef) (calls : List Call) : List (List Record) :=
  shipped (calls.filter fun c => sink ∈ c.wired.val)

/-- Two sinks were in the list during the same calls. -/
def SameStretch (a b : SinkRef) (calls : List Call) : Prop := ∀ c ∈ calls, a ∈ c.wired.val ↔ b ∈ c.wired.val

/-- What a run of the pipeline promises. -/
structure Delivers (batchSize : Nat) (pending : List Record) (calls : List Call) : Prop where
  inOrder : (shipped calls).flatten ++ pending = enriched calls
  sized : ∀ batch ∈ shipped calls, batch ≠ [] ∧ batch.length ≤ max 1 batchSize
  bounded : ∀ c ∈ calls, c.after.batch.length < max 1 batchSize
  eachOnce : ∀ sink, received sink calls = owed sink calls
  alike : ∀ a b, SameStretch a b calls → received a calls = received b calls

/-! ### One call -/

private theorem lookup_user_frame (p : Pipeline) (uid : UInt32) (passwd : PasswdReply) :
    ∃ userCache, (p.lookupUser uid passwd).2 = { p with userCache } := by
  unfold Pipeline.lookupUser
  split
  · exact ⟨p.userCache, rfl⟩
  · exact ⟨_, rfl⟩

private theorem enrich_user_frame (p : Pipeline) (passwd : PasswdReply) (r : Record) :
    ∃ userCache, (p.enrichUser passwd r).2 = { p with userCache } := by
  unfold Pipeline.enrichUser
  cases r.uid with
  | none => exact ⟨p.userCache, rfl⟩
  | some uid =>
    obtain ⟨userCache, same⟩ := lookup_user_frame p uid passwd
    refine ⟨userCache, ?_⟩
    rw [← same]
    simp only
    split <;> rename_i came <;> rw [came]

/-- Enrichment leaves the batch and the wiring alone. -/
theorem enrich_frame (p : Pipeline) (s : Surroundings) (r : Record) :
    ∃ userCache stats, (p.enrich s r).2.1 = { p with userCache, stats } := by
  unfold Pipeline.enrich
  simp only
  split
  · obtain ⟨userCache, same⟩ := enrich_user_frame p s.passwd
      { r with tsNs := r.tsNs + s.bootOffsetNs, node := p.opt.node, cluster := p.opt.cluster }
    exact ⟨userCache, p.stats, same⟩
  · obtain ⟨userCache, same⟩ := enrich_user_frame p s.passwd
      { r with tsNs := r.tsNs + s.bootOffsetNs, node := p.opt.node, cluster := p.opt.cluster }
    rw [same]
    exact ⟨userCache, _, rfl⟩

theorem ship_fst (p : Pipeline) : p.ship.1 = { p with batch := [] } := by
  unfold Pipeline.ship
  split
  · rename_i empty
    rw [← empty]
  · rfl

theorem ship_snd (p : Pipeline) : p.ship.2 = if p.batch = [] then [] else [⟨p.batch, p.sinks⟩] := by
  unfold Pipeline.ship
  split <;> rfl

/-- A tick does nothing or ships. -/
theorem tick_cases (p : Pipeline) (now : Int64) :
    p.tick now = (p, []) ∨ p.tick now = ({ p.ship.1 with lastFlush := now }, p.ship.2) := by
  unfold Pipeline.tick
  generalize p.intervalElapsed now = elapsed
  cases elapsed with
  | false => exact Or.inl rfl
  | true => exact Or.inr rfl

/-- What one call does to the pending records: they and the new record leave in
shipments to the current list, or stay pending. -/
structure Moves (p : Pipeline) (o : Outcome) : Prop where
  opt : o.after.opt = p.opt
  conserved : p.batch ++ o.enriched = (o.shipments.map Shipment.batch).flatten ++ o.after.batch
  toList : ∀ s ∈ o.shipments, s.sinks = p.sinks ∧ s.batch ≠ [] ∧ s.batch.length ≤ p.batch.length + o.enriched.length
  bounded : p.batch.length < max 1 p.opt.batchSize.toNat →
    p.batch.length + o.enriched.length ≤ max 1 p.opt.batchSize.toNat ∧
      o.after.batch.length < max 1 p.opt.batchSize.toNat

/-- Shipping whatever is pending. -/
private theorem moves_ship (p : Pipeline) (lastFlush : Int64) :
    Moves p ⟨[], p.ship.2, { p.ship.1 with lastFlush }⟩ := by
  rw [ship_fst, ship_snd]
  by_cases empty : p.batch = []
  · simp only [if_pos empty]
    exact ⟨rfl, by simp [empty], by simp,
      fun below => ⟨Nat.le_of_lt below, Nat.lt_of_le_of_lt (Nat.zero_le _) below⟩⟩
  · simp only [if_neg empty]
    exact ⟨rfl, by simp, by simp [empty],
      fun below => ⟨Nat.le_of_lt below, Nat.lt_of_le_of_lt (Nat.zero_le _) below⟩⟩

private theorem moves_still (p : Pipeline) (sinks : List SinkRef) : Moves p ⟨[], [], p.setSinks sinks⟩ :=
  ⟨rfl, by simp [Pipeline.setSinks], by simp, fun below => ⟨Nat.le_of_lt below, below⟩⟩

private theorem moves_emit (p : Pipeline) (s : Surroundings) (r : Record) : Moves p (call p (.emit s r)) := by
  obtain ⟨userCache, stats, frame⟩ := enrich_frame p s r
  simp only [call, Pipeline.emit]
  rcases enriches : p.enrich s r with ⟨r', p', resolver⟩
  rw [enriches] at frame
  simp only at frame ⊢
  subst frame
  simp only [List.length_append, List.length_singleton]
  by_cases full : p.batch.length + 1 ≥ p.opt.batchSize.toNat
  · simp only [if_pos full, ship_fst, ship_snd, List.append_eq_nil_iff, List.cons_ne_self, and_false, if_false]
    refine ⟨rfl, by simp, by simp, fun below => ⟨?_, Nat.lt_of_le_of_lt (Nat.zero_le _) below⟩⟩
    simp only [List.length_singleton]
    omega
  · simp only [if_neg full]
    refine ⟨rfl, by simp, by simp, fun below => ⟨?_, ?_⟩⟩ <;>
      simp only [List.length_append, List.length_singleton] <;> omega

theorem moves_call (p : Pipeline) (op : Op) : Moves p (call p op) := by
  cases op with
  | emit s r => exact moves_emit p s r
  | tick now =>
    rcases tick_cases p now with still | ships
    · rw [call, still]
      exact moves_still p p.sinks
    · rw [call, ships]
      exact moves_ship p now
  | flush now => exact moves_ship p now
  | setSinks sinks => exact moves_still p sinks.val

/-- Only `set_sinks` changes the list. -/
theorem sinks_call (p : Pipeline) {op : Op} (notSet : ∀ sinks, op ≠ .setSinks sinks) :
    (call p op).after.sinks = p.sinks := by
  cases op with
  | emit s r =>
    obtain ⟨userCache, stats, frame⟩ := enrich_frame p s r
    simp only [call, Pipeline.emit, frame]
    split
    · rw [ship_fst]
    · rfl
  | tick now =>
    rcases tick_cases p now with still | ships
    · rw [call, still]
    · rw [call, ships, ship_fst]
  | flush now => simp only [call, Pipeline.flush, ship_fst]
  | setSinks sinks => exact absurd rfl (notSet sinks)

/-- The pipeline's list is the one last set. -/
theorem wired_call {p : Pipeline} {wired : SinkList} (same : p.sinks = wired.val) (op : Op) :
    (call p op).after.sinks = (wiredAfter wired op).val := by
  cases op with
  | setSinks sinks => rfl
  | emit s r => exact (sinks_call p (by simp)).trans same
  | tick now => exact (sinks_call p (by simp)).trans same
  | flush now => exact (sinks_call p (by simp)).trans same

/-! ### Whole runs -/

private theorem received_one {sinks : List SinkRef} (distinct : sinks.Nodup) (sink : SinkRef)
    (batch : List Record) :
    ((sinks.filter (· = sink)).map fun _ => batch) = if sink ∈ sinks then [batch] else [] := by
  rw [List.filter_eq, distinct.count]
  split <;> rfl

/-- A sink is handed the batches of a call if the list last set names it. -/
private theorem received_call {shipments : List Shipment} {wired : SinkList}
    (toList : ∀ s ∈ shipments, s.sinks = wired.val) (sink : SinkRef) :
    (shipments.flatMap fun s => (s.sinks.filter (· = sink)).map fun _ => s.batch) =
      if sink ∈ wired.val then shipments.map Shipment.batch else [] := by
  induction shipments with
  | nil => simp
  | cons s shipments ih =>
    rw [List.flatMap_cons, ih fun s member => toList s (List.mem_cons_of_mem _ member),
      toList s List.mem_cons_self, received_one wired.property]
    by_cases member : sink ∈ wired.val <;> simp [member]

/-- The promise, from any pipeline within its bound. -/
theorem delivers_from {p : Pipeline} {wired : SinkList} (same : p.sinks = wired.val)
    (below : p.batch.length < max 1 p.opt.batchSize.toNat) (ops : List Op) :
    (shipped (run p wired ops)).flatten ++ (final p ops).batch = p.batch ++ enriched (run p wired ops) ∧
    (∀ batch ∈ shipped (run p wired ops), batch ≠ [] ∧ batch.length ≤ max 1 p.opt.batchSize.toNat) ∧
    (∀ c ∈ run p wired ops, c.after.batch.length < max 1 p.opt.batchSize.toNat) ∧
    (∀ sink, received sink (run p wired ops) = owed sink (run p wired ops)) := by
  induction ops generalizing p wired with
  | nil => simp [run, shipped, enriched, received, owed, final]
  | cons op ops ih =>
    obtain ⟨opt, conserved, toList, bounded⟩ := moves_call p op
    obtain ⟨fits, belowAfter⟩ := bounded below
    obtain ⟨inOrder, sized, boundedRest, eachOnce⟩ := ih (wired_call same op) (by rw [opt]; exact belowAfter)
    rw [opt] at sized boundedRest
    refine ⟨?_, ?_, ?_, ?_⟩
    · simp only [run, shipped, enriched, List.flatMap_cons, List.flatten_append, List.append_assoc, final]
      simp only [shipped, enriched] at inOrder
      rw [inOrder, ← List.append_assoc, ← conserved, List.append_assoc]
    · intro batch member
      simp only [run, shipped, List.flatMap_cons, List.mem_append] at member
      rcases member with now | later
      · obtain ⟨s, there, rfl⟩ := List.mem_map.mp now
        obtain ⟨-, nonempty, size⟩ := toList s there
        exact ⟨nonempty, Nat.le_trans size fits⟩
      · exact sized batch later
    · intro c member
      rcases List.mem_cons.mp member with rfl | later
      · exact belowAfter
      · exact boundedRest c later
    · intro sink
      have here := received_call (fun s there => (toList s there).1.trans same) sink
      have rest := eachOnce sink
      simp only [received] at rest
      simp only [run, received, List.flatMap_cons, here, rest, owed, List.filter_cons, decide_eq_true_eq]
      by_cases member : sink ∈ wired.val <;> simp [member, shipped]

/-- Over any sequence of calls, records are neither lost, duplicated nor
reordered, and each sink is handed exactly what was shipped while it was in the
list. -/
theorem pipeline_delivery (opt : PipelineOptions) (sinks : SinkList) (now : Int64) (ops : List Op) :
    Delivers opt.batchSize.toNat (final (.new opt sinks.val now) ops).batch
      (run (.new opt sinks.val now) sinks ops) := by
  have below : (Pipeline.new opt sinks.val now).batch.length < max 1 opt.batchSize.toNat := by
    simp only [Pipeline.new, List.length_nil]
    omega
  obtain ⟨inOrder, sized, bounded, eachOnce⟩ := delivers_from (p := .new opt sinks.val now) rfl below ops
  refine ⟨inOrder, sized, bounded, eachOnce, fun a b stretch => ?_⟩
  rw [eachOnce a, eachOnce b, owed, owed]
  refine congrArg shipped (List.filter_congr fun c member => ?_)
  exact decide_eq_decide.mpr (stretch c member)

end SlurmTracer.PipelineDelivery
