import SlurmTracer.Core.Attribution

/-! Each resolver operation as its effect on a lookup. Everything said about
runs of the resolver goes through these, never through the map itself. -/
namespace SlurmTracer.ResolverProofs
open Lib SlurmTracer.Core Core.CgroupResolver

theorem lookup_insert (entries : EntryMap) (id key : UInt64) (e : Entry) :
    (entries.insert id e).lookup key = if key = id then some e else entries.lookup key := by
  by_cases same : key = id
  · subst key
    simp [AList.lookup_insert]
  · simp [same, AList.lookup_insert_ne same]

/-- A job path replaces the id's entry with a live one; any other path leaves
the map as it was. -/
theorem lookup_on_created (r : CgroupResolver) (id key : UInt64) (path : Bytes) (createdNs : UInt64) :
    (r.onCreated id path createdNs).entries.lookup key =
      if key = id then
        (match parseCgroupPath path with
          | some attr => some { attr, createdNs }
          | none => r.entries.lookup key)
      else r.entries.lookup key := by
  unfold onCreated
  cases parseCgroupPath path with
  | none => simp
  | some attr => exact lookup_insert ..

/-- A removal marks the id's entry once and keeps everything else. -/
theorem lookup_on_removed (r : CgroupResolver) (id key removedNs : UInt64) :
    (r.onRemoved id removedNs).entries.lookup key =
      if key = id then
        (r.entries.lookup key).map fun e => if e.removedNs = 0 then { e with removedNs } else e
      else r.entries.lookup key := by
  unfold onRemoved
  cases held : r.entries.lookup id with
  | none =>
    by_cases same : key = id
    · subst key; simp [held]
    · simp [same]
  | some e =>
    by_cases live : e.removedNs = 0
    · simp only [live, ↓reduceIte, lookup_insert]
      by_cases same : key = id
      · subst key; simp [held, live]
      · simp [same]
    · by_cases same : key = id
      · subst key; simp [held, live]
      · simp [same, live]

/-- The loop in `expire` from any point on: an entry stays exactly when
nothing still to be visited under its key passes the test. -/
private theorem lookup_expire_loop (graceNs now key : UInt64)
    (pending : List (Sigma fun _ : UInt64 => Entry)) (kept : EntryMap) (x : Entry) :
    (pending.foldl (fun (kept : EntryMap) entry =>
        if expired graceNs now entry.2 then kept.erase entry.1 else kept) kept).lookup key = some x ↔
      kept.lookup key = some x ∧ ∀ e, ⟨key, e⟩ ∈ pending → expired graceNs now e = false := by
  induction pending generalizing kept with
  | nil => simp
  | cons entry pending ih =>
    obtain ⟨id, e⟩ := entry
    rw [List.foldl_cons, ih]
    cases gone : expired graceNs now e with
    | true =>
      by_cases same : key = id
      · subst key
        simp [gone]
      · simp [same]
    | false =>
      by_cases same : key = id
      · subst key
        simp [gone]
      · simp [same]

/-- A tick drops exactly the entries past their grace period. -/
theorem lookup_tick (r : CgroupResolver) (now key : UInt64) :
    (r.tick now).entries.lookup key =
      (r.entries.lookup key).filter fun e => !expired r.graceNs now e := by
  apply Option.ext
  intro x
  simp only [tick, expire, lookup_expire_loop, Option.filter_eq_some_iff, Bool.not_eq_true']
  refine and_congr_right fun held => ⟨fun kept => kept x (AList.mem_lookup_iff.mp held), ?_⟩
  intro kept e member
  have same : e = x := Option.mem_unique (AList.mem_lookup_iff.mpr member) held
  rw [same]
  exact kept

/-- Resolving changes counters only. -/
@[simp] theorem resolve_entries (r : CgroupResolver) (id ts : UInt64) :
    (r.resolve id ts).2.entries = r.entries := by
  unfold resolve
  split
  · rfl
  · split <;> rfl

/-- `resolve` answers exactly with an entry that is not newer than the event. -/
theorem resolve_some {r : CgroupResolver} {id ts : UInt64} {attr : Attribution} :
    (r.resolve id ts).1 = some attr ↔
      ∃ e, r.entries.lookup id = some e ∧ e.attr = attr ∧ (ts = 0 ∨ e.createdNs ≤ ts) := by
  unfold resolve
  cases held : r.entries.lookup id with
  | none => simp
  | some e =>
    by_cases stale : ts ≠ 0 ∧ ts < e.createdNs
    · simp [stale]
    · have fresh : ts = 0 ∨ e.createdNs ≤ ts := by
        by_cases zero : ts = 0
        · exact .inl zero
        · exact .inr (UInt64.not_lt.mp fun newer => stale ⟨zero, newer⟩)
      simp [stale, fresh]

/-- A lookup that finds an entry is never counted as a miss. -/
theorem resolve_misses {r : CgroupResolver} {id ts : UInt64} {e : Entry}
    (held : r.entries.lookup id = some e) : (r.resolve id ts).2.stats.misses = r.stats.misses := by
  unfold resolve
  rw [held]
  dsimp only
  split <;> rfl

@[simp] theorem on_created_grace (r : CgroupResolver) (id : UInt64) (path : Bytes) (ns : UInt64) :
    (r.onCreated id path ns).graceNs = r.graceNs := by
  unfold onCreated
  split <;> rfl

@[simp] theorem on_removed_grace (r : CgroupResolver) (id ns : UInt64) :
    (r.onRemoved id ns).graceNs = r.graceNs := by
  unfold onRemoved
  split
  · rfl
  · split <;> rfl

@[simp] theorem tick_grace (r : CgroupResolver) (now : UInt64) : (r.tick now).graceNs = r.graceNs := rfl

@[simp] theorem resolve_grace (r : CgroupResolver) (id ts : UInt64) :
    (r.resolve id ts).2.graceNs = r.graceNs := by
  unfold resolve
  split
  · rfl
  · split <;> rfl

end SlurmTracer.ResolverProofs
