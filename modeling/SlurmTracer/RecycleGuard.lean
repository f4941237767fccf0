import Mathlib.Data.List.Induction
import SlurmTracer.ResolverProofs

/-! The inode-reuse guard over whole histories of the resolver. The promise is
stated against the creations that were delivered, not against the map; the
guard keeps it exactly as long as a recycled id's new cgroup is seen. -/
namespace SlurmTracer.RecycleGuard
open Lib SlurmTracer.Core ResolverProofs

/-- One call on the resolver, with the clock `tick` reads. -/
inductive Op where
  | created (id : UInt64) (path : Bytes) (createdNs : UInt64)
  | removed (id removedNs : UInt64)
  | tick (now : UInt64)
  | resolve (id eventTsNs : UInt64)
  deriving DecidableEq

def apply (r : CgroupResolver) : Op → CgroupResolver
  | .created id path createdNs => r.onCreated id path createdNs
  | .removed id removedNs => r.onRemoved id removedNs
  | .tick now => r.tick now
  | .resolve id eventTsNs => (r.resolve id eventTsNs).2

/-- A fresh resolver after these calls. -/
def run (root : Path) (graceNs : UInt64) (ops : List Op) : CgroupResolver :=
  ops.foldl apply { root, graceNs }

/-- The path and stamp of the latest creation delivered for an id. -/
def lastCreated (id : UInt64) (ops : List Op) : Option (Bytes × UInt64) :=
  ops.foldl (fun last op => match op with
    | .created key path createdNs => if key = id then some (path, createdNs) else last
    | _ => last) none

@[simp] theorem run_snoc (root : Path) (graceNs : UInt64) (ops : List Op) (op : Op) :
    run root graceNs (ops ++ [op]) = apply (run root graceNs ops) op := by
  simp [run]

theorem last_created_snoc (id : UInt64) (ops : List Op) (op : Op) :
    lastCreated id (ops ++ [op]) = match op with
      | .created key path createdNs => if key = id then some (path, createdNs) else lastCreated id ops
      | _ => lastCreated id ops := by
  simp [lastCreated]

/-- At every point of the run, whatever any later event of an id would be
attributed to is what the id's latest creation says, and not a newer one. -/
def Uninherited (root : Path) (graceNs : UInt64) (ops : List Op) : Prop :=
  ∀ past, past <+: ops → ∀ id eventTsNs attr, eventTsNs ≠ 0 →
    ((run root graceNs past).resolve id eventTsNs).1 = some attr →
    ∃ path createdNs, lastCreated id past = some (path, createdNs) ∧
      parseCgroupPath path = some attr ∧ createdNs ≤ eventTsNs

/-- No cgroup that is not job work is created under an id the map still has
an entry for. -/
def RecyclesVacatedIds (root : Path) (graceNs : UInt64) (ops : List Op) : Prop :=
  ∀ past id path createdNs, past ++ [.created id path createdNs] <+: ops →
    parseCgroupPath path = none → (run root graceNs past).entries.lookup id = none

/-- Every entry is the one its id's latest creation made. -/
def EntriesCurrent (r : CgroupResolver) (ops : List Op) : Prop :=
  ∀ id e, r.entries.lookup id = some e →
    ∃ path, lastCreated id ops = some (path, e.createdNs) ∧ parseCgroupPath path = some e.attr

/-- Only a creation for the id itself can separate an entry from it, and only
one that the resolver ignores. -/
theorem entries_current_step {r : CgroupResolver} {ops : List Op} {op : Op}
    (current : EntriesCurrent r ops)
    (vacated : ∀ id path createdNs, op = .created id path createdNs →
      parseCgroupPath path = none → r.entries.lookup id = none) :
    EntriesCurrent (apply r op) (ops ++ [op]) := by
  intro id e held
  rw [last_created_snoc]
  cases op with
  | created key path createdNs =>
    simp only [apply, lookup_on_created] at held
    by_cases same : id = key
    · subst key
      simp only [↓reduceIte] at held ⊢
      cases parsed : parseCgroupPath path with
      | none =>
        rw [parsed] at held
        have empty := vacated id path createdNs rfl parsed
        rw [empty] at held
        contradiction
      | some attr =>
        rw [parsed] at held
        cases held
        exact ⟨path, rfl, parsed⟩
    · simp only [same, Ne.symm same, ↓reduceIte] at held ⊢
      exact current id e held
  | removed key removedNs =>
    simp only [apply, lookup_on_removed] at held
    by_cases same : id = key
    · subst key
      simp only [↓reduceIte, Option.map_eq_some_iff] at held
      obtain ⟨prior, heldPrior, rfl⟩ := held
      obtain ⟨path, last, parsed⟩ := current id prior heldPrior
      have sameCreation : ∀ e : Entry, (if e.removedNs = 0 then { e with removedNs } else e).createdNs =
          e.createdNs ∧ (if e.removedNs = 0 then { e with removedNs } else e).attr = e.attr := by
        intro e
        split <;> exact ⟨rfl, rfl⟩
      exact ⟨path, by rw [(sameCreation prior).1]; exact last, by rw [(sameCreation prior).2]; exact parsed⟩
    · simp only [same, ↓reduceIte] at held
      exact current id e held
  | tick now =>
    simp only [apply, lookup_tick, Option.filter_eq_some_iff] at held
    exact current id e held.1
  | resolve key eventTsNs =>
    simp only [apply, resolve_entries] at held
    exact current id e held

/-- In a run that recycles vacated ids only, every entry ever held is current. -/
theorem entries_current_run (root : Path) (graceNs : UInt64) (ops : List Op)
    (vacated : RecyclesVacatedIds root graceNs ops) : EntriesCurrent (run root graceNs ops) ops := by
  induction ops using List.reverseRecOn with
  | nil =>
    intro id e held
    simp [run] at held
  | append_singleton ops op ih =>
    have before : RecyclesVacatedIds root graceNs ops :=
      fun past id path createdNs step => vacated past id path createdNs
        (step.trans (List.prefix_append ops [op]))
    rw [run_snoc]
    apply entries_current_step (ih before)
    rintro id path createdNs rfl
    exact vacated ops id path createdNs (List.prefix_refl _)

/-- An entry answers the events stamped at its creation or later, so an id
whose entry outlived an ignored creation is attributed to the old job. -/
theorem ignored_creation_inherits {root : Path} {graceNs : UInt64} {past : List Op} {id : UInt64}
    {path : Bytes} {createdNs : UInt64} {e : Entry} (parsed : parseCgroupPath path = none)
    (held : (run root graceNs past).entries.lookup id = some e) :
    ¬ Uninherited root graceNs (past ++ [.created id path createdNs]) := by
  intro promise
  let eventTsNs : UInt64 := if e.createdNs = 0 then 1 else e.createdNs
  have nonzero : eventTsNs ≠ 0 := by
    dsimp only [eventTsNs]
    split
    · decide
    · assumption
  have notNewer : e.createdNs ≤ eventTsNs := by
    dsimp only [eventTsNs]
    split
    · rename_i zero
      rw [zero]
      decide
    · exact UInt64.le_refl _
  have kept : (run root graceNs (past ++ [.created id path createdNs])).entries.lookup id = some e := by
    simp [apply, lookup_on_created, parsed, held]
  obtain ⟨path', createdNs', last, parsed', _⟩ := promise _ (List.prefix_refl _) id eventTsNs e.attr
    nonzero (resolve_some.mpr ⟨e, kept, rfl, .inr notNewer⟩)
  simp only [last_created_snoc, ↓reduceIte, Option.some.injEq, Prod.mk.injEq] at last
  obtain ⟨rfl, rfl⟩ := last
  rw [parsed] at parsed'
  contradiction

/-- A recycled id never answers for a previous job exactly in the runs where
every non-job cgroup arrives under an id the map no longer knows. -/
theorem uninherited_iff_recycles_vacated_ids (root : Path) (graceNs : UInt64) (ops : List Op) :
    Uninherited root graceNs ops ↔ RecyclesVacatedIds root graceNs ops := by
  constructor
  · intro promise past id path createdNs step parsed
    cases held : (run root graceNs past).entries.lookup id with
    | none => rfl
    | some e =>
      exact absurd (fun earlier inside => promise earlier (inside.trans step))
        (ignored_creation_inherits parsed held)
  · intro vacated past inside id eventTsNs attr _ answered
    obtain ⟨e, held, rfl, fresh⟩ := resolve_some.mp answered
    have before : RecyclesVacatedIds root graceNs past :=
      fun past' id path createdNs step => vacated past' id path createdNs (step.trans inside)
    obtain ⟨path, last, parsed⟩ := entries_current_run root graceNs past before id e held
    exact ⟨path, e.createdNs, last, parsed, fresh.resolve_left ‹_›⟩

/-- A job's id comes back as a structural cgroup inside the grace period and
still answers with the job. -/
theorem recycled_scope_inherits_job :
    ¬ ∀ root graceNs ops, Uninherited root graceNs ops := by
  intro promise
  have ops := promise [] 30000000000
    [.created 7 (ascii "/slurm/job_1") 5, .removed 7 6, .created 7 (ascii "/slurm/system") 8]
  have structural : parseCgroupPath (ascii "/slurm/system") = none := by decide
  have held : (run [] 30000000000 [.created 7 (ascii "/slurm/job_1") 5, .removed 7 6]).entries.lookup 7 =
      some ⟨{ jobId := 1 }, 5, 6⟩ := by decide
  exact ignored_creation_inherits structural held ops

end SlurmTracer.RecycleGuard
