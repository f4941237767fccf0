import SlurmTracer.Core.Attribution

/-! What a path is attributed to depends on its segments alone, and of those
only on the ones from its last job segment on. -/
namespace SlurmTracer.AttributionProofs
open Lib SlurmTracer.Core

/-- `job_` followed by digits below 2^32. -/
def IsJobSegment (seg : Bytes) : Prop := (parseNumericSuffix seg (ascii "job_")).isSome = true

instance : DecidablePred IsJobSegment := fun seg => by
  unfold IsJobSegment
  infer_instance

/-- A run of bytes without a slash stays in the segment being read. -/
private theorem split_path_from_name (part name rest : Bytes) (plain : slash ∉ name) :
    splitPathFrom part (name ++ rest) = splitPathFrom (part ++ name) rest := by
  induction name generalizing part with
  | nil => simp
  | cons c name ih =>
    have notSlash : c ≠ slash := fun same => plain (same ▸ List.mem_cons_self)
    have plainTail : slash ∉ name := fun member => plain (List.mem_cons_of_mem _ member)
    rw [List.cons_append, splitPathFrom, if_neg notSlash, ih _ plainTail, List.append_assoc,
      List.singleton_append]

private theorem split_path_from_names (part : Bytes) (names : Path)
    (valid : ∀ name ∈ names, name ≠ [] ∧ slash ∉ name) :
    splitPathFrom part (pathString names) = (if part = [] then [] else [part]) ++ names := by
  induction names generalizing part with
  | nil => simp [pathString, splitPathFrom]
  | cons name names ih =>
    obtain ⟨nonempty, plain⟩ := valid name List.mem_cons_self
    have later := ih name (fun other member => valid other (List.mem_cons_of_mem _ member))
    rw [if_neg nonempty] at later
    have here : splitPathFrom [] (name ++ pathString names) = name :: names := by
      rw [split_path_from_name [] name _ plain, List.nil_append, later, List.singleton_append]
    change splitPathFrom part (slash :: (name ++ pathString names)) = _
    rw [splitPathFrom, if_pos rfl, here]
    split <;> simp

/-- Splitting a path's string gives back its names. -/
theorem split_path_string (names : Path) (valid : ∀ name ∈ names, name ≠ [] ∧ slash ∉ name) :
    splitPath (pathString names) = names := by
  simpa [splitPath] using split_path_from_names [] names valid

/-- The loop's verdict: a job segment was seen before or is among these. -/
theorem fold_saw_job (segs : List Bytes) (s : PathParse) :
    (segs.foldl parseSegment s).sawJob = true ↔ s.sawJob = true ∨ ∃ seg ∈ segs, IsJobSegment seg := by
  induction segs generalizing s with
  | nil => simp
  | cons seg segs ih =>
    rw [List.foldl_cons, ih]
    have here : (parseSegment s seg).sawJob = true ↔ s.sawJob = true ∨ IsJobSegment seg := by
      unfold parseSegment IsJobSegment
      cases parseNumericSuffix seg (ascii "job_") with
      | some job => simp
      | none =>
        simp only [Option.isSome_none, Bool.false_eq_true, or_false]
        split
        · rfl
        · split <;> rfl
    rw [here]
    simp only [List.mem_cons, exists_eq_or_imp, or_assoc]

/-- Nothing before a job segment reaches past it. -/
theorem fold_forgets (segs : List Bytes) (job : ∃ seg ∈ segs, IsJobSegment seg) (s s' : PathParse) :
    segs.foldl parseSegment s = segs.foldl parseSegment s' := by
  induction segs generalizing s s' with
  | nil => simp at job
  | cons seg segs ih =>
    rw [List.foldl_cons, List.foldl_cons]
    by_cases later : ∃ seg ∈ segs, IsJobSegment seg
    · exact ih later _ _
    · have here : IsJobSegment seg := by
        obtain ⟨found, member, isJob⟩ := job
        rcases List.mem_cons.mp member with rfl | member
        · exact isJob
        · exact absurd ⟨found, member, isJob⟩ later
      obtain ⟨id, number⟩ := Option.isSome_iff_exists.mp here
      simp only [parseSegment, number]

/-- A path without a job segment has no attribution, and only such a path. -/
theorem parse_none_iff (path : Bytes) :
    parseCgroupPath path = none ↔ ∀ seg ∈ splitPath path, ¬ IsJobSegment seg := by
  have saw := fold_saw_job (splitPath path) {}
  simp only [parseCgroupPath]
  cases seen : ((splitPath path).foldl parseSegment {}).sawJob with
  | true =>
    obtain ⟨seg, member, isJob⟩ := (saw.mp seen).resolve_left (by simp)
    simp only [Bool.not_true, Bool.false_eq_true, ↓reduceIte, reduceCtorEq, false_iff]
    exact fun clean => clean seg member isJob
  | false =>
    simp only [Bool.not_false, ↓reduceIte, true_iff]
    intro seg member isJob
    have := saw.mpr (.inr ⟨seg, member, isJob⟩)
    rw [seen] at this
    contradiction

/-- Segments in front of a path with a job segment change nothing. -/
theorem parse_ignores_front (path path' : Bytes) (front : List Bytes)
    (shape : splitPath path' = front ++ splitPath path)
    (job : ∃ seg ∈ splitPath path, IsJobSegment seg) :
    parseCgroupPath path' = parseCgroupPath path := by
  simp only [parseCgroupPath, shape, List.foldl_append]
  rw [fold_forgets (splitPath path) job (front.foldl parseSegment {}) {}]

end SlurmTracer.AttributionProofs
