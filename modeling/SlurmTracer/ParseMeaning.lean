import Mathlib.Data.List.Induction
import SlurmTracer.AttributionProofs
import SlurmTracer.Lib.LastOf

/-! What a cgroup path says, read off its segments without a pass over them:
the last job, the last step after it, the last task after both. The parser's
single pass computes exactly this (`parse_cgroup_path_meaning`). -/
namespace SlurmTracer.ParseMeaning
open Lib SlurmTracer.Core Lib.LastOf

/-! ### Segments -/

/-- The runs of bytes between slashes, less the empty ones. -/
def segments (path : Bytes) : List Bytes := (path.splitOn slash).filter (· ≠ [])

private theorem modify_head_self (parts : List Bytes) : parts.modifyHead (fun part => part) = parts := by
  cases parts <;> rfl

private theorem split_path_from_eq (part path : Bytes) :
    splitPathFrom part path = ((path.splitOn slash).modifyHead (part ++ ·)).filter (· ≠ []) := by
  induction path generalizing part with
  | nil => by_cases empty : part = [] <;> simp [splitPathFrom, empty]
  | cons c path ih =>
    rw [splitPathFrom, List.splitOn_cons_eq_if_modifyHead]
    by_cases isSlash : c = slash
    · have rest : splitPathFrom [] path = (path.splitOn slash).filter (· ≠ []) := by
        rw [ih []]
        simp [modify_head_self]
      by_cases empty : part = [] <;> simp [isSlash, empty, rest]
    · rw [if_neg isSlash, ih, if_neg (by simpa using isSlash), List.modifyHead_modifyHead]
      simp [Function.comp_def]

/-- `split_path` finds the segments. -/
theorem split_path_eq (path : Bytes) : splitPath path = segments path := by
  rw [splitPath, split_path_from_eq, segments]
  simp [modify_head_self]

/-! ### What one segment says -/

/-- A prefix with the decimal digits of a 32-bit number behind it. -/
def Numbered (pfx seg : Bytes) (n : UInt32) : Prop :=
  ∃ digits, seg = pfx ++ digits ∧ digits ≠ [] ∧ (∀ c ∈ digits, isDigit c = true) ∧ digitsValue digits = n.toNat

def JobSegment : Bytes → UInt32 → Prop := Numbered (ascii "job_")

def TaskSegment : Bytes → UInt32 → Prop := Numbered (ascii "task_")

/-- `step_` with anything behind it. -/
def StepSegment (seg text : Bytes) : Prop := seg = ascii "step_" ++ text ∧ text ≠ []

theorem parse_numeric_suffix_iff (seg pfx : Bytes) (n : UInt32) :
    parseNumericSuffix seg pfx = some n ↔ Numbered pfx seg n := by
  unfold parseNumericSuffix
  constructor
  · intro parsed
    split at parsed
    · cases parsed
    · rename_i shape
      simp only [not_or, not_le, ne_eq, not_not] at shape
      simp only at parsed
      split at parsed
      · cases parsed
      · rename_i some_digits
        split at parsed
        · cases parsed
        · rename_i allDigits
          simp only [Bool.not_eq_true, List.any_eq_false, Bool.not_eq_eq_eq_not, Bool.not_true] at allDigits
          refine ⟨seg.drop pfx.length, ?_, some_digits, fun c member => by simpa using allDigits c member, ?_⟩
          · nth_rewrite 1 [← List.take_append_drop pfx.length seg]
            rw [shape.2]
          · unfold strtoul at parsed
            split at parsed
            · cases parsed
            · rename_i value number
              split at number
              · cases number
                split at parsed
                · cases parsed
                · rename_i bounded
                  cases parsed
                  rw [UInt32.toNat_ofNat']
                  omega
              · cases number
  · rintro ⟨digits, rfl, some_digits, allDigits, value⟩
    have below := n.toNat_lt
    have longer : ¬ ((pfx ++ digits).length ≤ pfx.length ∨ (pfx ++ digits).take pfx.length ≠ pfx) := by
      have := List.length_pos_iff.mpr some_digits
      simp only [List.length_append, List.take_left, ne_eq, not_true_eq_false, or_false]
      omega
    have noOther : ¬ digits.any (fun c => !isDigit c) = true := by
      simp only [List.any_eq_true, not_exists, not_and, Bool.not_eq_true, Bool.not_eq_false']
      exact fun c member => by simpa using allDigits c member
    rw [if_neg longer]
    simp only [List.drop_left]
    rw [if_neg some_digits, if_neg noOther, strtoul, if_pos (by omega)]
    simp only [value]
    rw [if_neg (by omega), UInt32.ofNat_toNat]

theorem numbered_unique (pfx : Bytes) : ∀ seg m n, Numbered pfx seg m → Numbered pfx seg n → m = n := by
  intro seg m n first second
  rw [← parse_numeric_suffix_iff] at first second
  exact Option.some.inj (first.symm.trans second)

theorem step_unique : ∀ seg text text', StepSegment seg text → StepSegment seg text' → text = text' :=
  fun _ _ _ first second => List.append_cancel_left (first.1.symm.trans second.1)

theorem step_segment_iff (seg : Bytes) :
    ((ascii "step_").isPrefixOf seg = true ∧ seg.length > 5) ↔ StepSegment seg (seg.drop 5) := by
  have five : (ascii "step_").length = 5 := by decide
  rw [List.isPrefixOf_iff_prefix]
  constructor
  · rintro ⟨⟨text, rfl⟩, longer⟩
    rw [List.length_append, five] at longer
    have dropped : (ascii "step_" ++ text).drop 5 = text := List.drop_left' five
    rw [dropped]
    exact ⟨rfl, fun empty => by simp [empty] at longer⟩
  · rintro ⟨shape, nonempty⟩
    have := List.length_pos_iff.mpr nonempty
    rw [List.length_drop] at this
    exact ⟨⟨seg.drop 5, shape.symm⟩, by omega⟩

/-! ### What the segments say together -/

/-- The last step, or none; `rest` is what comes after it. -/
def StepIs (segs : List Bytes) (step : Bytes) (rest : List Bytes) : Prop :=
  (Absent StepSegment segs ∧ step = [] ∧ rest = segs) ∨ Last StepSegment segs step rest

/-- The last task, or none. -/
def TaskIs (segs : List Bytes) : Option UInt32 → Prop
  | none => Absent TaskSegment segs
  | some task => ∃ rest, Last TaskSegment segs task rest

/-- The attribution in force at the end of the segments. -/
def Means (segs : List Bytes) (attr : Attribution) : Prop :=
  ∃ ofJob ofStep, Last JobSegment segs attr.jobId ofJob ∧ StepIs ofJob attr.stepId ofStep ∧
    TaskIs ofStep attr.taskId

private theorem step_is_unique {segs rest rest' : List Bytes} {step step' : Bytes} (is : StepIs segs step rest)
    (is' : StepIs segs step' rest') : step = step' ∧ rest = rest' := by
  rcases is with ⟨quiet, rfl, rfl⟩ | last <;> rcases is' with ⟨quiet', rfl, rfl⟩ | last'
  · exact ⟨rfl, rfl⟩
  · exact absurd quiet (last_not_absent last')
  · exact absurd quiet' (last_not_absent last)
  · exact last_unique step_unique last last'

private theorem task_is_unique {segs : List Bytes} {task task' : Option UInt32} (is : TaskIs segs task)
    (is' : TaskIs segs task') : task = task' := by
  cases task with
  | none =>
    cases task' with
    | none => rfl
    | some k' => exact is'.elim fun _ last => absurd is (last_not_absent last)
  | some k =>
    obtain ⟨rest, last⟩ := is
    cases task' with
    | none => exact absurd is' (last_not_absent last)
    | some k' => exact is'.elim fun _ last' => congrArg some (last_unique (numbered_unique _) last last').1

theorem means_unique {segs : List Bytes} {attr attr' : Attribution} (means : Means segs attr)
    (means' : Means segs attr') : attr = attr' := by
  obtain ⟨ofJob, ofStep, job, step, task⟩ := means
  obtain ⟨ofJob', ofStep', job', step', task'⟩ := means'
  obtain ⟨sameJob, rfl⟩ := last_unique (numbered_unique _) job job'
  obtain ⟨sameStep, rfl⟩ := step_is_unique step step'
  cases attr
  cases attr'
  rw [Attribution.mk.injEq]
  exact ⟨sameJob, sameStep, task_is_unique task task'⟩

/-! ### The pass -/

variable {segs : List Bytes} {seg : Bytes} {attr : Attribution}

theorem means_job {n : UInt32} (segs : List Bytes) (job : JobSegment seg n) :
    Means (segs ++ [seg]) { jobId := n } :=
  ⟨[], [], last_hit segs job, .inl ⟨absent_nil, rfl, rfl⟩, absent_nil⟩

theorem means_step {text : Bytes} (means : Means segs attr) (notJob : ∀ n, ¬ JobSegment seg n)
    (step : StepSegment seg text) : Means (segs ++ [seg]) { attr with stepId := text, taskId := none } := by
  obtain ⟨ofJob, ofStep, job, -, -⟩ := means
  exact ⟨ofJob ++ [seg], [], last_miss job notJob, .inr (last_hit ofJob step), absent_nil⟩

private theorem step_is_miss {step : Bytes} {rest : List Bytes} (is : StepIs segs step rest)
    (notStep : ∀ text, ¬ StepSegment seg text) : StepIs (segs ++ [seg]) step (rest ++ [seg]) := by
  rcases is with ⟨quiet, rfl, rfl⟩ | last
  · exact .inl ⟨absent_append.mpr ⟨quiet, absent_singleton.mpr notStep⟩, rfl, rfl⟩
  · exact .inr (last_miss last notStep)

theorem means_task {k : UInt32} (means : Means segs attr) (notJob : ∀ n, ¬ JobSegment seg n)
    (notStep : ∀ text, ¬ StepSegment seg text) (task : TaskSegment seg k) :
    Means (segs ++ [seg]) { attr with taskId := some k } := by
  obtain ⟨ofJob, ofStep, job, step, -⟩ := means
  exact ⟨ofJob ++ [seg], ofStep ++ [seg], last_miss job notJob, step_is_miss step notStep, [],
    last_hit ofStep task⟩

/-- Structural segments refine nothing. -/
theorem means_other (means : Means segs attr) (notJob : ∀ n, ¬ JobSegment seg n)
    (notStep : ∀ text, ¬ StepSegment seg text) (notTask : ∀ k, ¬ TaskSegment seg k) :
    Means (segs ++ [seg]) attr := by
  obtain ⟨ofJob, ofStep, job, step, task⟩ := means
  refine ⟨ofJob ++ [seg], ofStep ++ [seg], last_miss job notJob, step_is_miss step notStep, ?_⟩
  cases named : attr.taskId with
  | none =>
    rw [named] at task
    exact absent_append.mpr ⟨task, absent_singleton.mpr notTask⟩
  | some k =>
    rw [named] at task
    obtain ⟨rest, last⟩ := task
    exact ⟨rest ++ [seg], last_miss last notTask⟩

private theorem not_numbered {pfx : Bytes} (unread : parseNumericSuffix seg pfx = none) (n : UInt32) :
    ¬ Numbered pfx seg n := by
  rw [← parse_numeric_suffix_iff, unread]
  exact nofun

private theorem not_step (other : ¬ ((ascii "step_").isPrefixOf seg = true ∧ seg.length > 5)) (text : Bytes) :
    ¬ StepSegment seg text := by
  rintro ⟨shape, nonempty⟩
  have dropped : seg.drop 5 = text := by
    rw [shape]
    exact List.drop_left' (by decide)
  exact other ((step_segment_iff seg).mpr ⟨by rw [dropped, ← shape], by rwa [dropped]⟩)

/-- One turn of the loop follows the meaning of the segments so far. -/
theorem parse_segment_means {s : PathParse} (before : s.sawJob = true → Means segs s.attr)
    (saw : (parseSegment s seg).sawJob = true) : Means (segs ++ [seg]) (parseSegment s seg).attr := by
  unfold parseSegment at saw ⊢
  cases job : parseNumericSuffix seg (ascii "job_") with
  | some n => exact means_job segs ((parse_numeric_suffix_iff _ _ _).mp job)
  | none =>
    have notJob := not_numbered job
    simp only [job] at saw ⊢
    by_cases step : (ascii "step_").isPrefixOf seg = true ∧ seg.length > 5
    · rw [if_pos step] at saw ⊢
      exact means_step (before saw) notJob ((step_segment_iff seg).mp step)
    · have notStep := not_step step
      rw [if_neg step] at saw ⊢
      cases task : parseNumericSuffix seg (ascii "task_") with
      | some k =>
        rw [task] at saw
        exact means_task (before saw) notJob notStep ((parse_numeric_suffix_iff _ _ _).mp task)
      | none =>
        rw [task] at saw
        exact means_other (before saw) notJob notStep (not_numbered task)

/-- The pass over all segments. -/
theorem fold_means (segs : List Bytes) (saw : (segs.foldl parseSegment {}).sawJob = true) :
    Means segs (segs.foldl parseSegment {}).attr := by
  induction segs using List.reverseRecOn with
  | nil => cases saw
  | append_singleton segs seg ih =>
    rw [List.foldl_concat] at saw ⊢
    exact parse_segment_means ih saw

theorem parse_means {path : Bytes} (parsed : parseCgroupPath path = some attr) : Means (segments path) attr := by
  rw [parseCgroupPath, split_path_eq] at parsed
  split at parsed
  · cases parsed
  · rename_i saw
    cases parsed
    exact fold_means _ (by simpa using saw)

theorem parse_none_absent (path : Bytes) :
    parseCgroupPath path = none ↔ Absent JobSegment (segments path) := by
  rw [AttributionProofs.parse_none_iff, split_path_eq]
  apply forall₂_congr
  intro seg _
  rw [AttributionProofs.IsJobSegment, Option.isSome_iff_exists, not_exists]
  exact forall_congr' fun n => not_congr (parse_numeric_suffix_iff _ _ _)

theorem parse_some_means (path : Bytes) (attr : Attribution) :
    parseCgroupPath path = some attr ↔ Means (segments path) attr := by
  refine ⟨parse_means, fun means => ?_⟩
  cases parsed : parseCgroupPath path with
  | none =>
    obtain ⟨ofJob, -, job, -⟩ := means
    exact absurd ((parse_none_absent path).mp parsed) (last_not_absent job)
  | some attr' => rw [means_unique means (parse_means parsed)]

/-- `parse_cgroup_path` computes what its path says. -/
theorem parse_cgroup_path_meaning (path : Bytes) :
    (parseCgroupPath path = none ↔ Absent JobSegment (segments path)) ∧
      ∀ attr, parseCgroupPath path = some attr ↔ Means (segments path) attr :=
  ⟨parse_none_absent path, parse_some_means path⟩

end SlurmTracer.ParseMeaning
