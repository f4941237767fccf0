import Mathlib.Data.List.DropRight
import SlurmTracer.Core.CgroupWatcher
import SlurmTracer.ParseMeaning
import SlurmTracer.ResolverProofs

/-! Paths longer than the watcher's buffer. The tracepoint cuts them at 255
bytes, and what is parsed is the cut path: a `job_123` that ends as `job_12`
goes to job 12. What matters is where byte 255 falls: behind every segment
that decides, the cut is harmless; inside or before one, it is harmful unless
the same is named on both sides of it (`faithful_iff_cut_harmless`). -/
namespace SlurmTracer.TruncatedPaths
open Lib SlurmTracer.Core Core.CgroupResolver Lib.LastOf ParseMeaning ResolverProofs

/-- A string as the kernel holds it. -/
abbrev CString := { s : Bytes // 0 ∉ s }

/-- A cgroup's creation on its way from the tracepoint to the resolver. -/
def feedCreate (r : CgroupResolver) (id : UInt64) (path : CString) (createdNs : UInt64) : CgroupResolver :=
  CgroupWatcher.onEvent r (CgroupWatcher.emit stCgroupEventCreate id (some path.val) createdNs)

/-- Whatever the resolver held, the feed stores the attribution of the whole
path or nothing. -/
def Faithful (path : CString) : Prop :=
  ∀ (r : CgroupResolver) (id createdNs : UInt64), feedCreate r id path createdNs = r ∨
    ∃ attr, parseCgroupPath path.val = some attr ∧
      feedCreate r id path createdNs = { r with entries := r.entries.insert id { attr, createdNs } }

/-- The part of the path that fits the buffer beside its NUL. -/
def kept (path : Bytes) : Bytes := path.take (stCgroupPathLen - 1)

/-! ### Where byte 255 falls -/

/-- The path up to the last slash among its first 256 bytes: every segment in
it is kept whole. -/
def lead (path : Bytes) : Bytes := (path.take stCgroupPathLen).rdropWhile (· ≠ slash)

/-- The segments that are kept whole. -/
def front (path : Bytes) : List Bytes := segments (lead path)

/-- What is kept of the segment that is cut in two; empty where the cut falls
between two segments. -/
def stub (path : Bytes) : Bytes := (kept path).drop (lead path).length

/-- The segments that are not kept whole: the one cut in two and all behind
it, as the path has them. -/
def behind (path : Bytes) : List Bytes := segments (path.drop (lead path).length)

/-- No job, no step and no task. -/
def Unnamed (segs : List Bytes) : Prop :=
  Absent JobSegment segs ∧ Absent StepSegment segs ∧ Absent TaskSegment segs

/-- The segments name nothing, or their last job, step or task (a task, or a
step with what follows it, or a job with what follows it) is the one in
`said`. -/
inductive Repeats (said : Attribution) (segs : List Bytes) : Prop
  | nothing (unnamed : Unnamed segs)
  | task {k : UInt32} {rest : List Bytes} (noJob : Absent JobSegment segs) (noStep : Absent StepSegment segs)
      (last : Last TaskSegment segs k rest) (same : said.taskId = some k)
  | step {rest : List Bytes} (noJob : Absent JobSegment segs) (last : Last StepSegment segs said.stepId rest)
      (task : TaskIs rest said.taskId)
  | job (all : Means segs said)

/-- Byte 255 falls behind every segment that decides: what is left of the one
it cuts in two is no job, step or task, and neither is that one as it was, nor
any behind it. -/
def CutBehind (path : Bytes) : Prop := Unnamed (segments (stub path)) ∧ Unnamed (behind path)

/-- Byte 255 falls inside or before a segment that decides, and the same is
named on both sides: by the segments kept whole, with nothing else in the
stub or in what is lost; or by the stub alone, and again by what is lost. -/
inductive CutRepeated (path : Bytes) : Prop
  | whole {said : Attribution} (before : Means (front path) said) (left : Repeats said (segments (stub path)))
      (again : Repeats said (behind path))
  | job {n : UInt32} (left : JobSegment (stub path) n) (again : Means (behind path) { jobId := n })
  | step {said : Attribution} {text : Bytes} (before : Means (front path) said)
      (left : StepSegment (stub path) text) (named : ¬ Unnamed (behind path))
      (again : Repeats { said with stepId := text, taskId := none } (behind path))
  | task {said : Attribution} {k : UInt32} (before : Means (front path) said)
      (left : TaskSegment (stub path) k) (named : ¬ Unnamed (behind path))
      (again : Repeats { said with taskId := some k } (behind path))

/-- The path fits; or what fits has no job segment; or byte 255 falls behind
the segments that decide, or between two that name the same. -/
def CutHarmless (path : Bytes) : Prop :=
  path.length < stCgroupPathLen ∨ Absent JobSegment (segments (kept path)) ∨ CutBehind path ∨ CutRepeated path

/-! ### The feed parses what is kept -/

theorem delivered_kept (path : CString) : CgroupWatcher.delivered path.val = kept path.val := by
  have whole : path.val.takeWhile (· ≠ 0) = path.val := by
    rw [List.takeWhile_eq_self_iff]
    intro c member
    exact decide_eq_true fun zero : c = 0 => path.property (zero ▸ member)
  rw [CgroupWatcher.delivered_eq, whole]
  rfl

theorem feed_create_eq (r : CgroupResolver) (id : UInt64) (path : CString) (createdNs : UInt64) :
    feedCreate r id path createdNs = r.onCreated id (kept path.val) createdNs := by
  rw [feedCreate, CgroupWatcher.on_event_created, delivered_kept]

/-- The feed is right when the cut path is parsed as the whole one. -/
theorem faithful_iff_parses (path : CString) :
    Faithful path ↔ ∀ attr, parseCgroupPath (kept path.val) = some attr → parseCgroupPath path.val = some attr := by
  constructor
  · intro faithful attr parsed
    have stored : (feedCreate {} 0 path 0).entries.lookup 0 = some { attr } := by
      rw [feed_create_eq, lookup_on_created, if_pos rfl, parsed]
    rcases faithful {} 0 0 with unchanged | ⟨attr', whole, changed⟩
    · rw [unchanged] at stored
      cases stored
    · rw [changed, lookup_insert, if_pos rfl] at stored
      cases stored
      exact whole
  · intro agrees r id createdNs
    rw [feed_create_eq, onCreated]
    cases parsed : parseCgroupPath (kept path.val) with
    | none => exact .inl rfl
    | some attr => exact .inr ⟨attr, agrees attr parsed, rfl⟩

/-! ### The segments on either side of the cut -/

private theorem split_path_from_slash (part path rest : Bytes) :
    splitPathFrom part (path ++ slash :: rest) = splitPathFrom part path ++ splitPathFrom [] rest := by
  induction path generalizing part with
  | nil => by_cases empty : part = [] <;> simp [splitPathFrom, empty]
  | cons c path ih =>
    rw [List.cons_append, splitPathFrom, splitPathFrom]
    by_cases isSlash : c = slash
    · by_cases empty : part = [] <;> simp [isSlash, empty, ih]
    · rw [if_neg isSlash, if_neg isSlash, ih]

theorem segments_slash (path rest : Bytes) : segments (path ++ slash :: rest) = segments path ++ segments rest := by
  simp only [← split_path_eq, splitPath, split_path_from_slash]

@[simp] theorem segments_nil : segments [] = [] := by decide

/-- Segments that end at a slash are whole, whatever comes behind it. -/
theorem segments_ended {first : Bytes} (ended : first = [] ∨ ∃ path, first = path ++ [slash]) (rest : Bytes) :
    segments (first ++ rest) = segments first ++ segments rest := by
  rcases ended with rfl | ⟨path, rfl⟩
  · simp
  · have alone := segments_slash path []
    rw [segments_nil, List.append_nil] at alone
    rw [List.append_assoc, List.singleton_append, segments_slash, alone]

theorem lead_ended (path : Bytes) : lead path = [] ∨ ∃ first, lead path = first ++ [slash] := by
  by_cases none : lead path = []
  · exact .inl none
  · have last := List.rdropWhile_last_not (· ≠ slash) (path.take stCgroupPathLen) none
    have isSlash : (lead path).getLast none = slash := by simpa [lead] using last
    exact .inr ⟨(lead path).dropLast, by rw [← isSlash, List.dropLast_append_getLast]⟩

theorem lead_in_front (path : Bytes) : lead path <+: path :=
  (List.rdropWhile_prefix _ _).trans (List.take_prefix _ _)

theorem segments_path (path : Bytes) : segments path = front path ++ behind path := by
  obtain ⟨rest, whole⟩ := lead_in_front path
  have dropped : path.drop (lead path).length = rest := by
    calc path.drop (lead path).length
        = (lead path ++ rest).drop (lead path).length := by rw [whole]
      _ = rest := List.drop_left
  rw [front, behind, dropped, ← segments_ended (lead_ended path), whole]

theorem segments_kept (path : Bytes) : segments (kept path) = front path ++ segments (stub path) := by
  have within : (lead path).length ≤ stCgroupPathLen :=
    (List.rdropWhile_prefix _ _).length_le.trans (List.length_take_le _ _)
  by_cases inside : (lead path).length ≤ stCgroupPathLen - 1
  · have isPrefix : lead path <+: kept path := by
      rw [kept, List.prefix_take_iff]
      exact ⟨lead_in_front path, inside⟩
    obtain ⟨rest, whole⟩ := isPrefix
    have left : stub path = rest := by
      rw [stub, ← whole, List.drop_left]
    rw [front, left, ← segments_ended (lead_ended path), whole]
  · -- the 256th byte is a slash: what is kept ends right before it
    rcases lead_ended path with none | ⟨first, ends⟩
    · simp [none] at inside
    · have long : (lead path).length = first.length + 1 := by simp [ends]
      have isKept : kept path = first := by
        obtain ⟨rest, whole⟩ := lead_in_front path
        rw [kept, ← whole, ends, List.append_assoc, List.take_left' (by omega)]
      have nothing : stub path = [] := by
        rw [stub, isKept]
        exact List.drop_of_length_le (by omega)
      have alone := segments_slash first []
      rw [segments_nil, List.append_nil, ← ends] at alone
      rw [isKept, front, nothing, segments_nil, List.append_nil, alone]

/-- What is left of a segment cut in two is one segment. -/
theorem stub_segments (path : Bytes) (left : stub path ≠ []) : segments (stub path) = [stub path] := by
  have plain : slash ∉ stub path := by
    have after : (path.take stCgroupPathLen).drop (lead path).length =
        (path.take stCgroupPathLen).rtakeWhile (· ≠ slash) := by
      have whole : (path.take stCgroupPathLen).rdropWhile (· ≠ slash) ++ (path.take stCgroupPathLen).rtakeWhile (· ≠ slash) =
          path.take stCgroupPathLen := List.rdropWhile_append_rtakeWhile
      rw [lead]
      generalize (path.take stCgroupPathLen).rdropWhile (· ≠ slash) = first at whole ⊢
      generalize (path.take stCgroupPathLen).rtakeWhile (· ≠ slash) = last at whole ⊢
      rw [← whole, List.drop_left]
    have sub : stub path <+: (path.take stCgroupPathLen).drop (lead path).length := by
      have fewer : kept path = (path.take stCgroupPathLen).take (stCgroupPathLen - 1) := by
        rw [kept, List.take_take, Nat.min_eq_left (Nat.sub_le _ _)]
      rw [stub, fewer, List.drop_take]
      exact List.take_prefix _ _
    intro member
    have reached := sub.subset member
    rw [after] at reached
    simpa using List.mem_rtakeWhile_imp reached
  have one := AttributionProofs.split_path_string [stub path]
    (by simpa using And.intro left plain)
  have slashed := segments_slash [] (stub path)
  rw [segments_nil, List.nil_append, List.nil_append] at slashed
  rw [← slashed, ← split_path_eq]
  simpa [pathString] using one

/-! ### Reading on behind the segments kept whole -/

theorem step_not_job {seg text : Bytes} (step : StepSegment seg text) (n : UInt32) : ¬ JobSegment seg n := by
  obtain ⟨rfl, -⟩ := step
  rintro ⟨digits, same, -⟩
  exact absurd (congrArg List.head? same) (by simp [ascii])

theorem task_not_job {seg : Bytes} {k : UInt32} (task : TaskSegment seg k) (n : UInt32) : ¬ JobSegment seg n := by
  obtain ⟨digits, rfl, -⟩ := task
  rintro ⟨digits', same, -⟩
  exact absurd (congrArg List.head? same) (by simp [ascii])

theorem task_not_step {seg : Bytes} {k : UInt32} (task : TaskSegment seg k) (text : Bytes) :
    ¬ StepSegment seg text := by
  obtain ⟨digits, rfl, -⟩ := task
  rintro ⟨same, -⟩
  exact absurd (congrArg List.head? same) (by simp [ascii])

variable {whole more : List Bytes} {said attr : Attribution}

theorem means_later (all : Means more attr) : Means (whole ++ more) attr := by
  obtain ⟨ofJob, ofStep, job, step, task⟩ := all
  exact ⟨ofJob, ofStep, last_append.mpr (.inl job), step, task⟩

/-- Reading on without a job segment: the job stays, the step and the task are
looked for in what follows it on both sides. -/
theorem means_append_iff :
    Means (whole ++ more) attr ↔
      Means more attr ∨ Absent JobSegment more ∧ ∃ ofJob ofStep, Last JobSegment whole attr.jobId ofJob ∧
        StepIs (ofJob ++ more) attr.stepId ofStep ∧ TaskIs ofStep attr.taskId := by
  constructor
  · rintro ⟨ofJob, ofStep, job, step, task⟩
    rcases last_append.mp job with later | ⟨noJob, rest, earlier, rfl⟩
    · exact .inl ⟨ofJob, ofStep, later, step, task⟩
    · exact .inr ⟨noJob, rest, ofStep, earlier, step, task⟩
  · rintro (all | ⟨noJob, ofJob, ofStep, job, step, task⟩)
    · exact means_later all
    · exact ⟨ofJob ++ more, ofStep, last_append.mpr (.inr ⟨noJob, ofJob, job, rfl⟩), step, task⟩

theorem step_is_append_iff {text : Bytes} {rest : List Bytes} :
    StepIs (whole ++ more) text rest ↔
      Last StepSegment more text rest ∨
        Absent StepSegment more ∧ ∃ first, StepIs whole text first ∧ rest = first ++ more := by
  constructor
  · rintro (⟨quiet, rfl, rfl⟩ | last)
    · obtain ⟨quietWhole, quietMore⟩ := absent_append.mp quiet
      exact .inr ⟨quietMore, whole, .inl ⟨quietWhole, rfl, rfl⟩, rfl⟩
    · rcases last_append.mp last with later | ⟨quietMore, first, earlier, rfl⟩
      · exact .inl later
      · exact .inr ⟨quietMore, first, .inr earlier, rfl⟩
  · rintro (last | ⟨quietMore, first, ⟨quiet, rfl, rfl⟩ | last, rfl⟩)
    · exact .inr (last_append.mpr (.inl last))
    · exact .inl ⟨absent_append.mpr ⟨quiet, quietMore⟩, rfl, rfl⟩
    · exact .inr (last_append.mpr (.inr ⟨quietMore, first, last, rfl⟩))

theorem task_is_append_iff {task : Option UInt32} :
    TaskIs (whole ++ more) task ↔
      (∃ k rest, task = some k ∧ Last TaskSegment more k rest) ∨ Absent TaskSegment more ∧ TaskIs whole task := by
  cases task with
  | none => simp [TaskIs, absent_append, and_comm]
  | some k =>
    simp only [TaskIs, last_append, Option.some.injEq, exists_or]
    constructor
    · rintro (⟨rest, last⟩ | ⟨-, quiet, first, last, rfl⟩)
      · exact .inl ⟨k, rest, rfl, last⟩
      · exact .inr ⟨quiet, first, last⟩
    · rintro (⟨k, rest, rfl, last⟩ | ⟨quiet, first, last⟩)
      · exact .inl ⟨rest, last⟩
      · exact .inr ⟨_, quiet, first, last, rfl⟩

/-- What is read last repeats the outcome. -/
theorem repeats_of_means (all : Means (whole ++ more) attr) : Repeats attr more := by
  rcases means_append_iff.mp all with all | ⟨noJob, ofJob, ofStep, -, step, task⟩
  · exact .job all
  · rcases step_is_append_iff.mp step with last | ⟨noStep, first, -, rfl⟩
    · exact .step noJob last task
    · rcases task_is_append_iff.mp task with ⟨k, rest, same, last⟩ | ⟨noTask, -⟩
      · exact .task noJob noStep last same
      · exact .nothing ⟨noJob, noStep, noTask⟩

theorem means_unnamed (unnamed : Unnamed more) : Means (whole ++ more) attr ↔ Means whole attr := by
  obtain ⟨noJob, noStep, noTask⟩ := unnamed
  rw [means_append_iff]
  constructor
  · rintro (⟨ofJob, -, job, -⟩ | ⟨-, ofJob, ofStep, job, step, task⟩)
    · exact absurd noJob (last_not_absent job)
    · rcases step_is_append_iff.mp step with last | ⟨-, first, is, rfl⟩
      · exact absurd noStep (last_not_absent last)
      · rcases task_is_append_iff.mp task with ⟨k, rest, -, last⟩ | ⟨-, task⟩
        · exact absurd noTask (last_not_absent last)
        · exact ⟨ofJob, first, job, is, task⟩
  · rintro ⟨ofJob, ofStep, job, step, task⟩
    exact .inr ⟨noJob, ofJob, ofStep ++ more, job, step_is_append_iff.mpr (.inr ⟨noStep, ofStep, step, rfl⟩),
      task_is_append_iff.mpr (.inr ⟨noTask, task⟩)⟩

/-- What names something, and nothing but what is in `attr`, leads there from
any segments of the same job, and for a task of the same step too. -/
theorem means_renamed (before : Means whole said) (sameJob : attr.jobId = said.jobId)
    (sameStep : attr.taskId = none ∨ attr.stepId = said.stepId) (named : ¬ Unnamed more)
    (again : Repeats attr more) : Means (whole ++ more) attr := by
  obtain ⟨ofJob, ofStep, job, step, task⟩ := before
  rw [← sameJob] at job
  cases again with
  | nothing unnamed => exact absurd unnamed named
  | job all => exact means_later all
  | step noJob last task =>
    exact means_append_iff.mpr (.inr ⟨noJob, ofJob, _, job, step_is_append_iff.mpr (.inl last), task⟩)
  | @task k rest noJob noStep last same =>
    have sameStep := sameStep.resolve_left (by rw [same]; exact Option.some_ne_none k)
    rw [← sameStep] at step
    exact means_append_iff.mpr (.inr ⟨noJob, ofJob, _, job,
      step_is_append_iff.mpr (.inr ⟨noStep, ofStep, step, rfl⟩), task_is_append_iff.mpr (.inl ⟨k, rest, same, last⟩)⟩)

theorem means_repeated (before : Means whole said) (again : Repeats said more) : Means (whole ++ more) said := by
  by_cases unnamed : Unnamed more
  · exact (means_unnamed unnamed).mpr before
  · exact means_renamed before rfl (.inr rfl) unnamed again

/-! ### The claim about a cut -/

theorem empty_unnamed : Unnamed [[]] := by
  simp [Unnamed, Absent, JobSegment, StepSegment, TaskSegment, Numbered, ascii]

theorem not_unnamed_stub {path : Bytes} (named : ¬ Unnamed [stub path]) : segments (stub path) = [stub path] :=
  stub_segments path fun empty => named (by rw [empty]; exact empty_unnamed)

/-- Where a job lies among the segments kept whole, these mean something. -/
theorem front_means {path : Bytes} (left : ∀ n, ¬ JobSegment (stub path) n)
    (cut : Means (front path ++ [stub path]) attr) : ∃ said, Means (front path) said := by
  rcases means_append_iff.mp cut with ⟨ofJob, -, job, -⟩ | ⟨-, ofJob, -, job, -⟩
  · exact absurd (absent_singleton.mpr left) (last_not_absent job)
  · cases parsed : parseCgroupPath (lead path) with
    | none => exact absurd ((parse_none_absent _).mp parsed) (last_not_absent job)
    | some said => exact ⟨said, parse_means parsed⟩

/-- The stub says something and so do the lost segments. -/
theorem cut_repeated {path : Bytes} (cut : Means (front path ++ [stub path]) attr) (quiet : ¬ Unnamed [stub path])
    (named : ¬ Unnamed (behind path)) (again : Repeats attr (behind path)) : CutRepeated path := by
  by_cases job : ∃ n, JobSegment (stub path) n
  · obtain ⟨n, left⟩ := job
    cases means_unique cut (means_job (front path) left)
    cases again with
    | nothing unnamed => exact absurd unnamed named
    | task _ _ _ same => cases same
    | step _ last =>
      obtain ⟨-, -, -, ⟨-, nonempty⟩, -⟩ := last
      exact absurd rfl nonempty
    | job all => exact .job left all
  · have notJob := not_exists.mp job
    obtain ⟨said, before⟩ := front_means notJob cut
    by_cases step : ∃ text, StepSegment (stub path) text
    · obtain ⟨text, left⟩ := step
      cases means_unique cut (means_step before notJob left)
      exact .step before left named again
    · have notStep := not_exists.mp step
      by_cases task : ∃ k, TaskSegment (stub path) k
      · obtain ⟨k, left⟩ := task
        cases means_unique cut (means_task before notJob notStep left)
        exact .task before left named again
      · have notTask := not_exists.mp task
        exact absurd ⟨absent_singleton.mpr notJob, absent_singleton.mpr notStep, absent_singleton.mpr notTask⟩ quiet

theorem repeated_same {path : Bytes} (repeated : CutRepeated path) :
    ∃ attr, Means (front path ++ segments (stub path)) attr ∧ Means (front path ++ behind path) attr := by
  have single (named : ¬ Unnamed [stub path]) := not_unnamed_stub named
  cases repeated with
  | @whole said before left again => exact ⟨said, means_repeated before left, means_repeated before again⟩
  | @job n left again =>
    rw [single fun quiet => quiet.1 _ (by simp) n left]
    exact ⟨_, means_job _ left, means_later again⟩
  | @step said text before left named again =>
    rw [single fun quiet => quiet.2.1 _ (by simp) text left]
    exact ⟨_, means_step before (step_not_job left) left, means_renamed before rfl (.inl rfl) named again⟩
  | @task said k before left named again =>
    rw [single fun quiet => quiet.2.2 _ (by simp) k left]
    exact ⟨_, means_task before (task_not_job left) (task_not_step left) left,
      means_renamed before rfl (.inr rfl) named again⟩

/-- Two sides that name the same: byte 255 falls behind what decides, or
between two that agree. -/
theorem same_placed {path : Bytes} (cut : Means (front path ++ segments (stub path)) attr)
    (uncut : Means (front path ++ behind path) attr) : CutBehind path ∨ CutRepeated path := by
  have left := repeats_of_means cut
  have again := repeats_of_means uncut
  by_cases quiet : Unnamed (segments (stub path))
  · by_cases unnamed : Unnamed (behind path)
    · exact .inl ⟨quiet, unnamed⟩
    · exact .inr (.whole ((means_unnamed quiet).mp cut) left again)
  · by_cases unnamed : Unnamed (behind path)
    · exact .inr (.whole ((means_unnamed unnamed).mp uncut) left again)
    · have single : segments (stub path) = [stub path] :=
        stub_segments path fun empty => quiet (by simp [empty, Unnamed, absent_nil])
      rw [single] at cut quiet
      exact .inr (cut_repeated cut quiet unnamed again)

/-- Where byte 255 falls harmlessly, what the kept part says the path says. -/
theorem placed_same {path : Bytes} (placed : CutBehind path ∨ CutRepeated path)
    (cut : Means (front path ++ segments (stub path)) attr) : Means (front path ++ behind path) attr := by
  rcases placed with ⟨quiet, unnamed⟩ | repeated
  · exact (means_unnamed unnamed).mpr ((means_unnamed quiet).mp cut)
  · obtain ⟨attr', cut', uncut⟩ := repeated_same repeated
    cases means_unique cut cut'
    exact uncut

/-- The feed stores the whole path's attribution, or none, exactly for the
paths whose cut is harmless. -/
theorem faithful_iff_cut_harmless (path : CString) : Faithful path ↔ CutHarmless path.val := by
  rw [faithful_iff_parses]
  constructor
  · intro agrees
    cases parsed : parseCgroupPath (kept path.val) with
    | none => exact .inr (.inl ((parse_none_absent _).mp parsed))
    | some attr =>
      have cut := parse_means parsed
      have uncut := parse_means (agrees attr parsed)
      rw [segments_kept] at cut
      rw [segments_path] at uncut
      exact .inr (.inr (same_placed cut uncut))
  · rintro (fits | noJob | placed) attr parsed
    · have short : path.val.length ≤ stCgroupPathLen - 1 := Nat.le_pred_of_lt fits
      rwa [kept, List.take_of_length_le short] at parsed
    · rw [(parse_none_absent _).mpr noJob] at parsed
      cases parsed
    · have cut := parse_means parsed
      rw [segments_kept] at cut
      rw [parse_some_means, segments_path]
      exact placed_same placed cut

/-! ### A job number cut in two -/

/-- A cgroup of job 123, under a directory with a long name: 256 bytes. -/
def longPath : CString :=
  ⟨pathString [List.replicate 247 97, ascii "job_123"], by decide +kernel⟩

/-- It is stored as job 12. -/
theorem long_path_misattributed : ¬ ∀ path, Faithful path := by
  intro faithful
  have cut : parseCgroupPath (kept longPath.val) = some { jobId := 12 } := by decide +kernel
  have whole : parseCgroupPath longPath.val = some { jobId := 123 } := by decide +kernel
  have stored := (faithful_iff_parses longPath).mp (faithful longPath) _ cut
  rw [whole] at stored
  cases stored

end SlurmTracer.TruncatedPaths
