import SlurmTracer.Core.Rings
import SlurmTracer.Core.Serialise
import SlurmTracer.PipelineDelivery

/-!
What a worker makes of a batch: one JSON object a line, in order, but only of
strings that are UTF-8 (`serialises_iff`). The command name, the user's name and
the step's directory name are whatever bytes the node has.
-/
namespace SlurmTracer.JsonLines
open SlurmTracer.Core Lib Lib.Json Lib.Utf8 PipelineDelivery

/-- One line for each record, in order, each a JSON object. -/
def OneLineEach (batch : List Record) (text : Bytes) : Prop :=
  ∃ lines : List Bytes, text = lines.flatMap (· ++ [newline]) ∧
    List.Forall₂ (fun r line => Text (.object r.json) line ∧ newline ∉ line) batch lines

/-- No exception escapes, and the text is as promised. -/
def Serialises (write : List Record → Option Bytes) (batch : List Record) : Prop :=
  ∃ text, write batch = some text ∧ OneLineEach batch text

/-- What the emitter of a probe's instance hands to the pipeline. -/
def FromProbe (r : Record) : Prop :=
  ∃ e id translated, ProbeEvent.translate e = some translated ∧ r = Emitter.stamp (.instance id) translated

/-- The strings that are not constants of a probe's code are UTF-8: three from
the config, and three the node comes up with. -/
structure Foreign (r : Record) : Prop where
  node : WellFormed r.node
  cluster : WellFormed r.cluster
  probe : WellFormed r.probe
  comm : WellFormed r.comm
  user : ∀ user, r.user = some user → WellFormed user
  stepId : ∀ stepId, r.stepId = some stepId → WellFormed stepId

/-! ### The loop -/

variable {dump : Value → Option Bytes} {batch : List Record} {r : Record}

theorem lines_shape (out text : Bytes)
    (ran : batch.foldlM (fun out r => (toJson dump r).map fun line => out ++ line ++ [newline]) out = some text) :
    ∃ lines : List Bytes, text = out ++ lines.flatMap (· ++ [newline]) ∧
      List.Forall₂ (fun r line => toJson dump r = some line) batch lines := by
  induction batch generalizing out with
  | nil =>
    cases ran
    exact ⟨[], by simp, .nil⟩
  | cons r batch ih =>
    rw [List.foldlM_cons, Option.bind_eq_bind, Option.bind_eq_some_iff] at ran
    obtain ⟨next, first, later⟩ := ran
    obtain ⟨line, written, rfl⟩ := Option.map_eq_some_iff.mp first
    obtain ⟨lines, shape, each⟩ := ih _ later
    exact ⟨line :: lines, by simp [shape], .cons written each⟩

private theorem lines_throw (out : Bytes) :
    batch.foldlM (fun out r => (toJson dump r).map fun line => out ++ line ++ [newline]) out = none ↔
      ∃ r ∈ batch, toJson dump r = none := by
  induction batch generalizing out with
  | nil => simp
  | cons r batch ih =>
    rw [List.foldlM_cons]
    cases written : toJson dump r with
    | none => simp [written]
    | some line =>
      simp only [Option.map_some, Option.bind_eq_bind, Option.bind_some, ih]
      simp [written]

/-- The loop gets through exactly the batches without a foreign string that is
not UTF-8, and then writes one line for each record. -/
theorem json_lines_iff (strict : Strict dump) :
    Serialises (jsonLines dump) batch ↔ ∀ r ∈ batch, ∀ s ∈ r.json.strings, WellFormed s := by
  have throws : ∀ r, toJson dump r = none ↔ ∃ s ∈ r.json.strings, ¬ WellFormed s := by
    intro r
    rw [toJson, strict.throws, Value.strings]
  constructor
  · rintro ⟨text, written, _⟩ r member s held
    by_contra bad
    have threw : jsonLines dump batch = none :=
      (lines_throw []).mpr ⟨r, member, (throws r).mpr ⟨s, held, bad⟩⟩
    rw [threw] at written
    cases written
  · intro clean
    cases written : jsonLines dump batch with
    | none =>
      obtain ⟨r, member, threw⟩ := (lines_throw []).mp written
      obtain ⟨s, held, bad⟩ := (throws r).mp threw
      exact absurd (clean r member s held) bad
    | some text =>
      obtain ⟨lines, shape, each⟩ := lines_shape [] text written
      refine ⟨text, written, lines, by simpa using shape, each.imp fun r line written => ?_⟩
      have isText := strict.writes _ _ written
      exact ⟨isText, text_single_line isText⟩

/-! ### The strings of a record -/

private theorem opt_string_strings (s : Option Bytes) : (opt Value.string s).strings = s.toList := by
  cases s <;> simp [opt, Value.strings]

private theorem opt_unsigned_strings (n : Option UInt32) :
    (opt (fun n => Value.unsigned n.toNat) n).strings = [] := by
  cases n <;> simp [opt, Value.strings]

/-- The object has its twenty members, whatever the record. -/
theorem json_strings (r : Record) :
    r.json.strings = r.assignments.flatMap fun entry => entry.1 :: entry.2.strings :=
  Members.assign_strings r.assignments (by
    have keys : r.assignments.map Prod.fst = (Record.assignments {}).map Prod.fst := rfl
    rw [keys]
    decide)

/-- Every key of the fixed key set is ASCII. -/
private theorem keys_well_formed (r : Record) : ∀ entry ∈ r.assignments, WellFormed entry.1 := by
  have keys : r.assignments.map Prod.fst = (Record.assignments {}).map Prod.fst := rfl
  have clean : ∀ key ∈ (Record.assignments {}).map Prod.fst, WellFormed key := by decide
  intro entry member
  exact clean entry.1 (keys ▸ List.mem_map_of_mem member)

private theorem clean_iff (r : Record) :
    (∀ s ∈ r.json.strings, WellFormed s) ↔ ∀ entry ∈ r.assignments, ∀ s ∈ entry.2.strings, WellFormed s := by
  rw [json_strings]
  constructor
  · intro clean entry member s held
    exact clean s (List.mem_flatMap.mpr ⟨entry, member, List.mem_cons_of_mem _ held⟩)
  · intro clean s held
    obtain ⟨entry, member, held⟩ := List.mem_flatMap.mp held
    rcases List.mem_cons.mp held with rfl | held
    · exact keys_well_formed r entry member
    · exact clean entry member s held

/-- The strings that are constants of a probe's code, or never set. -/
structure Own (r : Record) : Prop where
  account : r.account = none
  partition : r.partition = none
  eventType : WellFormed r.eventType
  metric : WellFormed r.metric
  unit : WellFormed r.unit
  attrs : ∀ s ∈ r.attrsJson.strings, WellFormed s

/-- Whether a record can be written is up to its foreign strings. -/
theorem clean_iff_foreign (own : Own r) : (∀ s ∈ r.json.strings, WellFormed s) ↔ Foreign r := by
  rw [clean_iff]
  constructor
  · intro clean
    constructor
    · exact clean (ascii "node", .string r.node) (by simp [Record.assignments]) r.node (by simp [Value.strings])
    · exact clean (ascii "cluster", .string r.cluster) (by simp [Record.assignments]) r.cluster
        (by simp [Value.strings])
    · exact clean (ascii "probe", .string r.probe) (by simp [Record.assignments]) r.probe (by simp [Value.strings])
    · exact clean (ascii "comm", .string r.comm) (by simp [Record.assignments]) r.comm (by simp [Value.strings])
    · intro user held
      apply clean (ascii "user", opt .string r.user) (by simp [Record.assignments]) user
      simp [opt_string_strings, held]
    · intro stepId held
      apply clean (ascii "step_id", opt .string r.stepId) (by simp [Record.assignments]) stepId
      simp [opt_string_strings, held]
  · intro foreign
    simp only [Record.assignments, List.forall_mem_cons, List.not_mem_nil, Value.strings, opt_string_strings,
      opt_unsigned_strings, own.account, own.partition, Option.toList_none, Option.mem_toList, List.mem_singleton,
      forall_eq, false_imp_iff, implies_true, true_and]
    exact ⟨foreign.node, foreign.cluster, foreign.probe, foreign.stepId, foreign.user, own.eventType, foreign.comm,
      own.metric, own.unit, own.attrs⟩

/-! ### What reaches a sink -/

private theorem to_decimal_ascii (n : Nat) : WellFormed (toDecimal n) := by
  apply well_formed_ascii
  intro c member
  have digit := to_decimal_digits n c member
  simp only [isDigit, Bool.and_eq_true, decide_eq_true_eq] at digit
  exact UInt8.lt_of_le_of_lt digit.2 (by decide)

/-- Enrichment fills in the config's names, the user and the attribution. -/
theorem enrich_fields (p : Pipeline) (s : Surroundings) (r : Record) :
    ∃ tsNs user jobId stepId taskId, (p.enrich s r).1 =
      { r with tsNs, node := p.opt.node, cluster := p.opt.cluster, user, jobId, stepId, taskId } := by
  have named : ∀ r : Record, ∃ user, (p.enrichUser s.passwd r).1 = { r with user } := by
    intro r
    unfold Pipeline.enrichUser
    split
    · exact ⟨r.user, rfl⟩
    · split
      · exact ⟨_, rfl⟩
      · exact ⟨r.user, rfl⟩
  unfold Pipeline.enrich
  simp only
  obtain ⟨user, same⟩ :=
    named { r with tsNs := r.tsNs + s.bootOffsetNs, node := p.opt.node, cluster := p.opt.cluster }
  rw [same]
  split
  · exact ⟨_, user, _, _, _, rfl⟩
  · exact ⟨_, user, r.jobId, r.stepId, r.taskId, rfl⟩

/-- A probe's record brings the probe's own constants; only the command name is
the node's. -/
theorem translate_own {e : ProbeEvent} {translated : Record} (translates : e.translate = some translated) :
    translated.account = none ∧ translated.partition = none ∧ WellFormed translated.eventType ∧
      WellFormed translated.metric ∧ WellFormed translated.unit ∧
      ∀ s ∈ translated.attrsJson.strings, WellFormed s := by
  have noAttrs : ∀ s ∈ Members.strings (Members.assign []), WellFormed s := by
    simp [Members.assign, Members.strings]
  cases e with
  | procLifecycle e =>
    simp only [ProbeEvent.translate, ProcLifecycle.translate] at translates
    split at translates
    · cases translates
      have texts : WellFormed (ascii "exec") ∧ WellFormed (ascii "proc.exec") ∧ WellFormed (ascii "count") := by
        decide
      exact ⟨rfl, rfl, texts.1, texts.2.1, texts.2.2, noAttrs⟩
    · split at translates
      · cases translates
        have texts :
            WellFormed (ascii "exit") ∧ WellFormed (ascii "proc.exit") ∧ WellFormed (ascii "exit_status") := by
          decide
        refine ⟨rfl, rfl, texts.1, texts.2.1, texts.2.2, ?_⟩
        simp only [Record.attrsJson]
        split
        · have signal : WellFormed (ascii "signal") := by decide
          simpa [Members.assign, Members.set, Members.strings, Value.strings] using ⟨signal, to_decimal_ascii _⟩
        · exact noAttrs
      · cases translates
  | oom e =>
    simp only [ProbeEvent.translate, Oom.translate] at translates
    split at translates
    · cases translates
      have texts : WellFormed (ascii "oom_kill") ∧ WellFormed (ascii "oom.kill") ∧ WellFormed (ascii "count") := by
        decide
      exact ⟨rfl, rfl, texts.1, texts.2.1, texts.2.2, noAttrs⟩
    · cases translates

theorem enrich_own {p : Pipeline} {s : Surroundings} (fromProbe : FromProbe r) : Own (p.enrich s r).1 := by
  obtain ⟨tsNs, user, jobId, stepId, taskId, fields⟩ := enrich_fields p s r
  obtain ⟨e, id, translated, translates, rfl⟩ := fromProbe
  obtain ⟨account, partition, eventType, metric, unit, attrs⟩ := translate_own translates
  rw [fields]
  exact ⟨account, partition, eventType, metric, unit, attrs⟩

/-- Everything enriched in a run came in through `emit`. -/
theorem enriched_from {p : Pipeline} {wired : SinkList} {ops : List Op}
    (member : r ∈ enriched (run p wired ops)) :
    ∃ p' s r', Op.emit s r' ∈ ops ∧ r = (Pipeline.enrich p' s r').1 := by
  induction ops generalizing p wired with
  | nil => simp [run, enriched] at member
  | cons op ops ih =>
    simp only [run, enriched, List.flatMap_cons, List.mem_append] at member
    rcases member with now | later
    · cases op with
      | emit s r' =>
        rw [call, List.mem_singleton] at now
        exact ⟨p, s, r', List.mem_cons_self, now⟩
      | tick now_ => simp [call] at now
      | flush now_ => simp [call] at now
      | setSinks sinks => simp [call] at now
    · obtain ⟨p', s, r', there, same⟩ := ih later
      exact ⟨p', s, r', List.mem_cons_of_mem _ there, same⟩

/-- Every record of a shipped batch is one that was enriched. -/
theorem shipped_enriched {p : Pipeline} {wired : SinkList} {ops : List Op} (same : p.sinks = wired.val)
    (empty : p.batch = []) (handed : batch ∈ shipped (run p wired ops)) (member : r ∈ batch) :
    r ∈ enriched (run p wired ops) := by
  have below : p.batch.length < max 1 p.opt.batchSize.toNat := by
    rw [empty, List.length_nil]
    omega
  have inOrder := (delivers_from same below ops).1
  rw [empty, List.nil_append] at inOrder
  rw [← inOrder]
  exact List.mem_append_left _ (List.mem_flatten.mpr ⟨batch, handed, member⟩)

/-- A batch the pipeline ships is written out by either worker, as one JSON
object a line, exactly when its foreign strings are UTF-8. -/
theorem serialises_iff (dump : Value → Option Bytes) (strict : Strict dump) (opt : PipelineOptions) (sinks : SinkList)
    (now : Int64) (ops : List Op) (probes : ∀ s r, Op.emit s r ∈ ops → FromProbe r) (batch : List Record)
    (handed : batch ∈ shipped (run (.new opt sinks.val now) sinks ops)) :
    (Serialises (StdoutJsonSink.out dump) batch ∧ Serialises (HttpSink.body dump) batch) ↔
      ∀ r ∈ batch, Foreign r := by
  have foreign : Serialises (jsonLines dump) batch ↔ ∀ r ∈ batch, Foreign r := by
    rw [json_lines_iff strict]
    refine forall₂_congr fun r member => clean_iff_foreign ?_
    obtain ⟨p, s, r', emitted, rfl⟩ := enriched_from (shipped_enriched rfl rfl handed member)
    exact enrich_own (probes s r' emitted)
  change Serialises (jsonLines dump) batch ∧ Serialises (jsonLines dump) batch ↔ _
  rw [and_self, foreign]

/-! ### One exec -/

/-- An exec of a process with this name. -/
def execOf (comm : Bytes) : ProbeEvent :=
  .procLifecycle ⟨{ tsNs := 5, cgroupId := 7, type := 1, pid := 10, tid := 10, uid := 0 }, 0, comm⟩

/-- The record its probe emits. -/
def emitted (comm : Bytes) : Record :=
  Emitter.stamp (.instance (ascii "proc")) ((execOf comm).translate.getD {})

/-- No attribution, no user, no offset. -/
def bare : Surroundings := ⟨{}, 0, .notFound⟩

/-- A pipeline that ships record by record. -/
def eachAlone : PipelineOptions := { node := ascii "node1", cluster := ascii "c1", batchSize := 1 }

/-- The batch an exec makes. -/
def batchOf (comm : Bytes) : List Record := [((Pipeline.new eachAlone [] 0).enrich bare (emitted comm)).1]

private theorem emitted_from_probe (comm : Bytes) :
    ∀ s r, Op.emit s r ∈ [Op.emit bare (emitted comm)] → FromProbe r := by
  intro s r member
  rw [List.mem_singleton] at member
  cases member
  exact ⟨execOf comm, ascii "proc", _, rfl, rfl⟩

theorem serialises_iff_ascii_name :
    Serialises (StdoutJsonSink.out Json.dump) (batchOf (ascii "bash")) ∧
      Serialises (HttpSink.body Json.dump) (batchOf (ascii "bash")) := by
  refine (serialises_iff Json.dump dump_strict eachAlone ⟨[], List.nodup_nil⟩ 0
    [.emit bare (emitted (ascii "bash"))] (emitted_from_probe _)
    (batchOf (ascii "bash")) (by decide)).mpr fun r member => ?_
  rw [batchOf, List.mem_singleton] at member
  have noUser : r.user = none := by
    rw [member]
    decide
  have noStep : r.stepId = none := by
    rw [member]
    decide
  exact ⟨by rw [member]; decide, by rw [member]; decide, by rw [member]; decide, by rw [member]; decide,
    by simp [noUser], by simp [noStep]⟩

/-- A process renamed to one stray byte takes the worker down. -/
theorem stray_byte_escapes :
    ¬ ∀ dump, Strict dump → ∀ opt (sinks : SinkList) now ops, WellFormed opt.node ∧ WellFormed opt.cluster →
      (∀ s r, Op.emit s r ∈ ops → FromProbe r) → ∀ batch ∈ shipped (run (.new opt sinks.val now) sinks ops),
        Serialises (StdoutJsonSink.out dump) batch ∧ Serialises (HttpSink.body dump) batch := by
  intro promise
  have both := promise Json.dump dump_strict eachAlone ⟨[], List.nodup_nil⟩ 0 [.emit bare (emitted [0xFF])]
    ⟨by decide, by decide⟩ (emitted_from_probe _) (batchOf [0xFF]) (by decide)
  have clean := (json_lines_iff dump_strict).mp both.1
  have comm : WellFormed [0xFF] := clean _ List.mem_cons_self [0xFF] (by decide)
  revert comm
  decide

end SlurmTracer.JsonLines
