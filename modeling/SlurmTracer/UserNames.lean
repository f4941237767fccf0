import SlurmTracer.Lib.Keyed
import SlurmTracer.PipelineDelivery

/-!
The user names records leave with. The cache keeps the first answer it ever got
for a uid, and an error of the name service is kept like the absence of an
entry: a uid has its name exactly where the first call for it was answered
(`named_iff_first_answered`).
-/
namespace SlurmTracer.UserNames
open SlurmTracer.Core Lib Core.Pipeline PipelineDelivery

/-- The answers a `getpwuid_r` call for the uid would get, one for each record
emitted with it. -/
def asked (uid : UInt32) (ops : List Op) : List PasswdReply :=
  ops.filterMap fun
    | .emit s r => if r.uid = some uid then some s.passwd else none
    | .tick _ | .flush _ | .setSinks _ => none

/-- The uid has this name in the passwd database, and every call that is
answered says so. -/
def HasEntry (uid : UInt32) (name : Bytes) (ops : List Op) : Prop :=
  name ≠ [] ∧ ∀ reply ∈ asked uid ops, reply ≠ .failed → reply = .found name

/-- Whenever a call for the uid would be answered, its record carries the
name. -/
def Named (p : Pipeline) (uid : UInt32) (name : Bytes) (ops : List Op) : Prop :=
  ∀ before s r later, ops = before ++ .emit s r :: later → r.uid = some uid → s.passwd ≠ .failed →
    ((final p before).enrich s r).1.user = some name

/-- Up to each such record the first call for the uid had not failed, or the
record came with the name. -/
def FirstAnswered (uid : UInt32) (name : Bytes) (ops : List Op) : Prop :=
  ∀ before s r later, ops = before ++ .emit s r :: later → r.uid = some uid → s.passwd ≠ .failed →
    (asked uid before).head? ≠ some .failed ∨ r.user = some name

/-- What `lookup_user` stores for an answer. -/
def cachedName : PasswdReply → Bytes
  | .found name => name
  | .notFound | .failed => []

variable {p : Pipeline} {uid : UInt32} {name : Bytes}

/-! ### One lookup -/

theorem lookup_user_fst (p : Pipeline) (uid : UInt32) (passwd : PasswdReply) :
    (p.lookupUser uid passwd).1 =
      let name := p.userCache[uid]?.getD (cachedName passwd)
      if name = [] then none else some name := by
  unfold lookupUser
  cases p.userCache[uid]? with
  | some name => rfl
  | none => cases passwd <;> rfl

theorem lookup_user_cache (p : Pipeline) (uid other : UInt32) (passwd : PasswdReply) :
    (p.lookupUser uid passwd).2.userCache[other]? =
      p.userCache[other]?.or (if other = uid then some (cachedName passwd) else none) := by
  unfold lookupUser
  by_cases same : other = uid
  · subst same
    cases held : p.userCache[other]? with
    | some name => simp [held]
    | none => cases passwd <;> simp [cachedName]
  · cases held : p.userCache[uid]? with
    | some name => simp [same]
    | none => simp [same, Keyed.lookup_after_insert]

theorem enrich_user_fst (p : Pipeline) (passwd : PasswdReply) {r : Record} (asks : r.uid = some uid) :
    (p.enrichUser passwd r).1.user = (p.lookupUser uid passwd).1.or r.user := by
  unfold enrichUser
  rw [asks]
  dsimp only
  split <;> rename_i came <;> rw [came] <;> rfl

theorem enrich_user_cache (p : Pipeline) (passwd : PasswdReply) (r : Record) (uid : UInt32) :
    (p.enrichUser passwd r).2.userCache[uid]? =
      p.userCache[uid]?.or (if r.uid = some uid then some (cachedName passwd) else none) := by
  unfold enrichUser
  cases r.uid with
  | none => simp
  | some other =>
    have looked := lookup_user_cache p other uid passwd
    simp only [Option.some.injEq, eq_comm (a := other)]
    rw [← looked]
    split <;> rename_i came <;> rw [came]

/-! ### One call -/

/-- A record as `enrich` hands it to the user lookup. -/
def stamp (p : Pipeline) (s : Surroundings) (r : Record) : Record :=
  { r with tsNs := r.tsNs + s.bootOffsetNs, node := p.opt.node, cluster := p.opt.cluster }

theorem enrich_user (p : Pipeline) (s : Surroundings) {r : Record} (asks : r.uid = some uid) :
    (p.enrich s r).1.user = (p.lookupUser uid s.passwd).1.or r.user := by
  have looked := enrich_user_fst (r := stamp p s r) p s.passwd asks
  refine Eq.trans ?_ looked
  unfold enrich
  dsimp only
  split <;> rfl

theorem enrich_cache (p : Pipeline) (s : Surroundings) (r : Record) (uid : UInt32) :
    (p.enrich s r).2.1.userCache[uid]? =
      p.userCache[uid]?.or (if r.uid = some uid then some (cachedName s.passwd) else none) := by
  have kept := enrich_user_cache p s.passwd (stamp p s r) uid
  refine Eq.trans ?_ kept
  unfold enrich
  dsimp only
  split <;> rfl

theorem emit_cache (p : Pipeline) (s : Surroundings) (r : Record) :
    (p.emit s r).1.userCache = (p.enrich s r).2.1.userCache := by
  unfold emit
  dsimp only
  split
  · dsimp only
    rw [ship_fst]
  · rfl

theorem asked_emit (s : Surroundings) (r : Record) (uid : UInt32) :
    (asked uid [.emit s r]).head? = if r.uid = some uid then some s.passwd else none := by
  by_cases asks : r.uid = some uid <;> simp [asked, asks]

theorem call_emit_after (p : Pipeline) (s : Surroundings) (r : Record) :
    (call p (.emit s r)).after = (p.emit s r).1 := rfl

/-- One call asks for a uid at most once, and is answered from the cache if it
can be. -/
theorem call_cache (p : Pipeline) (op : Op) (uid : UInt32) :
    (call p op).after.userCache[uid]? = p.userCache[uid]?.or ((asked uid [op]).head?.map cachedName) := by
  cases op with
  | emit s r =>
    rw [call_emit_after, emit_cache, enrich_cache, asked_emit]
    split <;> rfl
  | tick now =>
    rcases tick_cases p now with idle | shipped
    · simp [call, idle, asked]
    · simp [call, shipped, ship_fst, asked]
  | flush now => simp [call, flush, ship_fst, asked]
  | setSinks sinks => simp [call, setSinks, asked]

/-! ### Runs -/

theorem asked_append (uid : UInt32) (before after : List Op) :
    asked uid (before ++ after) = asked uid before ++ asked uid after :=
  List.filterMap_append

/-- The cache holds what the first call for the uid came back with. -/
theorem final_cache (p : Pipeline) (ops : List Op) (uid : UInt32) :
    (final p ops).userCache[uid]? = p.userCache[uid]?.or ((asked uid ops).head?.map cachedName) := by
  induction ops generalizing p with
  | nil => simp [final, asked]
  | cons op ops ih =>
    have split : asked uid (op :: ops) = asked uid [op] ++ asked uid ops := asked_append uid [op] ops
    rw [final, ih, call_cache, split, List.head?_append, Option.map_or, Option.or_assoc]

/-- The name a record leaves with is the one the first call for its uid came
back with. -/
theorem user_after (opt : PipelineOptions) (sinks : List SinkRef) (now : Int64) (before : List Op)
    (s : Surroundings) {r : Record} (asks : r.uid = some uid) :
    ((final (.new opt sinks now) before).enrich s r).1.user =
      let name := cachedName ((asked uid before).head?.getD s.passwd)
      if name = [] then r.user else some name := by
  rw [enrich_user _ s asks, lookup_user_fst, final_cache]
  have empty : (new opt sinks now).userCache[uid]? = none := by simp [new]
  rw [empty, Option.none_or]
  cases (asked uid before).head? <;> dsimp only [Option.map, Option.getD] <;> split <;> simp_all

/-- A uid that the passwd database names has its name wherever a call for it
would be answered, exactly if no error came first. -/
theorem named_iff_first_answered (opt : PipelineOptions) (sinks : List SinkRef) (now : Int64) (uid : UInt32)
    (name : Bytes) (ops : List Op) (entry : HasEntry uid name ops) :
    Named (.new opt sinks now) uid name ops ↔ FirstAnswered uid name ops := by
  obtain ⟨nonempty, answers⟩ := entry
  refine forall₄_congr fun before s r later => forall₃_congr fun shape asks answered => ?_
  rw [user_after opt sinks now before s asks]
  have inRun : asked uid ops = asked uid before ++ s.passwd :: asked uid later := by
    rw [shape, asked_append]
    simp [asked, asks]
  cases first : (asked uid before).head? with
  | none =>
    have here : s.passwd = .found name := answers _ (by rw [inRun]; simp) answered
    simp [here, cachedName, nonempty]
  | some reply =>
    by_cases failed : reply = .failed
    · simp [failed, cachedName]
    · have there : reply = .found name := answers _ (by rw [inRun]; simp [List.mem_of_head? first]) failed
      simp [there, cachedName, nonempty]

/-- Two records of one user: the name service fails once, then answers. -/
def passingError : List Op :=
  let r : Record := { uid := some 1000 }
  [.emit { resolver := {}, bootOffsetNs := 0, passwd := .failed } r,
    .emit { resolver := {}, bootOffsetNs := 0, passwd := .found (ascii "alice") } r]

theorem named_iff_at_passing_error :
    Named (.new {} [] 0) 1000 (ascii "alice") passingError ↔ FirstAnswered 1000 (ascii "alice") passingError :=
  named_iff_first_answered {} [] 0 1000 (ascii "alice") passingError ⟨by decide, by decide⟩

/-- The second record leaves without a user. -/
theorem passing_error_remembered :
    ¬ ∀ opt sinks now uid name ops, HasEntry uid name ops → Named (.new opt sinks now) uid name ops := by
  intro promise
  have named := promise {} [] 0 1000 (ascii "alice") passingError ⟨by decide, by decide⟩
  have second := named _ _ _ [] (List.singleton_append (l := [_])).symm rfl nofun
  rw [user_after _ _ _ _ _ rfl] at second
  revert second
  decide

end SlurmTracer.UserNames
