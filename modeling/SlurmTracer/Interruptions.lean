import SlurmTracer.PostTraffic

/-!
Signals during a post. A `send` that is interrupted is made again; a `recv` is
not, and its failure is taken for the peer's. A post comes out as it would have
without any signal exactly where no `recv` that brings bytes is interrupted on
the way (`unchanged_iff`).
-/
namespace SlurmTracer.Interruptions
open SlurmTracer.Core Lib PostProofs PostTraffic

/-! ### Interrupted calls -/

/-- What a call comes back with while signals interrupt it. -/
def interruptions (times : Nat) : Answer → List Answer
  | .connected _ => []
  | .sent _ | .sendFailed _ => List.replicate times (.sendFailed .interrupted)
  | .received _ | .recvFailed _ => List.replicate times (.recvFailed .interrupted)

/-- A call that is interrupted some times before it comes back. -/
structure Call where
  times : Nat
  answer : Answer

namespace Call

def answers (c : Call) : List Answer := interruptions c.times c.answer ++ [c.answer]

/-- A `recv` that brings bytes. -/
def Brings (c : Call) : Prop := ∃ chunk, c.answer = .received chunk ∧ chunk ≠ []

end Call

/-- The calls without the interruptions. -/
def undisturbed (calls : List Call) : List Answer := calls.map Call.answer

/-- The calls with them. -/
def disturbed (calls : List Call) : List Answer := calls.flatMap Call.answers

/-! ### What comes of a post -/

/-- What `post` returns, how it leaves the connection, and what it moved. -/
structure Outcome where
  posted : Option Posted
  sent : Bytes
  consumed : Bytes
  deriving DecidableEq

def outcome (opt : HttpOptions) (body : Bytes) (waiting : Posting) (answers : List Answer) : Outcome where
  posted := (post opt body waiting answers).map Prod.fst
  sent := sent opt body waiting answers
  consumed := consumed opt body waiting answers

/-- The outcome with what was moved before. -/
def Outcome.after (o : Outcome) (sent consumed : Bytes) : Outcome :=
  { o with sent := sent ++ o.sent, consumed := consumed ++ o.consumed }

theorem Outcome.after_inj {o o' : Outcome} {sent consumed : Bytes} :
    o.after sent consumed = o'.after sent consumed ↔ o = o' := by
  obtain ⟨posted, out, into⟩ := o
  obtain ⟨posted', out', into'⟩ := o'
  simp [after]

variable {opt : HttpOptions} {body unsent : Bytes} {waiting next : Posting} {answer : Answer} {posted : Posted}
  {ok kept connected : Bool} {calls : List Call} {c : Call}

theorem outcome_calls (resumed : resume opt body waiting answer = some (.calls next)) (answers : List Answer) :
    outcome opt body waiting (answer :: answers) =
      (outcome opt body next answers).after (written waiting answer) (bytesOf answer) := by
  simp only [outcome, Outcome.after, post_calls resumed, sent, consumed, moved_calls resumed]

theorem outcome_returned (resumed : resume opt body waiting answer = some (.returned ok kept))
    (answers : List Answer) :
    outcome opt body waiting (answer :: answers) =
      ⟨some (.returned ok kept), written waiting answer, bytesOf answer⟩ := by
  simp only [outcome, post_returned resumed, sent, consumed, moved_returned resumed, Option.map_some]

/-! ### One interrupted call -/

/-- `write_all` makes an interrupted `send` again. -/
theorem outcome_interrupted_sends (times : Nat) (answers : List Answer) :
    outcome opt body (.sending unsent) (List.replicate times (.sendFailed .interrupted) ++ answers) =
      outcome opt body (.sending unsent) answers := by
  induction times with
  | zero => rfl
  | succ times ih =>
    have again : resume opt body (.sending unsent) (.sendFailed .interrupted) = some (.calls (.sending unsent)) := rfl
    rw [List.replicate_succ, List.cons_append, outcome_calls again, ih]
    rfl

/-- What a failing `recv` makes of a post that reads. -/
def givenUp : Posting → Posted
  | .readingBody ok _ _ _ => .returned ok false
  | _ => .returned false false

/-- Any failing `recv` ends the post, and so does the peer's close. -/
theorem outcome_failed (reading : Reading waiting)
    (fails : answer = .received [] ∨ ∃ errno, answer = .recvFailed errno) (answers : List Answer) :
    outcome opt body waiting (answer :: answers) = ⟨some (givenUp waiting), [], []⟩ := by
  have resumed : resume opt body waiting answer = some (givenUp waiting) := by
    cases waiting with
    | connecting => cases reading
    | sending unsent => cases reading
    | _ => rcases fails with rfl | ⟨errno, rfl⟩ <;> rfl
  have nothing : bytesOf answer = [] := by
    rcases fails with rfl | ⟨errno, rfl⟩ <;> rfl
  have ends : ∃ ok kept, givenUp waiting = .returned ok kept := by
    cases waiting <;> exact ⟨_, _, rfl⟩
  obtain ⟨ok, kept, is⟩ := ends
  rw [is] at resumed ⊢
  rw [outcome_returned resumed, written_reading reading, nothing]

/-- A call with bytes that was not interrupted, or any other call, goes by as
without its interruptions. -/
theorem outcome_call (resumed : resume opt body waiting c.answer = some posted)
    (spared : c.Brings → c.times = 0) (later : List Answer) :
    outcome opt body waiting (c.answers ++ later) = outcome opt body waiting (c.answer :: later) := by
  obtain ⟨times, answer⟩ := c
  rw [Call.answers, List.append_assoc, List.singleton_append]
  cases times with
  | zero => cases answer <;> rfl
  | succ times =>
    cases answer with
    | connected up => rfl
    | sent count =>
      cases waiting with
      | sending unsent => exact outcome_interrupted_sends _ _
      | _ => cases resumed
    | sendFailed errno =>
      cases waiting with
      | sending unsent => exact outcome_interrupted_sends _ _
      | _ => cases resumed
    | received chunk =>
      have reading : Reading waiting := by cases waiting <;> trivial
      have closed : chunk = [] := by
        by_contra filled
        exact absurd (spared ⟨chunk, rfl, filled⟩) (Nat.succ_ne_zero times)
      refine (outcome_failed reading (Or.inr ⟨.interrupted, rfl⟩) _).trans ?_
      exact (outcome_failed reading (Or.inl (congrArg _ closed)) later).symm
    | recvFailed errno =>
      have reading : Reading waiting := by cases waiting <;> trivial
      refine (outcome_failed reading (Or.inr ⟨.interrupted, rfl⟩) _).trans ?_
      exact (outcome_failed reading (Or.inr ⟨errno, rfl⟩) later).symm

/-- Bytes that an interrupted `recv` would have brought are not read. -/
theorem outcome_interrupted_read (resumed : resume opt body waiting c.answer = some posted) (brings : c.Brings)
    (interrupted : c.times ≠ 0) (later later' : List Answer) :
    outcome opt body waiting (c.answers ++ later) ≠ outcome opt body waiting (c.answer :: later') := by
  obtain ⟨times, answer⟩ := c
  obtain ⟨chunk, rfl, filled⟩ := brings
  obtain ⟨times, rfl⟩ := Nat.exists_eq_succ_of_ne_zero interrupted
  have reading : Reading waiting := by cases waiting <;> trivial
  have nothing : (outcome opt body waiting (Call.answers ⟨times + 1, .received chunk⟩ ++ later)).consumed = [] :=
    congrArg Outcome.consumed (outcome_failed reading (Or.inr ⟨_, rfl⟩) _)
  have something : (outcome opt body waiting (.received chunk :: later')).consumed ≠ [] := by
    cases posted with
    | calls next =>
      rw [outcome_calls resumed]
      exact fun none => filled (List.append_eq_nil_iff.mp none).1
    | returned ok kept =>
      rw [outcome_returned resumed]
      exact filled
  intro same
  exact something (same ▸ nothing)

/-! ### Every post -/

/-- From any call on. -/
theorem same_outcome_iff (ran : post opt body waiting (undisturbed calls) = some (.returned ok kept, [])) :
    outcome opt body waiting (disturbed calls) = outcome opt body waiting (undisturbed calls) ↔
      ∀ c ∈ calls, c.Brings → c.times = 0 := by
  induction calls generalizing waiting with
  | nil => cases ran
  | cons c calls ih =>
    have shape : disturbed (c :: calls) = c.answers ++ disturbed calls := List.flatMap_cons
    have shape' : undisturbed (c :: calls) = c.answer :: undisturbed calls := rfl
    rw [shape'] at ran
    rw [shape, shape', List.forall_mem_cons]
    by_cases spared : c.Brings → c.times = 0
    · rcases post_cases ran with ⟨next, resumed, ran⟩ | ⟨resumed, last⟩
      · rw [outcome_call resumed spared, outcome_calls resumed, outcome_calls resumed, Outcome.after_inj, ih ran]
        exact ⟨fun rest => ⟨spared, rest⟩, And.right⟩
      · have none : calls = [] := List.map_eq_nil_iff.mp last.symm
        subst none
        rw [outcome_call resumed spared, outcome_returned resumed, outcome_returned resumed]
        exact ⟨fun _ => ⟨spared, nofun⟩, fun _ => rfl⟩
    · have hit : c.Brings ∧ c.times ≠ 0 := by simpa using spared
      have goes : ∃ posted, resume opt body waiting c.answer = some posted := by
        rcases post_cases ran with ⟨next, resumed, -⟩ | ⟨resumed, -⟩
        · exact ⟨_, resumed⟩
        · exact ⟨_, resumed⟩
      obtain ⟨posted, resumed⟩ := goes
      have differs := outcome_interrupted_read resumed hit.1 hit.2 (disturbed calls) (undisturbed calls)
      exact ⟨fun same => absurd same differs, fun both => absurd both.1 spared⟩

/-- A post whose calls are interrupted returns the same, leaves the connection
the same and moves the same bytes if and only if none of the interrupted calls
is a `recv` that brings bytes. -/
theorem unchanged_iff
    (ran : post opt body (enterPost opt body connected) (undisturbed calls) = some (.returned ok kept, [])) :
    outcome opt body (enterPost opt body connected) (disturbed calls) =
        outcome opt body (enterPost opt body connected) (undisturbed calls) ↔
      ∀ c ∈ calls, c.Brings → c.times = 0 :=
  same_outcome_iff ran

/-! ### One signal -/

/-- A batch that a receiver on `h` takes, with interruptions before its `send`
and before its `recv`. -/
def acknowledged (beforeSend beforeRead : Nat) : List Call :=
  [⟨0, .connected true⟩, ⟨beforeSend, .sent (request ⟨ascii "h", ascii "/", 0⟩ (ascii "1")).length⟩,
    ⟨beforeRead, .received (ascii "HTTP/1.1 200 OK" ++ headEnd)⟩]

/-- Three of them hit the `send`. -/
theorem unchanged_iff_sends :
    outcome ⟨ascii "h", ascii "/", 0⟩ (ascii "1") (enterPost ⟨ascii "h", ascii "/", 0⟩ (ascii "1") false)
        (disturbed (acknowledged 3 0)) =
      outcome ⟨ascii "h", ascii "/", 0⟩ (ascii "1") (enterPost ⟨ascii "h", ascii "/", 0⟩ (ascii "1") false)
        (undisturbed (acknowledged 3 0)) ↔
      ∀ c ∈ acknowledged 3 0, c.Brings → c.times = 0 :=
  have ran : post ⟨ascii "h", ascii "/", 0⟩ (ascii "1") (enterPost ⟨ascii "h", ascii "/", 0⟩ (ascii "1") false)
      (undisturbed (acknowledged 3 0)) = some (.returned true true, []) := by decide
  unchanged_iff ran

/-- One that hits the `recv` makes the acknowledged batch a failed one. -/
theorem interrupted_acknowledgement :
    (outcome ⟨ascii "h", ascii "/", 0⟩ (ascii "1") (enterPost ⟨ascii "h", ascii "/", 0⟩ (ascii "1") false)
        (undisturbed (acknowledged 0 1))).posted = some (.returned true true) ∧
      (outcome ⟨ascii "h", ascii "/", 0⟩ (ascii "1") (enterPost ⟨ascii "h", ascii "/", 0⟩ (ascii "1") false)
        (disturbed (acknowledged 0 1))).posted = some (.returned false false) := by
  decide

end SlurmTracer.Interruptions
