import SlurmTracer.PostProofs
import SlurmTracer.QueueConservation

/-!
What a peer can do to the process. Whatever `connect`, `send` and `recv` answer,
the worker gets done with the batch in its hand after so many answers, delivers
it or counts it, and goes on. The one exception is a `send` that fails with
`EPIPE`: it raises a signal that neither `write_all` nor `main` sees to, and the
process is gone (`unharmed_iff`).
-/
namespace SlurmTracer.PeerFailures
open SlurmTracer.Core Lib Lib.Search
open QueueConservation (http_reads)

variable {ρ : Type} (opt : HttpOptions) (text : List ρ → Bytes)

/-- A process after these steps, each of which was enabled. -/
def run (s : HttpProcess ρ) (steps : List (HttpStep ρ)) : Option (HttpProcess ρ) :=
  steps.foldlM (HttpProcess.step opt text) s

/-- The answers of the peer. An interrupted `send` is none of its doing. -/
def fromPeer : HttpStep ρ → Bool
  | .answer (.sendFailed .interrupted) => false
  | .answer _ => true
  | _ => false

/-- How many answers a post can still take before it returns. -/
def answersLeft (body : Bytes) : Posting → Nat
  | .connecting => (request opt body).length + 64 * 1024 + 2 ^ 64 + 2
  | .sending unsent => unsent.length + 64 * 1024 + 2 ^ 64 + 1
  | .readingHead buf => 64 * 1024 + 1 - buf.length + 2 ^ 64
  | .readingBody _ _ had want => want - had

/-- How many answers the batch in hand can take, over both posts. -/
def patience (s : HttpProcess ρ) : Nat :=
  match s.worker, s.posting with
  | .handling batch failedPosts, some waiting =>
    answersLeft opt (text batch) waiting + 1 +
      if failedPosts = 0 then answersLeft opt (text batch) .connecting + 1 else 0
  | _, _ => 0

/-- The worker is in a post of a batch. -/
def InHand (s : HttpProcess ρ) : Prop := ∃ batch failedPosts, s.worker = .handling batch failedPosts

/-- With this step a post of the batch in hand returns true. -/
def Acknowledged (s : HttpProcess ρ) (a : HttpStep ρ) : Prop :=
  ∃ batch failedPosts waiting answer connected,
    s.worker = .handling batch failedPosts ∧ s.posting = some waiting ∧
    a = .answer answer ∧ resume opt (text batch) waiting answer = some (.returned true connected)

/-- With this step the worker is done with its batch, which was delivered or
is counted. -/
def DoneWith (s : HttpProcess ρ) (a : HttpStep ρ) (s' : HttpProcess ρ) : Prop :=
  s'.worker = .settled ∧ (Acknowledged opt text s a ∧ s'.dropped = s.dropped ∨ s'.dropped = s.dropped + 1)

/-- A connection that is refused, a call that fails, or nothing more to come. An
interrupted `send` is made again. -/
def Fails : Answer → Prop
  | .connected ok => ok = false
  | .sent count => count = 0
  | .sendFailed errno => errno ≠ .interrupted
  | .received bytes => bytes = []
  | .recvFailed _ => True

/-- With this step the post of the batch in hand is over. -/
def PostEnds (s : HttpProcess ρ) (a : HttpStep ρ) (s' : HttpProcess ρ) : Prop :=
  DoneWith opt text s a s' ∨
    ∃ batch, s.worker = .handling batch 0 ∧ s'.worker = .handling batch 1 ∧ s'.posting = some .connecting

/-- One of these steps is done with the batch in hand. -/
def Settles (s : HttpProcess ρ) : List (HttpStep ρ) → Prop
  | [] => False
  | a :: steps => ∃ s', s.step opt text a = some s' ∧ (DoneWith opt text s a s' ∨ Settles s' steps)

/-- A process after a run that no peer did any harm to. -/
structure Unharmed (steps : List (HttpStep ρ)) (s : HttpProcess ρ) : Prop where
  alive : s.terminated = false
  /-- Any batch of the run was done with, once enough answers came. -/
  getsDone : ∀ pre rest mid, steps = pre ++ rest → run opt text {} pre = some mid → InHand mid →
    patience opt text mid ≤ rest.countP fromPeer → Settles opt text mid rest
  /-- It does not take as many where the peer is gone. -/
  endsAtOnce : ∀ pre answer rest mid after, steps = pre ++ .answer answer :: rest → run opt text {} pre = some mid →
    mid.step opt text (.answer answer) = some after → Fails answer → PostEnds opt text mid (.answer answer) after
  /-- A worker with a batch waits for a call. -/
  asks : InHand s → s.posting ≠ none
  /-- A worker that is done comes back for the next batch. -/
  comesBack : s.worker = .settled → s.step opt text .finish ≠ none
  goesOn : s.worker = .waiting → s.queue ≠ [] → s.step opt text .pop ≠ none

variable {opt : HttpOptions} {text : List ρ → Bytes} {s s' : HttpProcess ρ}

/-! ### One post -/

theorem strtoul_value_lt (digits : Bytes) : strtoulValue digits < 2 ^ 64 := by
  unfold strtoulValue
  simp only
  cases read : strtoul (signedDigits digits).2 with
  | none => exact Nat.sub_lt (by decide) (by decide)
  | some value =>
    have fits : value < 2 ^ 64 := by
      unfold strtoul at read
      split at read
      · cases read
        assumption
      · cases read
    simp only
    split
    · exact Nat.mod_lt _ (by decide)
    · exact fits

private theorem frame_calls {buf : Bytes} {headerEnd : Nat} {next : Posting}
    (calls : frame buf headerEnd = .calls next) :
    ∃ ok closeAfter had want, next = .readingBody ok closeAfter had want ∧ want < 2 ^ 64 := by
  unfold frame at calls
  simp only at calls
  split at calls
  · cases calls
  · split at calls
    · obtain ⟨is, -⟩ := PostProofs.drain_calls calls
      exact ⟨_, _, _, _, is, strtoul_value_lt _⟩
    · cases calls

private theorem read_head_calls {body buf chunk : Bytes} {next : Posting} (some' : chunk ≠ [])
    (calls : readHead buf chunk = .calls next) :
    answersLeft opt body next < answersLeft opt body (.readingHead buf) := by
  have grows := List.length_pos_iff.mpr some'
  unfold readHead at calls
  simp only at calls
  split at calls
  · obtain ⟨ok, closeAfter, had, want, rfl, fits⟩ := frame_calls calls
    simp only [answersLeft]
    omega
  · split at calls
    · cases calls
    · rename_i short
      cases calls
      rw [List.length_append] at short
      simp only [answersLeft, List.length_append]
      omega

/-- Every answer of the peer brings a post closer to its end. -/
theorem answers_run_out {body : Bytes} {waiting next : Posting} {answer : Answer}
    (resumed : resume opt body waiting answer = some (.calls next)) :
    (answer = .sendFailed .interrupted ∧ next = waiting) ∨
      (answer ≠ .sendFailed .interrupted ∧ answersLeft opt body next < answersLeft opt body waiting) := by
  unfold resume at resumed
  split at resumed
  · rename_i ok
    refine Or.inr ⟨nofun, ?_⟩
    cases ok
    · cases resumed
    · cases resumed
      simp only [answersLeft]
      omega
  · rename_i unsent count
    refine Or.inr ⟨nofun, ?_⟩
    split at resumed
    · cases resumed
    · split at resumed
      · cases resumed
      · split at resumed <;> cases resumed
        · simp only [answersLeft, List.length_drop]
          omega
        · simp only [answersLeft, List.length_nil]
          omega
  · rename_i unsent errno
    by_cases again : errno = .interrupted
    · subst again
      cases resumed
      exact Or.inl ⟨rfl, rfl⟩
    · rw [if_neg again] at resumed
      cases resumed
  · rename_i buf chunk
    refine Or.inr ⟨nofun, ?_⟩
    split at resumed
    · cases resumed
    · split at resumed
      · cases resumed
      · exact read_head_calls (by assumption) (Option.some.inj resumed)
  · cases resumed
  · rename_i ok closeAfter had want chunk
    refine Or.inr ⟨nofun, ?_⟩
    split at resumed
    · cases resumed
    · split at resumed
      · cases resumed
      · rename_i some'
        have grows := List.length_pos_iff.mpr some'
        obtain ⟨rfl, more⟩ := PostProofs.drain_calls (Option.some.inj resumed)
        simp only [answersLeft]
        omega
  · cases resumed
  · cases resumed

/-- No failure leaves `post` waiting. -/
theorem failure_returns {body : Bytes} {waiting next : Posting} {answer : Answer} (fails : Fails answer) :
    resume opt body waiting answer ≠ some (.calls next) := by
  cases answer <;> cases waiting <;> simp_all [Fails, resume]

/-! ### The process -/

/-- What a step can do to a process that runs. -/
inductive Change (opt : HttpOptions) (text : List ρ → Bytes) (s : HttpProcess ρ) :
    HttpStep ρ → HttpProcess ρ → Prop where
  /-- The worker stays where it is. -/
  | beside {a : HttpStep ρ} {s' : HttpProcess ρ} (silent : ∀ answer, a ≠ .answer answer)
      (alive : s'.terminated = false)
      (worker : s'.worker = s.worker) (posting : s'.posting = s.posting) : Change opt text s a s'
  /-- The worker moves between two batches. -/
  | between {a : HttpStep ρ} {s' : HttpProcess ρ} (silent : ∀ answer, a ≠ .answer answer)
      (alive : s'.terminated = false) (free : ¬ InHand s) (asks : InHand s' → s'.posting ≠ none) : Change opt text s a s'
  | killed {answer : Answer} (deadly : terminates answer = true) :
      Change opt text s (.answer answer) { s with terminated := true }
  | calls {answer : Answer} {batch : List ρ} {failedPosts : Nat} {waiting next : Posting}
      (handling : s.worker = .handling batch failedPosts) (asked : s.posting = some waiting)
      (alive : s.terminated = false) (spared : terminates answer = false)
      (resumed : resume opt (text batch) waiting answer = some (.calls next)) :
      Change opt text s (.answer answer) { s with posting := some next, connected := true }
  /-- The first post of the batch failed. -/
  | retries {answer : Answer} {batch : List ρ} {waiting : Posting} {s' : HttpProcess ρ}
      (handling : s.worker = .handling batch 0) (asked : s.posting = some waiting) (spared : terminates answer = false)
      (alive : s'.terminated = false) (worker : s'.worker = .handling batch 1)
      (posting : s'.posting = some .connecting) :
      Change opt text s (.answer answer) s'
  | settles {answer : Answer} {s' : HttpProcess ρ} (spared : terminates answer = false) (alive : s'.terminated = false)
      (done : DoneWith opt text s (.answer answer) s') : Change opt text s (.answer answer) s'

private theorem change_of_returned {answer : Answer} {batch : List ρ} {failedPosts : Nat} {waiting : Posting}
    {ok connected : Bool} (handling : s.worker = .handling batch failedPosts) (asked : s.posting = some waiting)
    (alive : s.terminated = false) (spared : terminates answer = false)
    (resumed : resume opt (text batch) waiting answer = some (.returned ok connected))
    (ran : s.returned opt ok connected = some s') : Change opt text s (.answer answer) s' := by
  obtain ⟨mid, tried, rfl⟩ := Option.map_eq_some_iff.mp ran
  obtain ⟨q, stepped, rfl⟩ := Option.map_eq_some_iff.mp tried
  cases QueueSteps.change_of_step stepped with
  | retry handling' reads =>
    cases handling.symm.trans handling'
    obtain ⟨rfl, rfl⟩ := http_reads.retry _ _ reads
    exact .retries handling asked spared alive rfl rfl
  | delivered handling' reads =>
    cases ok with
    | true =>
      have acknowledged : Acknowledged opt text s (.answer answer) :=
        ⟨batch, failedPosts, waiting, answer, connected, handling, asked, rfl, resumed⟩
      exact .settles spared alive ⟨rfl, Or.inl ⟨acknowledged, rfl⟩⟩
    | false => exact absurd (http_reads.delivered _ _ reads) (by simp)
  | lost handling' reads => exact .settles spared alive ⟨rfl, Or.inr rfl⟩

theorem change_of_step {a : HttpStep ρ} (ran : s.step opt text a = some s') : Change opt text s a s' := by
  unfold HttpProcess.step at ran
  cases alive : s.terminated with
  | true => simp [alive] at ran
  | false =>
    rw [alive, if_neg Bool.false_ne_true] at ran
    cases a with
    | write batch =>
      obtain ⟨q, stepped, rfl⟩ := Option.map_eq_some_iff.mp ran
      cases QueueSteps.change_of_step stepped
      exact .beside nofun alive rfl rfl
    | stop =>
      cases ran
      exact .beside nofun alive rfl rfl
    | pop =>
      obtain ⟨mid, popped, rfl⟩ := Option.map_eq_some_iff.mp ran
      obtain ⟨q, stepped, rfl⟩ := Option.map_eq_some_iff.mp popped
      cases QueueSteps.change_of_step stepped with
      | pop waiting queued =>
        have free : ¬ InHand s := fun ⟨_, _, handling⟩ => by cases waiting.symm.trans handling
        exact .between nofun alive free fun _ => nofun
    | finish =>
      obtain ⟨q, stepped, rfl⟩ := Option.map_eq_some_iff.mp ran
      cases QueueSteps.change_of_step stepped with
      | finish settled =>
        exact .between nofun alive (fun ⟨_, _, handling⟩ => by cases settled.symm.trans handling)
          fun ⟨_, _, handling⟩ => by cases handling
    | exit =>
      obtain ⟨mid, left, rfl⟩ := Option.map_eq_some_iff.mp ran
      obtain ⟨q, stepped, rfl⟩ := Option.map_eq_some_iff.mp left
      cases QueueSteps.change_of_step stepped with
      | exit waiting empty stopping =>
        exact .between nofun alive (fun ⟨_, _, handling⟩ => by cases waiting.symm.trans handling)
          fun ⟨_, _, handling⟩ => by cases handling
    | answer answer =>
      unfold HttpProcess.aliveStep at ran
      simp only at ran
      split at ran
      · rename_i batch failedPosts waiting handling asked
        cases resumed : resume opt (text batch) waiting answer with
        | none => simp [resumed] at ran
        | some next =>
          simp only [resumed] at ran
          cases deadly : terminates answer with
          | true =>
            rw [deadly, if_pos rfl] at ran
            cases ran
            exact .killed deadly
          | false =>
            rw [deadly, if_neg Bool.false_ne_true] at ran
            cases next with
            | calls next =>
              cases ran
              exact .calls handling asked alive deadly resumed
            | returned ok connected => exact change_of_returned handling asked alive deadly resumed ran
      · cases ran

theorem alive_of_step {a : HttpStep ρ} (ran : s.step opt text a = some s') : s.terminated = false := by
  rw [← Bool.not_eq_true]
  intro gone
  simp [HttpProcess.step, gone] at ran

theorem terminates_iff (answer : Answer) : terminates answer = true ↔ answer = .sendFailed .brokenPipe := by
  cases answer with
  | sendFailed errno => cases errno <;> decide
  | _ => simp [terminates, raised]

/-- Only a `send` that meets a broken pipe ends the process. -/
theorem terminated_iff {a : HttpStep ρ} (ran : s.step opt text a = some s') :
    s'.terminated = true ↔ a = .answer (.sendFailed .brokenPipe) := by
  have spared : ∀ {answer : Answer}, terminates answer = false → answer ≠ .sendFailed .brokenPipe :=
    fun spared same => by cases spared.symm.trans ((terminates_iff _).mpr same)
  cases change_of_step ran with
  | beside silent alive worker posting => simp [alive, silent]
  | between silent alive free asks => simp [alive, silent]
  | killed deadly => simp [(terminates_iff _).mp deadly]
  | calls handling asked alive harmless resumed => simp [alive, spared harmless]
  | retries handling asked harmless alive worker posting => simp [alive, spared harmless]
  | settles harmless alive done => simp [alive, spared harmless]

private theorem counts_once (a : HttpStep ρ) : (if fromPeer a then 1 else 0) ≤ 1 := by split <;> decide

/-- What a step makes of a batch in hand: it stays as it is, it comes closer to
its end, or that is it. -/
theorem step_in_hand {a : HttpStep ρ} {batch : List ρ} {failedPosts : Nat} {waiting : Posting}
    (handling : s.worker = .handling batch failedPosts) (asked : s.posting = some waiting)
    (ran : s.step opt text a = some s') (spared : a ≠ .answer (.sendFailed .brokenPipe)) :
    DoneWith opt text s a s' ∨ ∃ failedPosts' waiting', s'.worker = .handling batch failedPosts' ∧
      s'.posting = some waiting' ∧
      patience opt text s' + (if fromPeer a then 1 else 0) ≤ patience opt text s := by
  have one := counts_once a
  cases change_of_step ran with
  | beside silent alive worker posting =>
    refine Or.inr ⟨failedPosts, waiting, worker.trans handling, posting.trans asked, ?_⟩
    have none : fromPeer a = false := by
      cases a with
      | answer answer => exact absurd rfl (silent answer)
      | _ => rfl
    simp [patience, worker, posting, none]
  | between silent alive free asks => exact absurd ⟨batch, failedPosts, handling⟩ free
  | killed deadly => exact absurd (congrArg _ ((terminates_iff _).mp deadly)) spared
  | calls handling' asked' alive harmless resumed =>
    cases handling.symm.trans handling'
    cases asked.symm.trans asked'
    refine Or.inr ⟨failedPosts, _, handling, rfl, ?_⟩
    rcases answers_run_out resumed with ⟨rfl, rfl⟩ | ⟨ours, closer⟩
    · simp [patience, handling, asked, fromPeer]
    · simp only [patience, handling, asked]
      omega
  | retries handling' asked' harmless alive worker posting =>
    cases handling.symm.trans handling'
    refine Or.inr ⟨1, .connecting, worker, posting, ?_⟩
    simp only [patience, handling, asked, worker, posting, if_true, if_neg Nat.one_ne_zero]
    omega
  | settles harmless alive done => exact Or.inl done

/-- The peer is not asked again in the same post. -/
theorem failure_ends_post {answer : Answer} (ran : s.step opt text (.answer answer) = some s') (fails : Fails answer)
    (spared : answer ≠ .sendFailed .brokenPipe) : PostEnds opt text s (.answer answer) s' := by
  cases change_of_step ran with
  | beside silent alive worker posting => exact absurd rfl (silent answer)
  | between silent alive free asks => exact absurd rfl (silent answer)
  | killed deadly => exact absurd ((terminates_iff _).mp deadly) spared
  | calls handling asked alive harmless resumed => exact absurd resumed (failure_returns fails)
  | retries handling asked harmless alive worker posting => exact Or.inr ⟨_, handling, worker, posting⟩
  | settles harmless alive done => exact Or.inl done

/-- A worker with a batch waits in a call. -/
def Asks (s : HttpProcess ρ) : Prop := InHand s → s.posting ≠ none

theorem asks_step {a : HttpStep ρ} (asks : Asks s) (ran : s.step opt text a = some s')
    (spared : a ≠ .answer (.sendFailed .brokenPipe)) : Asks s' := by
  cases change_of_step ran with
  | beside silent alive worker posting => rwa [Asks, InHand, worker, posting]
  | between silent alive free asks' => exact asks'
  | killed deadly => exact absurd (congrArg _ ((terminates_iff _).mp deadly)) spared
  | calls handling asked alive harmless resumed => exact fun _ => nofun
  | retries handling asked harmless alive worker posting =>
    rw [Asks, posting]
    exact fun _ => nofun
  | settles harmless alive done =>
    rintro ⟨batch, failedPosts, handling⟩
    cases done.1.symm.trans handling

/-! ### Runs -/

variable {steps rest : List (HttpStep ρ)}

theorem run_cons {a : HttpStep ρ} (ran : run opt text s (a :: steps) = some s') :
    ∃ mid, s.step opt text a = some mid ∧ run opt text mid steps = some s' := by
  rw [run, List.foldlM_cons, Option.bind_eq_bind, Option.bind_eq_some_iff] at ran
  exact ran

theorem run_append {mid : HttpProcess ρ} (first : run opt text s steps = some mid)
    (ran : run opt text s (steps ++ rest) = some s') : run opt text mid rest = some s' := by
  rw [run, List.foldlM_append, ← run, first] at ran
  exact ran

/-- A run is the end of the process exactly if a `send` of it met a broken
pipe. -/
theorem run_terminated_iff (alive : s.terminated = false) (ran : run opt text s steps = some s') :
    s'.terminated = true ↔ HttpStep.answer (.sendFailed .brokenPipe) ∈ steps := by
  induction steps generalizing s with
  | nil =>
    cases ran
    simp [alive]
  | cons a steps ih =>
    obtain ⟨mid, stepped, ran⟩ := run_cons ran
    have ends := terminated_iff stepped
    cases gone : mid.terminated with
    | false =>
      rw [gone] at ends
      have spared : ¬ HttpStep.answer (.sendFailed .brokenPipe) = a :=
        fun same => by simpa using ends.mpr same.symm
      rw [ih gone ran, List.mem_cons]
      simp [spared]
    | true =>
      cases steps with
      | nil =>
        cases ran
        rw [ends, List.mem_singleton]
        exact eq_comm
      | cons b steps =>
        obtain ⟨next, more, -⟩ := run_cons ran
        cases gone.symm.trans (alive_of_step more)

theorem asks_run (asks : Asks s) (ran : run opt text s steps = some s')
    (spared : HttpStep.answer (.sendFailed .brokenPipe) ∉ steps) : Asks s' := by
  induction steps generalizing s with
  | nil =>
    cases ran
    exact asks
  | cons a steps ih =>
    obtain ⟨mid, stepped, ran⟩ := run_cons ran
    obtain ⟨notThis, spared⟩ := not_or.mp (List.mem_cons.not.mp spared)
    exact ih (asks_step asks stepped (Ne.symm notThis)) ran spared

/-- Enough answers settle a batch in hand, whatever they are. -/
theorem settles_of_patience (hand : InHand s) (asks : Asks s) (ran : run opt text s steps = some s')
    (spared : HttpStep.answer (.sendFailed .brokenPipe) ∉ steps)
    (enough : patience opt text s ≤ steps.countP fromPeer) : Settles opt text s steps := by
  induction steps generalizing s with
  | nil =>
    obtain ⟨batch, failedPosts, handling⟩ := hand
    obtain ⟨waiting, asked⟩ := Option.ne_none_iff_exists'.mp (asks ⟨batch, failedPosts, handling⟩)
    simp only [patience, handling, asked, List.countP_nil] at enough
    omega
  | cons a steps ih =>
    obtain ⟨batch, failedPosts, handling⟩ := hand
    obtain ⟨waiting, asked⟩ := Option.ne_none_iff_exists'.mp (asks ⟨batch, failedPosts, handling⟩)
    obtain ⟨mid, stepped, ran⟩ := run_cons ran
    obtain ⟨notThis, spared⟩ := not_or.mp (List.mem_cons.not.mp spared)
    refine ⟨mid, stepped, ?_⟩
    rcases step_in_hand handling asked stepped (Ne.symm notThis) with
      done | ⟨failedPosts', waiting', hand', asked', less⟩
    · exact Or.inl done
    · refine Or.inr (ih ⟨batch, failedPosts', hand'⟩ (asks_step asks stepped (Ne.symm notThis)) ran spared ?_)
      rw [List.countP_cons] at enough
      omega

/-- Over every run, the process outlives its peers and the worker gets done
with each batch exactly if no `send` met a broken pipe. -/
theorem unharmed_iff (opt : HttpOptions) (text : List ρ → Bytes) {steps : List (HttpStep ρ)} {s : HttpProcess ρ}
    (ran : run opt text {} steps = some s) :
    Unharmed opt text steps s ↔ HttpStep.answer (.sendFailed .brokenPipe) ∉ steps := by
  have fresh : Asks ({} : HttpProcess ρ) := fun ⟨_, _, handling⟩ => by cases handling
  have ends := run_terminated_iff rfl ran
  constructor
  · intro unharmed broken
    cases unharmed.alive.symm.trans (ends.mpr broken)
  · intro spared
    have alive : s.terminated = false := by
      rw [← Bool.not_eq_true]
      exact fun gone => spared (ends.mp gone)
    refine ⟨alive, ?_, ?_, asks_run fresh ran spared, ?_, ?_⟩
    · rintro pre rest mid rfl first hand enough
      rw [List.mem_append, not_or] at spared
      exact settles_of_patience hand (asks_run fresh first spared.1) (run_append first ran) spared.2 enough
    · rintro pre answer rest mid after rfl first stepped fails
      exact failure_ends_post stepped fails fun broken => spared (by simp [broken])
    · intro settled
      simp [HttpProcess.step, HttpProcess.aliveStep, HttpProcess.queueStep, HttpSink.step, QueueSink.step, alive,
        settled]
    · intro waiting queued
      obtain ⟨batch, queue, is⟩ := List.exists_cons_of_ne_nil queued
      simp [HttpProcess.step, HttpProcess.aliveStep, HttpProcess.queueStep, HttpSink.step, QueueSink.step, alive,
        waiting, is]

/-! ### A collector that restarts -/

/-- A collector's address. -/
def collector : HttpOptions where
  host := ascii "db"

/-- A batch is acknowledged over a fresh connection. -/
def acknowledged : List (HttpStep Nat) :=
  [.write [1], .pop, .answer (.connected true), .answer (.sent (request collector []).length),
    .answer (.received (ascii "HTTP/1.1 204 No Content" ++ headEnd)), .finish]

/-- The collector is gone when the next batch is sent over the same
connection, and its reset arrives between two sends. -/
def resetBetweenSends : List (HttpStep Nat) :=
  acknowledged ++ [.write [2], .pop, .answer (.sent 16), .answer (.sendFailed .brokenPipe)]

/-- The collector resets the next connection before it answers and refuses the
one after, and the batch is counted; the third batch meets a response that ends
in its head, and is acknowledged at the second try. -/
def misbehaved : List (HttpStep Nat) :=
  acknowledged ++
    [.write [2], .write [3], .pop, .answer (.sent (request collector []).length), .answer (.recvFailed .other),
      .answer (.connected false), .finish,
      .pop, .answer (.connected true), .answer (.sent 16), .answer (.sendFailed .interrupted),
      .answer (.sent ((request collector []).length - 16)), .answer (.received (ascii "HTTP/1.1 20")), .answer (.received []),
      .answer (.connected true), .answer (.sent (request collector []).length),
      .answer (.received (ascii "HTTP/1.1 204 No Content" ++ headEnd)), .finish]

theorem unharmed_iff_misbehaved :
    ∃ s, run collector (fun _ => []) {} misbehaved = some s ∧ s.dropped = 1 ∧
      (Unharmed collector (fun _ => []) misbehaved s ↔ HttpStep.answer (.sendFailed .brokenPipe) ∉ misbehaved) := by
  have counted : (run collector (fun _ => []) {} misbehaved).map (fun s => s.dropped) = some 1 := by decide +kernel
  obtain ⟨s, ran, dropped⟩ := Option.map_eq_some_iff.mp counted
  exact ⟨s, ran, dropped, unharmed_iff collector (fun _ => []) ran⟩

/-- The process does not survive it. -/
theorem reset_between_sends_kills :
    ¬ ∀ (opt : HttpOptions) (text : List Nat → Bytes) (steps : List (HttpStep Nat)) (s : HttpProcess Nat),
      run opt text {} steps = some s → Unharmed opt text steps s := by
  intro always
  have enabled : (run collector (fun _ => []) ({} : HttpProcess Nat) resetBetweenSends).isSome = true := by decide
  obtain ⟨s, ran⟩ := Option.isSome_iff_exists.mp enabled
  have gone := (run_terminated_iff rfl ran).mpr (List.mem_append_right _ (by simp))
  cases (always _ _ _ s ran).alive.symm.trans gone

end SlurmTracer.PeerFailures
