import SlurmTracer.Core.Http
import SlurmTracer.Lib.Decimal

/-! How a `post` gets from one answer to the next, and what it takes from a
response on the way. -/
namespace SlurmTracer.PostProofs
open SlurmTracer.Core Lib Lib.Search Lib.Decimal

/-! ### Answers -/

def bytesOf : Answer → Bytes
  | .received bytes => bytes
  | _ => []

/-- What a call puts on the connection, as it is answered. -/
def written : Posting → Answer → Bytes
  | .sending unsent, .sent count => unsent.take count
  | _, _ => []

/-- What the connection delivers by these answers. -/
def received (answers : List Answer) : Bytes := answers.flatMap bytesOf

variable {opt : HttpOptions} {body : Bytes} {waiting next : Posting} {answer : Answer} {answers rest : List Answer}
  {ok connected closeAfter : Bool}

theorem received_cons (answer : Answer) (answers : List Answer) :
    received (answer :: answers) = bytesOf answer ++ received answers := by
  rw [received, List.flatMap_cons, ← received]

theorem received_append (answers more : List Answer) : received (answers ++ more) = received answers ++ received more :=
  List.flatMap_append

theorem post_calls (resumed : resume opt body waiting answer = some (.calls next)) (answers : List Answer) :
    post opt body waiting (answer :: answers) = post opt body next answers := by
  rw [post, resumed]

theorem post_returned (resumed : resume opt body waiting answer = some (.returned ok connected))
    (answers : List Answer) :
    post opt body waiting (answer :: answers) = some (.returned ok connected, answers) := by
  rw [post, resumed]

/-- A post that still waits for a call has gone on from each answer. -/
theorem post_still (ran : post opt body waiting (answer :: answers) = some (.calls next, rest)) :
    ∃ mid, resume opt body waiting answer = some (.calls mid) ∧
      post opt body mid answers = some (.calls next, rest) := by
  cases resumed : resume opt body waiting answer with
  | none => simp [post, resumed] at ran
  | some posted =>
    cases posted with
    | calls mid => exact ⟨mid, rfl, (post_calls resumed answers) ▸ ran⟩
    | returned ok connected =>
      rw [post_returned resumed] at ran
      cases ran

/-- What a post has been answered so far is behind it. -/
theorem post_continues {sofar : List Answer} (ran : post opt body waiting sofar = some (.calls next, []))
    (answers : List Answer) : post opt body waiting (sofar ++ answers) = post opt body next answers := by
  induction sofar generalizing waiting with
  | nil =>
    cases ran
    rfl
  | cons answer sofar ih =>
    obtain ⟨mid, resumed, ran⟩ := post_still ran
    rw [List.cons_append, post_calls resumed]
    exact ih ran

/-- A post that returns does so with this answer, or goes on to another call. -/
theorem post_cases (ran : post opt body waiting (answer :: answers) = some (.returned ok connected, rest)) :
    (∃ next, resume opt body waiting answer = some (.calls next) ∧
        post opt body next answers = some (.returned ok connected, rest)) ∨
      resume opt body waiting answer = some (.returned ok connected) ∧ rest = answers := by
  cases resumed : resume opt body waiting answer with
  | none => simp [post, resumed] at ran
  | some posted =>
    cases posted with
    | calls next => exact Or.inl ⟨next, rfl, (post_calls resumed answers) ▸ ran⟩
    | returned ok' connected' =>
      rw [post_returned resumed] at ran
      cases ran
      exact Or.inr ⟨rfl, rfl⟩

/-- What a post leaves is the end of what it was given. -/
theorem post_rest {posted : Posted} (ran : post opt body waiting answers = some (posted, rest)) : rest <:+ answers := by
  induction answers generalizing waiting with
  | nil =>
    cases ran
    exact List.nil_suffix
  | cons answer answers ih =>
    rw [post] at ran
    split at ran
    · cases ran
    · exact (ih ran).trans (List.suffix_cons answer answers)
    · cases ran
      exact List.suffix_cons answer _

/-- A read of the head brings bytes, no more than the buffer takes, or the
connection is given up. -/
theorem reading_head {buf : Bytes} {posted : Posted}
    (resumed : resume opt body (.readingHead buf) answer = some posted) :
    posted = .returned false false ∨
      ∃ chunk, answer = .received chunk ∧ chunk.length ≤ chunkSize ∧ posted = readHead buf chunk := by
  cases answer with
  | received chunk =>
    simp only [resume] at resumed
    split at resumed
    · cases resumed
    · split at resumed
      · exact Or.inl (Option.some.inj resumed).symm
      · exact Or.inr ⟨chunk, rfl, by omega, (Option.some.inj resumed).symm⟩
  | recvFailed errno => exact Or.inl (Option.some.inj resumed).symm
  | _ => cases resumed

/-- So does a read of the body. -/
theorem reading_body {had want : Nat} {posted : Posted}
    (resumed : resume opt body (.readingBody ok closeAfter had want) answer = some posted) :
    posted = .returned ok false ∨
      ∃ chunk, answer = .received chunk ∧ chunk.length ≤ chunkSize ∧
        posted = drain ok closeAfter (had + chunk.length) want := by
  cases answer with
  | received chunk =>
    simp only [resume] at resumed
    split at resumed
    · cases resumed
    · split at resumed
      · exact Or.inl (Option.some.inj resumed).symm
      · exact Or.inr ⟨chunk, rfl, by omega, (Option.some.inj resumed).symm⟩
  | recvFailed errno => exact Or.inl (Option.some.inj resumed).symm
  | _ => cases resumed

theorem drain_returned {had want : Nat} {kept : Bool} (returned : drain ok closeAfter had want = .returned kept true) :
    closeAfter = false ∧ want ≤ had := by
  unfold drain at returned
  split at returned
  · cases returned
  · rename_i enough
    obtain ⟨-, opened⟩ := Posted.returned.inj returned
    exact ⟨by simpa using opened, Nat.not_lt.mp enough⟩

theorem drain_calls {had want : Nat} (calls : drain ok closeAfter had want = .calls next) :
    next = .readingBody ok closeAfter had want ∧ had < want := by
  unfold drain at calls
  split at calls
  · cases calls
    exact ⟨rfl, by assumption⟩
  · cases calls

/-- Whatever is left on a connection that stays open lies past the length the
body was taken to have. -/
theorem drained {had want : Nat} {kept : Bool}
    (ran : post opt body (.readingBody ok closeAfter had want) answers = some (.returned kept true, rest)) :
    closeAfter = false ∧ want + (received rest).length ≤ had + (received answers).length := by
  induction answers generalizing had with
  | nil => cases ran
  | cons answer answers ih =>
    rw [received_cons, List.length_append]
    rcases post_cases ran with ⟨next, resumed, ran⟩ | ⟨resumed, rfl⟩
    · rcases reading_body resumed with returned | ⟨chunk, rfl, -, drains⟩
      · cases returned
      · obtain ⟨rfl, -⟩ := drain_calls drains.symm
        obtain ⟨opened, bound⟩ := ih ran
        refine ⟨opened, ?_⟩
        rw [bytesOf]
        omega
    · rcases reading_body resumed with returned | ⟨chunk, rfl, -, drains⟩
      · cases returned
      · obtain ⟨opened, enough⟩ := drain_returned drains.symm
        refine ⟨opened, ?_⟩
        rw [bytesOf]
        omega

/-- Answers that bring the length the body was taken to have are enough: what
comes after them is left. -/
theorem drained_by {had want : Nat} {kept : Bool} {first later : List Answer}
    (ran : post opt body (.readingBody ok closeAfter had want) (first ++ later) = some (.returned kept connected, rest))
    (missing : had < want) (enough : want ≤ had + (received first).length) : later <:+ rest := by
  induction first generalizing had with
  | nil =>
    have nothing : (received []).length = 0 := rfl
    omega
  | cons answer first ih =>
    rw [received_cons, List.length_append] at enough
    rcases post_cases ran with ⟨next, resumed, ran⟩ | ⟨-, rfl⟩
    · rcases reading_body resumed with returned | ⟨chunk, rfl, -, drains⟩
      · cases returned
      · obtain ⟨rfl, missing⟩ := drain_calls drains.symm
        rw [bytesOf] at enough
        exact ih ran missing (by omega)
    · exact List.suffix_append first later

/-! ### The head of a response -/

/-- `post` takes the body for a chunked one. -/
def saysChunked (head : Bytes) : Bool := (find (ascii "transfer-encoding: chunked") (lower head)).isSome

/-- `post` takes the connection for one that the peer closes. -/
def saysClose (head : Bytes) : Bool := (find (ascii "connection: close") (lower head)).isSome

/-- The length `post` takes the body to have. -/
def announced (head : Bytes) : Nat := strtoulValue (headerValue (lower head) (ascii "content-length"))

/-- `post` takes the response for a success. -/
def accepts (buf : Bytes) : Bool :=
  let status := parseStatusCode (buf.take ((find crlf buf).getD buf.length))
  decide (200 ≤ status) && decide (status < 300)

/-- The first line decides, and it is whole once a line end is in. -/
theorem accepts_append {buf : Bytes} (line : (find crlf buf).isSome = true) (more : Bytes) :
    accepts (buf ++ more) = accepts buf := by
  obtain ⟨i, found⟩ := Option.isSome_iff_exists.mp line
  have within := find_end found
  have same : (buf ++ more).take i = buf.take i := List.take_append_of_le_length (by omega)
  simp only [accepts, found, find_append found more, Option.getD_some, same]

/-- Once the head is in, its text alone decides about the body. -/
theorem frame_eq (head more : Bytes) : frame (head ++ headEnd ++ more) head.length =
    if saysChunked head then .returned (accepts (head ++ headEnd ++ more)) false
    else drain (accepts (head ++ headEnd ++ more)) (saysClose head) more.length (announced head) := by
  have front : (head ++ headEnd ++ more).take head.length = head := by
    rw [List.append_assoc, List.take_left]
  have behind : (head ++ headEnd ++ more).length - (head.length + 4) = more.length := by
    simp only [List.length_append, headEnd, List.length_cons, List.length_nil]
    omega
  simp only [frame, front, behind]
  by_cases chunked : saysChunked head = true
  · rw [if_pos chunked]
    exact if_pos chunked
  · rw [if_neg chunked]
    apply (if_neg chunked).trans
    by_cases none : headerValue (lower head) (ascii "content-length") = []
    · have zero : announced head = 0 := by rw [announced, none]; decide
      rw [if_neg (not_not.mpr none), zero, drain, if_neg (Nat.not_lt_zero _)]
      rfl
    · rw [if_pos none]
      rfl

/-- Once the head is in, the status line has decided. -/
theorem frame_cases (buf : Bytes) (headerEnd : Nat) :
    (∃ kept, frame buf headerEnd = .returned (accepts buf) kept) ∨
      ∃ closeAfter had want, frame buf headerEnd = .calls (.readingBody (accepts buf) closeAfter had want) := by
  rw [frame]
  split
  · exact Or.inl ⟨_, rfl⟩
  · split
    · rw [drain]
      split
      · exact Or.inr ⟨_, _, _, rfl⟩
      · exact Or.inl ⟨_, rfl⟩
    · exact Or.inl ⟨_, rfl⟩

/-- A chunk of the head is one too many, or is not the last, or completes it. -/
theorem read_head_cases (buf chunk : Bytes) :
    readHead buf chunk = .returned false false ∨ readHead buf chunk = .calls (.readingHead (buf ++ chunk)) ∨
      (find headEnd (buf ++ chunk)).isSome = true ∧
        ((∃ kept, readHead buf chunk = .returned (accepts (buf ++ chunk)) kept) ∨
          ∃ closeAfter had want,
            readHead buf chunk = .calls (.readingBody (accepts (buf ++ chunk)) closeAfter had want)) := by
  simp only [readHead]
  split
  · rename_i headerEnd found
    exact Or.inr (Or.inr ⟨by rw [found]; rfl, frame_cases (buf ++ chunk) headerEnd⟩)
  · split
    · exact Or.inl rfl
    · exact Or.inr (Or.inl rfl)

/-- The longest header block `post` can get through. -/
def longestBlock : Nat := 64 * 1024 + chunkSize

variable {head more buf chunk : Bytes}

/-- A response whose head ends where its first blank line is. -/
def EndsHead (head : Bytes) : Prop := find headEnd (head ++ headEnd) = some head.length

/-- The end of the head is not seen before it is all there. -/
theorem end_not_found_yet (ends : EndsHead head) {front : Bytes} (before : front <+: head ++ headEnd ++ more) :
    find headEnd front = if (head ++ headEnd).length ≤ front.length then some head.length else none := by
  obtain ⟨behind, whole⟩ := before
  have found : find headEnd (front ++ behind) = some head.length := by
    rw [whole]
    exact find_append ends more
  have size : (head ++ headEnd).length = head.length + headEnd.length := List.length_append
  by_cases reached : (head ++ headEnd).length ≤ front.length
  · rw [if_pos reached]
    exact find_front found (size ▸ reached)
  · rw [if_neg reached]
    exact find_prefix found (by omega)

/-- Reading on, `post` gets to the end of the head, or has not yet, and gives
up when that takes too long. -/
theorem read_head_eq (ends : EndsHead head) (before : buf ++ chunk <+: head ++ headEnd ++ more) :
    readHead buf chunk =
      if (head ++ headEnd).length ≤ (buf ++ chunk).length then frame (buf ++ chunk) head.length
      else if (buf ++ chunk).length > 64 * 1024 then .returned false false
      else .calls (.readingHead (buf ++ chunk)) := by
  rw [readHead]
  simp only [end_not_found_yet ends before]
  by_cases reached : (head ++ headEnd).length ≤ (buf ++ chunk).length
  · rw [if_pos reached, if_pos reached]
  · rw [if_neg reached, if_neg reached]

/-- What has arrived of a response whose head is in. -/
theorem arrived_split (before : buf <+: head ++ headEnd ++ more) (reached : (head ++ headEnd).length ≤ buf.length) :
    ∃ early, buf = head ++ headEnd ++ early ∧ early <+: more := by
  obtain ⟨early, is⟩ := List.prefix_of_prefix_length_le (List.prefix_append _ _) before reached
  subst is
  exact ⟨early, rfl, (List.prefix_append_right_inj _).mp before⟩

/-- Once the head is in, a post that leaves the connection open has taken in a
body of the announced length. -/
private theorem framed_open {early : Bytes} {kept : Bool}
    (goes : frame (head ++ headEnd ++ early) head.length = .returned kept true ∧ rest = answers ∨
      ∃ next, frame (head ++ headEnd ++ early) head.length = .calls next ∧
        post opt body next answers = some (.returned kept true, rest)) :
    saysChunked head = false ∧ saysClose head = false ∧
      announced head + (received rest).length ≤ (early ++ received answers).length := by
  rw [frame_eq] at goes
  rw [List.length_append]
  cases chunked : saysChunked head with
  | true =>
    rw [chunked, if_pos rfl] at goes
    rcases goes with ⟨returned, -⟩ | ⟨next, calls, -⟩
    · cases returned
    · cases calls
  | false =>
    rw [chunked, if_neg Bool.false_ne_true] at goes
    refine ⟨rfl, ?_⟩
    rcases goes with ⟨returned, rfl⟩ | ⟨next, calls, ran⟩
    · obtain ⟨opened, enough⟩ := drain_returned returned
      exact ⟨opened, by omega⟩
    · obtain ⟨rfl, -⟩ := drain_calls calls
      obtain ⟨opened, bound⟩ := drained ran
      exact ⟨opened, by omega⟩

/-- A post that leaves the connection open got through the head, and what is
left lies past the length the body was taken to have. -/
theorem kept_open (ends : EndsHead head) {kept : Bool} (whole : buf ++ received answers = head ++ headEnd ++ more)
    (short : buf.length ≤ 64 * 1024) (unread : buf.length < (head ++ headEnd).length)
    (ran : post opt body (.readingHead buf) answers = some (.returned kept true, rest)) :
    (head ++ headEnd).length ≤ longestBlock ∧ saysChunked head = false ∧ saysClose head = false ∧
      announced head + (received rest).length ≤ more.length := by
  induction answers generalizing buf with
  | nil => cases ran
  | cons answer answers ih =>
    have heard : ∀ {posted}, resume opt body (.readingHead buf) answer = some posted → posted ≠ .returned false false →
        ∃ chunk, answer = .received chunk ∧ chunk.length ≤ chunkSize ∧ posted = readHead buf chunk := by
      intro posted resumed differs
      exact (reading_head resumed).resolve_left differs
    -- What `post` does with the next chunk, whether it returns by it or not.
    have got : ∃ chunk posted, answer = .received chunk ∧ chunk.length ≤ chunkSize ∧ posted = readHead buf chunk ∧
        (posted = .returned kept true ∧ rest = answers ∨
          ∃ next, posted = .calls next ∧ post opt body next answers = some (.returned kept true, rest)) := by
      rcases post_cases ran with ⟨next, resumed, ran⟩ | ⟨resumed, same⟩
      · obtain ⟨chunk, is, fits, reads⟩ := heard resumed nofun
        exact ⟨chunk, _, is, fits, reads, Or.inr ⟨next, rfl, ran⟩⟩
      · obtain ⟨chunk, is, fits, reads⟩ := heard resumed (by simp)
        exact ⟨chunk, _, is, fits, reads, Or.inl ⟨rfl, same⟩⟩
    obtain ⟨chunk, posted, rfl, fits, reads, goes⟩ := got
    rw [received_cons, bytesOf, ← List.append_assoc] at whole
    have before : buf ++ chunk <+: head ++ headEnd ++ more := ⟨_, whole⟩
    have grown : (buf ++ chunk).length = buf.length + chunk.length := List.length_append
    rw [read_head_eq ends before] at reads
    split at reads
    · rename_i reached
      obtain ⟨early, is, -⟩ := arrived_split before reached
      have behind : early ++ received answers = more := by
        rw [is, List.append_assoc] at whole
        exact List.append_cancel_left whole
      refine ⟨by unfold longestBlock; omega, ?_⟩
      rw [is] at reads
      subst reads
      rw [← behind]
      exact framed_open goes
    · rename_i unreached
      split at reads
      · subst reads
        rcases goes with ⟨returned, -⟩ | ⟨next, calls, -⟩
        · cases returned
        · cases calls
      · rename_i fits
        subst reads
        rcases goes with ⟨returned, -⟩ | ⟨next, calls, ran⟩
        · cases returned
        · cases calls
          exact ih whole (by omega) (by omega) ran

/-- Answers that bring the head and the length it announces are enough: what
comes after them is left. -/
theorem read_by (ends : EndsHead head) {kept : Bool} {first later : List Answer}
    (whole : buf ++ received first = head ++ headEnd ++ more) (unread : buf.length < (head ++ headEnd).length)
    (enough : announced head ≤ more.length)
    (ran : post opt body (.readingHead buf) (first ++ later) = some (.returned kept connected, rest)) :
    later <:+ rest := by
  induction first generalizing buf with
  | nil =>
    have filled : (head ++ headEnd).length ≤ buf.length := by
      have nothing : received [] = [] := rfl
      rw [nothing, List.append_nil] at whole
      rw [whole]
      exact (List.prefix_append _ more).length_le
    omega
  | cons answer first ih =>
    rcases post_cases ran with ⟨next, resumed, ran⟩ | ⟨-, rfl⟩
    · rcases reading_head resumed with gaveUp | ⟨chunk, rfl, -, reads⟩
      · cases gaveUp
      · rw [received_cons, bytesOf, ← List.append_assoc] at whole
        have before : buf ++ chunk <+: head ++ headEnd ++ more := ⟨_, whole⟩
        rw [read_head_eq ends before] at reads
        split at reads
        · rename_i reached
          obtain ⟨early, is, -⟩ := arrived_split before reached
          have behind : early ++ received first = more := by
            rw [is, List.append_assoc] at whole
            exact List.append_cancel_left whole
          have total : early.length + (received first).length = more.length := by
            rw [← behind, List.length_append]
          rw [is, frame_eq] at reads
          split at reads
          · cases reads
          · obtain ⟨rfl, missing⟩ := drain_calls reads.symm
            exact drained_by ran missing (by omega)
        · split at reads
          · cases reads
          · cases reads
            exact ih whole (by omega) ran
    · exact List.suffix_append first later

/-! ### Getting to the head -/

theorem request_filled (opt : HttpOptions) (body : Bytes) : request opt body ≠ [] := by
  have starts : ascii "POST " = 80 :: ascii "OST " := by decide
  simp [request, starts]

/-- A `send` that takes everything. -/
theorem sends_all (opt : HttpOptions) (body : Bytes) {unsent : Bytes} (filled : unsent ≠ []) :
    resume opt body (.sending unsent) (.sent unsent.length) = some (.calls (.readingHead [])) := by
  simp [resume, filled]

/-- A `send` gives the connection up, takes everything, or takes the front of
what is left. -/
theorem sending_goes {unsent : Bytes} {posted : Posted}
    (resumed : resume opt body (.sending unsent) answer = some posted) :
    bytesOf answer = [] ∧
      (posted = .returned false false ∨
        posted = .calls (.readingHead []) ∧ written (.sending unsent) answer = unsent ∨
        ∃ left, posted = .calls (.sending left) ∧ written (.sending unsent) answer ++ left = unsent) := by
  cases answer with
  | sent count =>
    refine ⟨rfl, ?_⟩
    simp only [resume] at resumed
    split at resumed
    · cases resumed
    · split at resumed
      · exact Or.inl (Option.some.inj resumed).symm
      · split at resumed
        · exact Or.inr (Or.inr ⟨_, (Option.some.inj resumed).symm, List.take_append_drop count unsent⟩)
        · exact Or.inr (Or.inl ⟨(Option.some.inj resumed).symm, List.take_of_length_le (by omega)⟩)
  | sendFailed errno =>
    refine ⟨rfl, ?_⟩
    simp only [resume, Option.some.injEq] at resumed
    split at resumed
    · exact Or.inr (Or.inr ⟨unsent, resumed.symm, rfl⟩)
    · exact Or.inl resumed.symm
  | _ => cases resumed

/-- What is answered while the request goes out brings nothing of a response. -/
theorem sent_out {unsent : Bytes} {kept : Bool}
    (ran : post opt body (.sending unsent) answers = some (.returned ok kept, rest)) :
    ok = false ∧ kept = false ∨
      ∃ replies, replies <:+ answers ∧ received replies = received answers ∧
        post opt body (.readingHead []) replies = some (.returned ok kept, rest) := by
  induction answers generalizing unsent with
  | nil => cases ran
  | cons answer answers ih =>
    rw [received_cons]
    rcases post_cases ran with ⟨next, resumed, ran⟩ | ⟨resumed, -⟩
    · obtain ⟨nothing, goes⟩ := sending_goes resumed
      rw [nothing, List.nil_append]
      rcases goes with gaveUp | ⟨last, -⟩ | ⟨left, more, -⟩
      · cases gaveUp
      · cases last
        exact Or.inr ⟨answers, List.suffix_cons answer answers, rfl, ran⟩
      · cases more
        exact (ih ran).imp id fun ⟨replies, end', same, ran⟩ =>
          ⟨replies, end'.trans (List.suffix_cons answer answers), same, ran⟩
    · rcases (sending_goes resumed).2 with gaveUp | ⟨last, -⟩ | ⟨left, more, -⟩
      · cases gaveUp
        exact Or.inl ⟨rfl, rfl⟩
      · cases last
      · cases more

/-- A post that returns without giving up got to the response. -/
theorem entered {kept : Bool}
    (ran : post opt body (enterPost opt body connected) answers = some (.returned ok kept, rest)) :
    ok = false ∧ kept = false ∨
      ∃ replies, replies <:+ answers ∧ received replies = received answers ∧
        post opt body (.readingHead []) replies = some (.returned ok kept, rest) := by
  cases connected with
  | true => exact sent_out ran
  | false =>
    cases answers with
    | nil => cases ran
    | cons answer answers =>
      rw [received_cons]
      rcases post_cases ran with ⟨next, resumed, ran⟩ | ⟨resumed, -⟩
      · cases answer with
        | connected up =>
          cases up <;> cases resumed
          exact (sent_out ran).imp id fun ⟨replies, end', same, ran⟩ =>
            ⟨replies, end'.trans (List.suffix_cons _ answers), same, ran⟩
        | _ => cases resumed
      · cases answer with
        | connected up =>
          cases up <;> cases resumed
          exact Or.inl ⟨rfl, rfl⟩
        | _ => cases resumed

/-! ### Numbers -/

theorem digit_not_space {c : UInt8} (digit : isDigit c = true) : isSpace c = false ∧ c ≠ 45 ∧ c ≠ 43 := by
  have bounds := digit_bounds digit
  refine ⟨?_, ?_, ?_⟩
  · simp only [isSpace, Bool.or_eq_false_iff, decide_eq_false_iff_not, Bool.and_eq_false_iff, UInt8.le_iff_toNat_le]
    refine ⟨fun same => ?_, Or.inr ?_⟩
    · rw [same] at bounds
      exact absurd bounds.1 (by decide)
    · have : (13 : UInt8).toNat = 13 := rfl
      omega
  · rintro rfl
    exact absurd bounds.1 (by decide)
  · rintro rfl
    exact absurd bounds.1 (by decide)

/-- Digits are read from the front, without blanks or a sign. -/
theorem signed_digits_of_digits {digits : Bytes} (all : AllDigits digits) : signedDigits digits = (false, digits) := by
  cases digits with
  | nil => rfl
  | cons c rest =>
    obtain ⟨plain, notMinus, notPlus⟩ := digit_not_space (all c List.mem_cons_self)
    have kept : (c :: rest).dropWhile isSpace = c :: rest := by simp [plain]
    have taken : (c :: rest).takeWhile isDigit = c :: rest := List.takeWhile_eq_self_iff.mpr all
    unfold signedDigits
    rw [kept]
    split
    · rename_i same
      exact absurd (List.cons.inj same).1 notMinus
    · rename_i same
      exact absurd (List.cons.inj same).1 notPlus
    · rw [taken]

/-! ### Chunks -/

/-- Chunks as `recv` hands them out. -/
def Sized (chunks : List Bytes) : Prop := ∀ chunk ∈ chunks, chunk ≠ [] ∧ chunk.length ≤ chunkSize

variable {chunks : List Bytes}

theorem resume_head (filled : chunk ≠ []) (fits : chunk.length ≤ chunkSize) (buf : Bytes) :
    resume opt body (.readingHead buf) (.received chunk) = some (readHead buf chunk) := by
  simp only [resume, if_neg (Nat.not_lt.mpr fits), if_neg filled]

theorem resume_body (filled : chunk ≠ []) (fits : chunk.length ≤ chunkSize) (had want : Nat) :
    resume opt body (.readingBody ok closeAfter had want) (.received chunk) =
      some (drain ok closeAfter (had + chunk.length) want) := by
  simp only [resume, if_neg (Nat.not_lt.mpr fits), if_neg filled]

/-- Chunks of an unfinished head are gathered. -/
theorem gathers (ends : EndsHead head) (sized : Sized chunks)
    (before : buf ++ chunks.flatten <+: head ++ headEnd ++ more)
    (unread : (buf ++ chunks.flatten).length < (head ++ headEnd).length)
    (short : (buf ++ chunks.flatten).length ≤ 64 * 1024) (answers : List Answer) :
    post opt body (.readingHead buf) (chunks.map .received ++ answers) =
      post opt body (.readingHead (buf ++ chunks.flatten)) answers := by
  induction chunks generalizing buf with
  | nil => simp
  | cons chunk chunks ih =>
    obtain ⟨filled, fits⟩ := sized chunk List.mem_cons_self
    rw [List.flatten_cons, ← List.append_assoc] at before unread short ⊢
    have sooner : buf ++ chunk <+: head ++ headEnd ++ more := (List.prefix_append _ _).trans before
    have reads := read_head_eq ends sooner
    rw [List.length_append] at unread short
    rw [if_neg (by omega), if_neg (by omega)] at reads
    have resumed :
        resume opt body (.readingHead buf) (.received chunk) = some (.calls (.readingHead (buf ++ chunk))) := by
      rw [resume_head filled fits, reads]
    rw [List.map_cons, List.cons_append, post_calls resumed]
    refine ih (fun c member => sized c (List.mem_cons_of_mem _ member)) before ?_ ?_ <;>
      · rw [List.length_append]
        omega

/-- Chunks of an unfinished body are counted. -/
theorem counts {had want : Nat} (sized : Sized chunks) (unread : had + chunks.flatten.length < want)
    (answers : List Answer) :
    post opt body (.readingBody ok closeAfter had want) (chunks.map .received ++ answers) =
      post opt body (.readingBody ok closeAfter (had + chunks.flatten.length) want) answers := by
  induction chunks generalizing had with
  | nil => simp
  | cons chunk chunks ih =>
    obtain ⟨filled, fits⟩ := sized chunk List.mem_cons_self
    rw [List.flatten_cons, List.length_append] at unread
    have resumed : resume opt body (.readingBody ok closeAfter had want) (.received chunk) =
        some (.calls (.readingBody ok closeAfter (had + chunk.length) want)) := by
      rw [resume_body filled fits, drain, if_pos (by omega)]
    rw [List.map_cons, List.cons_append, post_calls resumed, List.flatten_cons, List.length_append, ← Nat.add_assoc]
    exact ih (fun c member => sized c (List.mem_cons_of_mem _ member)) (by omega)

/-- The chunk that completes the head. -/
theorem completes_head (ends : EndsHead head) (filled : chunk ≠ []) (fits : chunk.length ≤ chunkSize)
    (whole : buf ++ chunk = head ++ headEnd) :
    resume opt body (.readingHead buf) (.received chunk) =
      some (if saysChunked head then .returned (accepts (head ++ headEnd)) false
      else drain (accepts (head ++ headEnd)) (saysClose head) 0 (announced head)) := by
  have framed := frame_eq head []
  rw [List.append_nil] at framed
  have before : buf ++ chunk <+: head ++ headEnd ++ [] := by rw [List.append_nil, whole]
  rw [resume_head filled fits, read_head_eq ends before, whole, if_pos (Nat.le_refl _), framed]
  rfl

/-- The chunk that completes the body. -/
theorem completes_body {had want : Nat} (filled : chunk ≠ []) (fits : chunk.length ≤ chunkSize)
    (whole : want ≤ had + chunk.length) :
    resume opt body (.readingBody ok closeAfter had want) (.received chunk) = some (.returned ok (!closeAfter)) := by
  rw [resume_body filled fits, drain, if_neg (Nat.not_lt.mpr whole)]

end SlurmTracer.PostProofs
