import SlurmTracer.PostProofs
import SlurmTracer.Lib.HttpMessage

/-!
A kept-alive connection and its responses. `post` finds the end of a response
by searching the lowered head for three texts, not by reading its fields, and
what it leaves behind is the beginning of the next answer it reads. It keeps in
step with a response exactly where it gives the connection up anyway, or the
first number after `content-length:` is the length of the body (`in_step_iff`):
a smaller one leaves the end of the body on the connection, a larger one takes
bytes that come after it.
-/
namespace SlurmTracer.ResponseFraming
open SlurmTracer.Core Lib Lib.Search Lib.HttpMessage PostProofs

/-- However the response arrives, on whatever connection, and whatever the
peer sends after it: if `post` returns and leaves the connection open, it has
taken the response's bytes from it and no others. What follows comes by calls
of its own (`later`). -/
def InStep (r : Response) : Prop :=
  ∀ opt body connected answers later ok rest, received answers = r.wire →
    post opt body (enterPost opt body connected) (answers ++ later) = some (.returned ok true, rest) →
      ∃ taken, answers ++ later = taken ++ rest ∧ received taken = r.wire

/-- The connection is given up with this response, or its body is as long as
it is taken to be. -/
def Safe (r : Response) : Prop :=
  longestBlock < (r.head ++ headEnd).length ∨ saysClose r.head = true ∨ saysChunked r.head = true ∨
    announced r.head = r.body.length

/-- The first blank line is where `post` looks for it. -/
theorem ends_head (r : Response) : EndsHead r.head := by
  have found : find headEnd (r.head ++ headEnd ++ r.body) = some r.head.length := r.find_head_end
  exact find_front found (by simp)

/-- The answers read after the request is out are the end of all: those that
bring the response, and what follows them. -/
theorem replies_split {wire : Bytes} {answers later replies : List Answer} (filled : wire ≠ [])
    (delivers : received answers = wire) (isEnd : replies <:+ answers ++ later)
    (same : received replies = received (answers ++ later)) :
    ∃ first, replies = first ++ later ∧ received first = wire := by
  obtain ⟨before, whole⟩ := isEnd
  rw [received_append, delivers] at same
  rcases List.append_eq_append_iff.mp whole with ⟨first, -, rfl⟩ | ⟨between, -, rfl⟩
  · rw [received_append] at same
    exact ⟨first, rfl, List.append_cancel_right same⟩
  · have size := congrArg List.length same
    rw [received_append, List.length_append, List.length_append] at size
    have some' := List.length_pos_iff.mpr filled
    omega

theorem in_step_of_safe {r : Response} (safe : Safe r) : InStep r := by
  intro opt body connected answers later ok rest delivers ran
  obtain ⟨taken, whole⟩ := post_rest ran
  refine ⟨taken, whole.symm, ?_⟩
  obtain ⟨replies, isEnd, same, ran⟩ := (entered ran).resolve_left (by simp)
  have shape : r.wire = r.head ++ headEnd ++ r.body := rfl
  obtain ⟨first, rfl, brings⟩ := replies_split (by simp [shape, headEnd]) delivers isEnd same
  have stream : [] ++ received (first ++ later) = r.head ++ headEnd ++ (r.body ++ received later) := by
    rw [List.nil_append, received_append, brings, shape, List.append_assoc _ r.body]
  have filled : ([] : Bytes).length < (r.head ++ headEnd).length := by simp [headEnd]
  obtain ⟨short, notChunked, notClosed, bound⟩ := kept_open (ends_head r) stream (by decide) filled ran
  rcases safe with long | closed | chunked | exactly
  · omega
  · cases closed.symm.trans notClosed
  · cases chunked.symm.trans notChunked
  · -- `later` is left, and no more than it can be
    have left : received later = received rest := by
      obtain ⟨more, rfl⟩ := read_by (ends_head r) (brings.trans shape) filled exactly.le ran
      rw [List.length_append, received_append, List.length_append] at bound
      have none : (received more).length = 0 := by omega
      rw [received_append, List.length_eq_zero_iff.mp none, List.nil_append]
    have total := congrArg received whole
    rw [received_append, received_append, delivers, left] at total
    exact List.append_cancel_right total

/-! ### A slow peer -/

/-- Bytes that arrive one by one. -/
def singles (bytes : Bytes) : List Bytes := bytes.map fun c => [c]

theorem flatten_singles (bytes : Bytes) : (singles bytes).flatten = bytes := by
  induction bytes with
  | nil => rfl
  | cons c bytes ih => rw [singles, List.map_cons, List.flatten_cons, ← singles, ih, List.singleton_append]

theorem sized_singles (bytes : Bytes) : Sized (singles bytes) := by
  intro chunk member
  obtain ⟨c, -, rfl⟩ := List.mem_map.mp member
  exact ⟨by simp, by simp [chunkSize]⟩

theorem received_map (chunks : List Bytes) (answers : List Answer) :
    received (chunks.map .received ++ answers) = chunks.flatten ++ received answers := by
  induction chunks with
  | nil => rfl
  | cons chunk chunks ih =>
    rw [List.map_cons, List.cons_append, received_cons, ih, List.flatten_cons, List.append_assoc, bytesOf]

theorem received_singles (bytes : Bytes) : received ((singles bytes).map .received) = bytes := by
  have whole := received_map (singles bytes) []
  rw [List.append_nil, flatten_singles] at whole
  exact whole.trans (List.append_nil bytes)

/-- Of bytes that come one by one, `post` takes as many as it takes the body to
have. -/
theorem takes_announced {opt : HttpOptions} {body : Bytes} {waiting : Posting} {answer : Answer} {ok : Bool}
    {want : Nat} (resumed : resume opt body waiting answer = some (drain ok false 0 want)) {bytes : Bytes}
    (enough : want ≤ bytes.length) :
    post opt body waiting (answer :: (singles bytes).map .received) =
      some (.returned ok true, (singles (bytes.drop want)).map .received) := by
  cases want with
  | zero => exact post_returned resumed _
  | succ k =>
    have early : (bytes.take k).length = k := List.length_take_of_le (by omega)
    have split : bytes = bytes.take k ++ (bytes[k] :: bytes.drop (k + 1)) := by simp
    have calls : drain ok false 0 (k + 1) = .calls (.readingBody ok false 0 (k + 1)) := if_pos (Nat.succ_pos k)
    have singly : (singles bytes).map Answer.received = (singles (bytes.take k)).map .received ++
        .received [bytes[k]] :: (singles (bytes.drop (k + 1))).map .received := by
      nth_rewrite 1 [split]
      simp only [singles, List.map_append, List.map_cons]
    have last : k + 1 ≤ 0 + (bytes.take k).length + [bytes[k]].length := by
      rw [early, List.length_singleton]
      omega
    rw [calls] at resumed
    rw [post_calls resumed, singly, counts (sized_singles _) (by rw [flatten_singles, early]; omega), flatten_singles]
    exact post_returned (completes_body (by simp) (by simp [chunkSize]) last) _

/-- A head comes byte by byte as far as its length is let pass, and the rest of
it in one chunk. -/
theorem slow_head {block : Bytes} (filled : block ≠ []) (fits : block.length ≤ longestBlock) :
    ∃ front last : Bytes, front ++ last = block ∧ last ≠ [] ∧ last.length ≤ chunkSize ∧ front.length ≤ 64 * 1024 := by
  have some' := List.length_pos_iff.mpr filled
  have frontLength : (block.take (min (block.length - 1) (64 * 1024))).length = min (block.length - 1) (64 * 1024) :=
    List.length_take_of_le (by omega)
  have lastLength :
      (block.drop (min (block.length - 1) (64 * 1024))).length = block.length - min (block.length - 1) (64 * 1024) :=
    List.length_drop
  simp only [longestBlock, chunkSize] at fits ⊢
  refine ⟨_, _, List.take_append_drop (min (block.length - 1) (64 * 1024)) block, ?_, ?_, ?_⟩
  · exact List.ne_nil_of_length_pos (by omega)
  · omega
  · omega

/-- Where the head arrives slowly and nothing is known to follow it, `post`
goes on as it does with a head that came whole. -/
theorem through_slow_head (opt : HttpOptions) (body : Bytes) {head front last : Bytes} (ends : EndsHead head)
    (whole : front ++ last = head ++ headEnd) (filled : last ≠ []) (fits : last.length ≤ chunkSize)
    (short : front.length ≤ 64 * 1024) (notChunked : saysChunked head = false) (notClosed : saysClose head = false)
    (answers : List Answer) :
    post opt body (.readingHead []) ((singles front).map .received ++ .received last :: answers) =
        post opt body (.readingHead front) (.received last :: answers) ∧
      resume opt body (.readingHead front) (.received last) =
        some (drain (accepts (head ++ headEnd)) false 0 (announced head)) := by
  have behind := List.length_pos_iff.mpr filled
  have size : (head ++ headEnd).length = front.length + last.length := by rw [← whole, List.length_append]
  have before : [] ++ (singles front).flatten <+: head ++ headEnd ++ [] := by
    rw [flatten_singles, List.nil_append, List.append_nil, ← whole]
    exact List.prefix_append _ _
  constructor
  · rw [gathers ends (sized_singles front) before, flatten_singles, List.nil_append]
    · rw [flatten_singles, List.nil_append]
      omega
    · rw [flatten_singles, List.nil_append]
      exact short
  · rw [completes_head ends filled fits whole, notChunked, if_neg Bool.false_ne_true, notClosed]

theorem safe_of_in_step {r : Response} (inStep : InStep r) : Safe r := by
  by_contra risky
  simp only [Safe, not_or, Bool.not_eq_true, Nat.not_lt] at risky
  obtain ⟨fits, notClosed, notChunked, differs⟩ := risky
  obtain ⟨front, last, whole, filled, sized, short⟩ := slow_head (by simp [headEnd]) fits
  -- As many bytes follow the response as `post` takes its body to be longer.
  let extra : Bytes := List.replicate (announced r.head - r.body.length) 0
  have enough : announced r.head ≤ (r.body ++ extra).length := by
    rw [List.length_append, List.length_replicate]
    omega
  obtain ⟨gathered, completes⟩ := through_slow_head ⟨[], [], 0⟩ [] (ends_head r) whole filled sized short notChunked
    notClosed ((singles (r.body ++ extra)).map .received)
  have read := gathered.trans (takes_announced completes enough)
  have sent := post_calls (sends_all ⟨[], [], 0⟩ [] (request_filled ⟨[], [], 0⟩ []))
    ((singles front).map .received ++ .received last :: (singles (r.body ++ extra)).map .received)
  let answers : List Answer := .sent (request ⟨[], [], 0⟩ []).length ::
    ((singles front).map .received ++ .received last :: (singles r.body).map .received)
  have together : answers ++ (singles extra).map .received = .sent (request ⟨[], [], 0⟩ []).length ::
      ((singles front).map .received ++ .received last :: (singles (r.body ++ extra)).map .received) := by
    simp [answers, singles]
  have delivers : received answers = r.wire := by
    change received ((singles front).map .received ++ .received last :: (singles r.body).map .received) = r.wire
    rw [received_map, flatten_singles, received_cons, received_singles, bytesOf, ← List.append_assoc, whole]
    rfl
  have ran := sent.trans read
  rw [← together] at ran
  obtain ⟨taken, split, exactly⟩ := inStep _ [] true _ _ _ _ delivers ran
  have size := congrArg (fun bytes => (received bytes).length) split
  simp only [received_append, delivers, exactly, List.length_append, received_singles, List.length_drop] at size
  have extraLength : extra.length = announced r.head - r.body.length := List.length_replicate
  omega

/-- `post` keeps in step with a response, however it arrives and whatever
follows, exactly if it closes the connection after it or takes its body to be
as long as it is. -/
theorem in_step_iff (r : Response) : InStep r ↔ Safe r := ⟨safe_of_in_step, in_step_of_safe⟩

/-! ### A coding without a space -/

/-- `Transfer-Encoding:chunked`. -/
def unspacedCoding : FieldLine where
  name := ascii "Transfer-Encoding"
  content := ascii "chunked"
  named := by decide
  token := List.all_eq_true.mp (by decide)
  text := List.all_eq_true.mp (by decide)

/-- A success with a body of one chunk. -/
def unspaced : Response where
  status := ascii "200"
  reason := ascii "OK"
  fields := [unspacedCoding]
  body := ascii "2" ++ [] ++ lineEnd ++ ascii "ok" ++ lineEnd ++ (ascii "0" ++ [] ++ lineEnd ++ [] ++ lineEnd)
  digits := ⟨rfl, List.all_eq_true.mp (by decide)⟩
  final := ⟨50, by decide⟩
  bodied := by decide
  text := List.all_eq_true.mp (by decide)
  framed := Or.inl {
    coded := by decide
    noLength := by decide
    chunked :=
      have bare : Extension [] := ⟨nofun, nofun⟩
      .chunk (ascii "2") [] (ascii "ok") _ (by decide) (List.all_eq_true.mp (by decide)) (by decide) bare
        (.last (ascii "0") [] [] (by decide) (List.forall_mem_singleton.mpr rfl) bare) }

/-- Its body is left on the connection. -/
theorem unspaced_coding_out_of_step : ¬ ∀ r : Response, InStep r := by
  intro always
  have safe := safe_of_in_step (always unspaced)
  unfold Safe at safe
  exact absurd safe (by decide)

end SlurmTracer.ResponseFraming
