import SlurmTracer.PostProofs

/-!
Reading a response does not depend on how its bytes arrive. Two loops share a
buffer and a count, and either may end in the middle of what the other looks
for: however a well framed response is cut, `post` takes all of it and nothing
more, and decides by its text alone (`read_in_any_pieces`).
-/
namespace SlurmTracer.ResponseReading
open SlurmTracer.Core Lib Lib.Search Lib.Decimal PostProofs

/-- A header block, up to its blank line, and a body that it frames by its
length. -/
structure Framed where
  head : Bytes
  body : Bytes
  /-- The first CRLFCRLF is the end of the block. -/
  ends : EndsHead head
  short : (head ++ headEnd).length ≤ 64 * 1024
  unchunked : saysChunked head = false
  /-- A decimal `Content-Length`, as `strtoul` reads it. -/
  filled : headerValue (lower head) (ascii "content-length") ≠ []
  digits : AllDigits (headerValue (lower head) (ascii "content-length"))
  length : strtoul (headerValue (lower head) (ascii "content-length")) = some body.length

namespace Framed

def stream (r : Framed) : Bytes := r.head ++ headEnd ++ r.body

def statusLine (r : Framed) : Bytes := (r.head ++ headEnd).take ((find crlf (r.head ++ headEnd)).getD 0)

end Framed

variable {opt : HttpOptions} {body : Bytes} {ok closeAfter : Bool} {chunks : List Bytes} {buf : Bytes}

/-! ### What the head says -/

theorem announced_eq (r : Framed) : announced r.head = r.body.length := by
  rw [announced, strtoulValue, signed_digits_of_digits r.digits]
  simp only [r.length]
  rfl

theorem line_in_block (head : Bytes) : (find crlf (head ++ headEnd)).isSome = true :=
  find_is_some_iff.mpr ⟨head, [13, 10], by simp [crlf, headEnd]⟩

/-! ### The two loops -/

/-- Chunks that bring nothing are none. -/
theorem nothing_left (sized : Sized chunks) (empty : chunks.flatten.length = 0) : chunks = [] := by
  have nil : chunks.flatten = [] := List.length_eq_zero_iff.mp empty
  apply List.eq_nil_iff_forall_not_mem.mpr
  intro chunk member
  exact (sized chunk member).1 (List.flatten_eq_nil_iff.mp nil chunk member)

/-- The loop over the body takes what is missing of it. -/
theorem reads_body {had want : Nat} (sized : Sized chunks) (missing : had < want)
    (whole : had + chunks.flatten.length = want) (later : List Answer) :
    post opt body (.readingBody ok closeAfter had want) (chunks.map .received ++ later) =
      some (.returned ok (!closeAfter), later) := by
  induction chunks generalizing had with
  | nil =>
    rw [List.flatten_nil, List.length_nil] at whole
    omega
  | cons chunk chunks ih =>
    obtain ⟨filled, fits⟩ := sized chunk List.mem_cons_self
    have rest : Sized chunks := fun c member => sized c (List.mem_cons_of_mem _ member)
    rw [List.flatten_cons, List.length_append] at whole
    rw [List.map_cons, List.cons_append]
    by_cases done : want ≤ had + chunk.length
    · rw [post_returned (completes_body filled fits done), nothing_left rest (by omega)]
      rfl
    · have resumed : resume opt body (.readingBody ok closeAfter had want) (.received chunk) =
          some (.calls (.readingBody ok closeAfter (had + chunk.length) want)) := by
        rw [resume_body filled fits, drain, if_pos (by omega)]
      rw [post_calls resumed]
      exact ih rest (by omega) (by omega)

/-- The loop over the head gets through it and hands the rest on. -/
theorem reads_head (r : Framed) (sized : Sized chunks) (unread : buf.length < (r.head ++ headEnd).length)
    (whole : buf ++ chunks.flatten = r.stream) (later : List Answer) :
    post opt body (.readingHead buf) (chunks.map .received ++ later) =
      some (.returned (accepts (r.head ++ headEnd)) (!saysClose r.head), later) := by
  induction chunks generalizing buf with
  | nil =>
    rw [List.flatten_nil, List.append_nil] at whole
    rw [whole, Framed.stream, List.length_append] at unread
    omega
  | cons chunk chunks ih =>
    obtain ⟨filled, fits⟩ := sized chunk List.mem_cons_self
    have rest : Sized chunks := fun c member => sized c (List.mem_cons_of_mem _ member)
    rw [List.flatten_cons, ← List.append_assoc] at whole
    have before : buf ++ chunk <+: r.head ++ headEnd ++ r.body := ⟨_, whole⟩
    have reads := read_head_eq r.ends before
    rw [List.map_cons, List.cons_append]
    by_cases reached : (r.head ++ headEnd).length ≤ (buf ++ chunk).length
    · obtain ⟨early, is, -⟩ := arrived_split before reached
      have behind : early ++ chunks.flatten = r.body := by
        rw [is, List.append_assoc] at whole
        exact List.append_cancel_left whole
      have total : early.length + chunks.flatten.length = r.body.length := by
        rw [← behind, List.length_append]
      rw [if_pos reached, is, frame_eq, r.unchunked, if_neg Bool.false_ne_true, announced_eq,
        accepts_append (line_in_block r.head)] at reads
      by_cases missing : early.length < r.body.length
      · rw [drain, if_pos missing] at reads
        have resumed : resume opt body (.readingHead buf) (.received chunk) = some _ :=
          (resume_head filled fits buf).trans (congrArg some reads)
        rw [post_calls resumed]
        exact reads_body rest missing total later
      · rw [drain, if_neg missing] at reads
        have resumed : resume opt body (.readingHead buf) (.received chunk) = some _ :=
          (resume_head filled fits buf).trans (congrArg some reads)
        rw [post_returned resumed, nothing_left rest (by omega)]
        rfl
    · have short := r.short
      rw [if_neg reached, if_neg (by omega)] at reads
      have resumed : resume opt body (.readingHead buf) (.received chunk) = some _ :=
        (resume_head filled fits buf).trans (congrArg some reads)
      rw [post_calls resumed]
      exact ih rest (by omega) whole

/-- However a framed response is cut into what `recv` returns, `post` consumes
exactly it, takes it for a success by its status line and closes the connection
by its `Connection` field. -/
theorem read_in_any_pieces (r : Framed) {opt : HttpOptions} {body : Bytes} {connected : Bool}
    {sends : List Answer}
    (requested : post opt body (enterPost opt body connected) sends = some (.calls (.readingHead []), []))
    {chunks : List Bytes} (sized : Sized chunks) (whole : chunks.flatten = r.stream) (later : List Answer) :
    ∃ ok kept, post opt body (enterPost opt body connected) (sends ++ (chunks.map .received ++ later)) =
        some (.returned ok kept, later) ∧
      (ok = true ↔ 200 ≤ parseStatusCode r.statusLine ∧ parseStatusCode r.statusLine ≤ 299) ∧
      (kept = false ↔ ascii "connection: close" <:+: lower r.head) := by
  have unread : ([] : Bytes).length < (r.head ++ headEnd).length := by simp [headEnd]
  have ran := (post_continues requested (chunks.map .received ++ later)).trans
    (reads_head r sized unread whole later)
  refine ⟨_, _, ran, ?_, ?_⟩
  · obtain ⟨i, found⟩ := Option.isSome_iff_exists.mp (line_in_block r.head)
    simp only [accepts, Framed.statusLine, found, Option.getD_some, Bool.and_eq_true, decide_eq_true_eq]
    omega
  · rw [Bool.not_eq_false', saysClose, find_is_some_iff]

/-! ### A slow acknowledgement -/

/-- A success with two bytes of body. -/
def acknowledgement : Framed where
  head := ascii "HTTP/1.1 200 OK" ++ crlf ++ ascii "Content-Length: 2"
  body := ascii "ok"
  ends := by unfold EndsHead; decide
  short := by decide
  unchunked := by decide
  filled := by decide
  digits := by decide
  length := by decide

/-- It is cut inside the end of its head. -/
theorem read_in_three_pieces :
    ∃ ok kept, post ⟨[], [], 0⟩ [] (enterPost ⟨[], [], 0⟩ [] false)
        ([.connected true, .sent (request ⟨[], [], 0⟩ []).length] ++
          ([acknowledgement.head ++ [13, 10], [13, 10, 111], [107]].map .received ++ [])) =
        some (.returned ok kept, []) ∧
      (ok = true ↔ 200 ≤ parseStatusCode acknowledgement.statusLine ∧
        parseStatusCode acknowledgement.statusLine ≤ 299) ∧
      (kept = false ↔ ascii "connection: close" <:+: lower acknowledgement.head) :=
  read_in_any_pieces acknowledgement (by decide) (by unfold Sized; decide) (by decide) []

end SlurmTracer.ResponseReading
