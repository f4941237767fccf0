import SlurmTracer.PostProofs

/-! What a `post` puts on the connection and what it takes off it. -/
namespace SlurmTracer.PostTraffic
open SlurmTracer.Core Lib PostProofs

/-- What `post` moves, call by call, until it returns. -/
def moved (bytes : Posting → Answer → Bytes) (opt : HttpOptions) (body : Bytes) : Posting → List Answer → Bytes
  | _, [] => []
  | waiting, answer :: answers =>
    match resume opt body waiting answer with
    | none => []
    | some (.calls next) => bytes waiting answer ++ moved bytes opt body next answers
    | some (.returned _ _) => bytes waiting answer

def sent (opt : HttpOptions) (body : Bytes) : Posting → List Answer → Bytes := moved written opt body

def consumed (opt : HttpOptions) (body : Bytes) : Posting → List Answer → Bytes :=
  moved (fun _ => bytesOf) opt body

variable {bytes : Posting → Answer → Bytes} {opt : HttpOptions} {body buf : Bytes} {waiting next : Posting}
  {answer : Answer} {answers : List Answer} {ok connected : Bool}

theorem moved_calls (resumed : resume opt body waiting answer = some (.calls next)) (answers : List Answer) :
    moved bytes opt body waiting (answer :: answers) = bytes waiting answer ++ moved bytes opt body next answers := by
  rw [moved, resumed]

theorem moved_returned (resumed : resume opt body waiting answer = some (.returned ok connected))
    (answers : List Answer) : moved bytes opt body waiting (answer :: answers) = bytes waiting answer := by
  rw [moved, resumed]

theorem moved_continues {sofar : List Answer} (ran : post opt body waiting sofar = some (.calls next, []))
    (answers : List Answer) :
    moved bytes opt body waiting (sofar ++ answers) =
      moved bytes opt body waiting sofar ++ moved bytes opt body next answers := by
  induction sofar generalizing waiting with
  | nil =>
    cases ran
    rfl
  | cons answer sofar ih =>
    obtain ⟨mid, resumed, ran⟩ := post_still ran
    rw [List.cons_append, moved_calls resumed, moved_calls resumed, ih ran, List.append_assoc]

/-! ### While the response is read -/

/-- `post` waits for the response. -/
def Reading : Posting → Prop
  | .readingHead _ | .readingBody .. => True
  | _ => False

/-- Once it waits for the response it goes on doing so. -/
theorem reading_calls (reading : Reading waiting) (resumed : resume opt body waiting answer = some (.calls next)) :
    Reading next := by
  cases waiting with
  | connecting => cases reading
  | sending unsent => cases reading
  | readingHead buf =>
    rcases reading_head resumed with gaveUp | ⟨chunk, -, -, reads⟩
    · cases gaveUp
    · rcases read_head_cases buf chunk with is | is | ⟨-, ⟨kept, is⟩ | ⟨closeAfter, had, want, is⟩⟩
      · cases reads.trans is
      · cases reads.trans is
        trivial
      · cases reads.trans is
      · cases reads.trans is
        trivial
  | readingBody ok closeAfter had want =>
    rcases reading_body resumed with gaveUp | ⟨chunk, -, -, drains⟩
    · cases gaveUp
    · obtain ⟨rfl, -⟩ := drain_calls drains.symm
      trivial

theorem written_reading (reading : Reading waiting) (answer : Answer) : written waiting answer = [] := by
  cases waiting with
  | connecting => cases reading
  | sending unsent => cases reading
  | _ => rfl

/-- Nothing is sent while the response is read. -/
theorem sent_reading (reading : Reading waiting) (answers : List Answer) : sent opt body waiting answers = [] := by
  induction answers generalizing waiting with
  | nil => rfl
  | cons answer answers ih =>
    have silent := written_reading reading answer
    rw [sent, moved]
    split
    · rfl
    · rename_i next resumed
      rw [silent, List.nil_append]
      exact ih (reading_calls reading resumed)
    · exact silent

/-! ### The partial-write loop -/

/-- The loop ends with everything sent, whatever each `send` took. -/
theorem sent_all {unsent : Bytes}
    (ran : post opt body (.sending unsent) answers = some (.calls (.readingHead buf), [])) :
    sent opt body (.sending unsent) answers = unsent := by
  induction answers generalizing unsent with
  | nil => cases ran
  | cons answer answers ih =>
    obtain ⟨mid, resumed, ran⟩ := post_still ran
    rw [sent, moved_calls resumed]
    rcases (sending_goes resumed).2 with gaveUp | ⟨last, whole⟩ | ⟨left, more, whole⟩
    · cases gaveUp
    · cases last
      have silent : sent opt body (.readingHead []) answers = [] := sent_reading (by trivial) answers
      rw [whole, ← sent, silent, List.append_nil]
    · cases more
      rw [← sent, ih ran]
      exact whole

/-- What a whole post sends, once its request is out, is the request. -/
theorem sent_request {sends : List Answer}
    (ran : post opt body (enterPost opt body connected) sends = some (.calls (.readingHead []), []))
    (replies : List Answer) :
    sent opt body (enterPost opt body connected) (sends ++ replies) = request opt body := by
  have silent : sent opt body (.readingHead []) replies = [] := sent_reading (by trivial) replies
  have split : sent opt body (enterPost opt body connected) (sends ++ replies) =
      sent opt body (enterPost opt body connected) sends ++ sent opt body (.readingHead []) replies :=
    moved_continues ran replies
  rw [split, silent, List.append_nil]
  cases connected with
  | true => exact sent_all ran
  | false =>
    cases sends with
    | nil => cases ran
    | cons answer sends =>
      obtain ⟨mid, resumed, ran⟩ := post_still ran
      cases answer with
      | connected up =>
        cases up <;> cases resumed
        have whole : sent opt body (.sending (request opt body)) sends = request opt body := sent_all ran
        rw [← whole]
        exact moved_calls rfl sends
      | _ => cases resumed

end SlurmTracer.PostTraffic
