import SlurmTracer.EndpointGrammar
import SlurmTracer.PostTraffic
import SlurmTracer.Lib.HttpRequest

/-!
The request as the peer reads it. It is put together from the endpoint's host
and path, which the endpoint's parser takes with whatever bytes they hold. It is
one request of the form meant, for every body and however it goes out, exactly
where the path has no blank or control byte and the host none but tabs and
spaces (`well_sent_iff`).
-/
namespace SlurmTracer.RequestForm
open SlurmTracer.Core Lib Lib.Search Lib.Decimal Lib.HttpMessage PostProofs PostTraffic EndpointGrammar

/-- A `POST` to a path, with the four fields and a body. -/
structure PostOf (r : Request) (path body : Bytes) : Prop where
  method : r.method = ascii "POST"
  target : r.target = path
  fields : r.fields.map FieldLine.name =
    [ascii "Host", ascii "Content-Type", ascii "Content-Length", ascii "Connection"]
  body : r.body = body

/-- These bytes are read back as that request and no other, with its blank line
where CRLFCRLF first occurs. -/
def OneRequest (bytes path body : Bytes) : Prop :=
  ∃ r : Request, ReadsAs bytes r ∧ PostOf r path body ∧ find headEnd bytes = some r.head.length

/-- Every post to the endpoint whose `write_all` succeeds sends one request. -/
def WellSent (e : HttpEndpoint) : Prop :=
  ∀ maxQueuedBatches body connected sends replies,
    post (e.options maxQueuedBatches) body (enterPost (e.options maxQueuedBatches) body connected) sends =
        some (.calls (.readingHead []), []) →
      OneRequest (sent (e.options maxQueuedBatches) body
        (enterPost (e.options maxQueuedBatches) body connected) (sends ++ replies)) e.path body

/-- Bytes that a request line and a field can hold. -/
structure Clean (e : HttpEndpoint) : Prop where
  path : ∀ c ∈ e.path, isVisible c = true
  host : ∀ c ∈ e.host, isTextByte c = true

variable {opt : HttpOptions} {e : HttpEndpoint} {s body path : Bytes} {r : Request}

/-! ### The request meant -/

def hostField (host : Bytes) (text : ∀ c ∈ host, isTextByte c = true) : FieldLine where
  name := ascii "Host"
  content := 32 :: host
  named := by decide
  token := List.all_eq_true.mp (by decide)
  text := List.forall_mem_cons.mpr ⟨rfl, text⟩

def typeField : FieldLine where
  name := ascii "Content-Type"
  content := ascii " application/x-ndjson"
  named := by decide
  token := List.all_eq_true.mp (by decide)
  text := List.all_eq_true.mp (by decide)

theorem digit_solid {c : UInt8} (digit : isDigit c = true) : isTextByte c = true ∧ isBlank c = false := by
  have bounds := digit_bounds digit
  simp only [isTextByte, isBlank, Bool.and_eq_true, decide_eq_true_eq, UInt8.le_iff_toNat_le, Bool.or_eq_true,
    Bool.or_eq_false_iff, decide_eq_false_iff_not, ne_eq, ← UInt8.toNat_inj, UInt8.reduceToNat]
  omega

def lengthField (length : Nat) : FieldLine where
  name := ascii "Content-Length"
  content := 32 :: toDecimal length
  named := by decide
  token := List.all_eq_true.mp (by decide)
  text := List.forall_mem_cons.mpr ⟨rfl, fun c member => (digit_solid (to_decimal_digits length c member)).1⟩

def connectionField : FieldLine where
  name := ascii "Connection"
  content := ascii " keep-alive"
  named := by decide
  token := List.all_eq_true.mp (by decide)
  text := List.all_eq_true.mp (by decide)

theorem length_value (length : Nat) : (lengthField length).value = toDecimal length :=
  trim_padded fun c member => (digit_solid (to_decimal_digits length c member)).2

/-- The request for a clean host and path. -/
def meant (host path body : Bytes) (text : ∀ c ∈ host, isTextByte c = true)
    (visible : path ≠ [] ∧ ∀ c ∈ path, isVisible c = true) : Request where
  method := ascii "POST"
  target := path
  fields := [hostField host text, typeField, lengthField body.length, connectionField]
  body
  token := ⟨by decide, List.all_eq_true.mp (by decide)⟩
  visible
  framed := by
    refine ⟨rfl, lengthField body.length, rfl, ?_, ?_, ?_⟩ <;> rw [length_value]
    · exact to_decimal_filled body.length
    · exact to_decimal_digits body.length
    · exact digits_value_to_decimal body.length

/-- It is what `post` puts together. -/
theorem meant_wire (text : ∀ c ∈ opt.host, isTextByte c = true)
    (visible : opt.path ≠ [] ∧ ∀ c ∈ opt.path, isVisible c = true) (body : Bytes) :
    (meant opt.host opt.path body text visible).wire = request opt body := by
  simp [Request.wire, Request.head, Request.requestLine, meant, request, FieldLine.line, hostField, typeField,
    lengthField, connectionField, lineEnd, blankLine, crlf, headEnd, ascii]

/-! ### The request read back -/

/-- What is read back has the path for its target. -/
theorem visible_of_one {bytes : Bytes} (one : OneRequest bytes path body) : ∀ c ∈ path, isVisible c = true := by
  obtain ⟨r, -, postOf, -⟩ := one
  rw [← postOf.target]
  exact r.visible.2

theorem four_fields (postOf : PostOf r path body) :
    ∃ f₁ f₂ f₃ f₄, r.fields = [f₁, f₂, f₃, f₄] ∧ f₁.name = ascii "Host" := by
  have names := postOf.fields
  have four := congrArg List.length names
  rw [List.length_map] at four
  match r.fields, names, four with
  | [f₁, f₂, f₃, f₄], names, _ => exact ⟨f₁, f₂, f₃, f₄, rfl, (List.cons.inj names).1⟩

/-- What is read back has the host in its first field. -/
theorem text_of_one (one : OneRequest (request opt []) opt.path []) : ∀ c ∈ opt.host, isTextByte c = true := by
  obtain ⟨r, reads, postOf, -⟩ := one
  have wire : request opt [] = r.wire ++ [] := (reads r []).mpr ⟨rfl, rfl⟩
  rw [List.append_nil] at wire
  obtain ⟨f₁, f₂, f₃, f₄, fields, name⟩ := four_fields postOf
  -- Behind the colon of the first field.
  let tail := ascii "Content-Type: application/x-ndjson" ++ crlf ++ ascii "Content-Length: " ++ toDecimal 0 ++ crlf ++
    ascii "Connection: keep-alive" ++ headEnd
  have behind : 32 :: (opt.host ++ 13 :: 10 :: tail) =
      f₁.content ++ 13 :: 10 :: (f₂.line ++ lineEnd ++ f₃.line ++ lineEnd ++ f₄.line ++ blankLine) := by
    rw [Request.wire, Request.head, Request.requestLine, postOf.method, postOf.target, postOf.body, fields] at wire
    simp only [request, FieldLine.line, name, List.flatMap_cons, List.flatMap_nil] at wire
    simpa [ascii, crlf, lineEnd, tail, FieldLine.line] using wire
  -- Each side has as many carriage returns, so the host has none.
  have none : ∀ f : FieldLine, f.line.count 13 = 0 := fun f => List.count_eq_zero.mpr f.line_clean.2
  have free : (13 : UInt8) ∉ f₁.content := fun member => absurd (f₁.text 13 member) (by decide)
  have clean : (13 : UInt8) ∉ 32 :: opt.host := by
    have four : tail.count 13 = 4 := by decide
    have returns := congrArg (List.count (13 : UInt8)) behind
    simp only [List.count_append, List.count_cons, none, List.count_eq_zero.mpr free, four, lineEnd, blankLine,
      List.count_nil] at returns
    have fewer : opt.host.count 13 = 0 := by simpa using returns
    simpa using List.count_eq_zero.mp fewer
  obtain ⟨content, -⟩ := split_unique clean free behind
  intro c member
  exact f₁.text c (content ▸ List.mem_cons_of_mem 32 member)

/-! ### Every accepted endpoint -/

theorem path_filled (parsed : parseHttpEndpoint s = some e) : e.path ≠ [] := by
  have filled : ∀ {text path}, PathText text path → path ≠ [] := by
    intro text path is
    cases is <;> exact List.cons_ne_nil _ _
  obtain ⟨port, path, -, -, -, isPath⟩ := denotes_of_parse parsed
  exact filled isPath

/-- A request can always go out. -/
theorem goes_out (opt : HttpOptions) (body : Bytes) :
    ∃ sends, post opt body (enterPost opt body true) sends = some (.calls (.readingHead []), []) :=
  ⟨[.sent (request opt body).length], post_calls (sends_all opt body (request_filled opt body)) []⟩

/-- A parsed endpoint gets well formed requests, whatever the bodies and the
partial sends, if and only if its path and its host are clean. -/
theorem well_sent_iff (parsed : parseHttpEndpoint s = some e) : WellSent e ↔ Clean e := by
  constructor
  · intro well
    obtain ⟨sends, out⟩ := goes_out (e.options 0) []
    have one := well 0 [] true sends [] out
    rw [sent_request out []] at one
    exact ⟨visible_of_one one, text_of_one one⟩
  · intro clean maxQueuedBatches body connected sends replies out
    have visible : e.path ≠ [] ∧ ∀ c ∈ e.path, isVisible c = true := ⟨path_filled parsed, clean.path⟩
    have whole : request (e.options maxQueuedBatches) body = (meant e.host e.path body clean.host visible).wire :=
      (meant_wire clean.host visible body).symm
    rw [sent_request out replies, whole]
    exact ⟨_, Request.wire_reads _, ⟨rfl, rfl, rfl, rfl⟩, Request.find_head_end _⟩

theorem well_sent_iff_collector :
    WellSent ⟨ascii "collector", 9000, ascii "/ingest"⟩ ↔ Clean ⟨ascii "collector", 9000, ascii "/ingest"⟩ :=
  have parsed : parseHttpEndpoint (ascii "http://collector:9000/ingest") =
      some ⟨ascii "collector", 9000, ascii "/ingest"⟩ := by decide
  well_sent_iff parsed

/-- A path with a space makes a request line of four parts. -/
theorem blank_in_path :
    parseHttpEndpoint (ascii "http://h/a b") = some ⟨ascii "h", 80, ascii "/a b"⟩ ∧
      post ⟨ascii "h", ascii "/a b", 1024⟩ [] (enterPost ⟨ascii "h", ascii "/a b", 1024⟩ [] true)
        [.sent (request ⟨ascii "h", ascii "/a b", 1024⟩ []).length] = some (.calls (.readingHead []), []) ∧
      ¬ OneRequest (sent ⟨ascii "h", ascii "/a b", 1024⟩ [] (enterPost ⟨ascii "h", ascii "/a b", 1024⟩ [] true)
        [.sent (request ⟨ascii "h", ascii "/a b", 1024⟩ []).length]) (ascii "/a b") [] := by
  refine ⟨by decide, by decide, fun one => ?_⟩
  exact absurd (visible_of_one one 32 (by decide)) (by decide)

end SlurmTracer.RequestForm
