import SlurmTracer.Lib.Bytes
import SlurmTracer.Lib.Search

/-! HTTP/1.1 responses as they stand on the wire: a status line, field lines, a
blank line and a body that the fields frame. Whatever a sender may generate is
a `Response`; chunk extensions are taken more liberally than that. -/
namespace SlurmTracer.Lib.HttpMessage
open Lib.Search

/-! ### Bytes and lines -/

/-- The end of a line. -/
def lineEnd : Bytes := [13, 10]

/-- Two line ends in a row, which end the head. -/
def blankLine : Bytes := [13, 10, 13, 10]

def isBlank (c : UInt8) : Bool := c = 32 || c = 9

/-- A byte of a field name. -/
def isTokenByte (c : UInt8) : Bool :=
  isDigit c || (65 ≤ c && c ≤ 90) || (97 ≤ c && c ≤ 122) || (ascii "!#$%&'*+-.^_|~").contains c || c = 96

/-- A byte of a field value or a reason phrase: no control but the tab. -/
def isTextByte (c : UInt8) : Bool := c = 9 || (32 ≤ c && c ≠ 127)

/-- A letter in lower case. -/
def foldByte (c : UInt8) : UInt8 := if 65 ≤ c ∧ c ≤ 90 then c + 32 else c

def trim (text : Bytes) : Bytes := ((text.dropWhile isBlank).reverse.dropWhile isBlank).reverse

/-- `name:` and whatever follows on the line. -/
structure FieldLine where
  name : Bytes
  content : Bytes
  named : name ≠ []
  token : ∀ c ∈ name, isTokenByte c = true
  text : ∀ c ∈ content, isTextByte c = true

namespace FieldLine

def line (f : FieldLine) : Bytes := f.name ++ 58 :: f.content

/-- The value, without the optional blanks around it. -/
def value (f : FieldLine) : Bytes := trim f.content

/-- Names are compared without regard to case. -/
def named? (f : FieldLine) (name : Bytes) : Bool := f.name.map foldByte = name

end FieldLine

/-! ### Bodies -/

def isHexDigit (c : UInt8) : Bool := isDigit c || (65 ≤ c && c ≤ 70) || (97 ≤ c && c ≤ 102)

def hexDigitValue (c : UInt8) : Nat :=
  if isDigit c then c.toNat - 48 else if c ≤ 70 then c.toNat - 55 else c.toNat - 87

def hexValue (digits : Bytes) : Nat := digits.foldl (fun value c => 16 * value + hexDigitValue c) 0

/-- What may stand between a chunk's size and the end of its line. -/
structure Extension (text : Bytes) : Prop where
  apart : ∀ c, text.head? = some c → c = 59 ∨ isBlank c = true
  text : ∀ c ∈ text, isTextByte c = true

/-- A body in chunks, from the next chunk on. -/
inductive Chunked : Bytes → Prop where
  | last (zeros extension : Bytes) (trailers : List FieldLine) (filled : zeros ≠ []) (zero : ∀ c ∈ zeros, c = 48)
      (allowed : Extension extension) :
      Chunked (zeros ++ extension ++ lineEnd ++ (trailers.flatMap fun f => f.line ++ lineEnd) ++ lineEnd)
  | chunk (size extension data rest : Bytes) (filled : data ≠ []) (hex : ∀ c ∈ size, isHexDigit c = true)
      (sized : hexValue size = data.length) (allowed : Extension extension) (more : Chunked rest) :
      Chunked (size ++ extension ++ lineEnd ++ data ++ lineEnd ++ rest)

/-- The last coding of a `Transfer-Encoding` value. -/
def lastCoding (value : Bytes) : Bytes := (trim (value.reverse.takeWhile (· ≠ 44)).reverse).map foldByte

/-- The last of the transfer codings is `chunked`, and the body is in chunks. -/
structure ByChunks (fields : List FieldLine) (body : Bytes) : Prop where
  coded : ((fields.filter (·.named? (ascii "transfer-encoding"))).getLast?.map fun f => lastCoding f.value) =
    some (ascii "chunked")
  noLength : fields.filter (·.named? (ascii "content-length")) = []
  chunked : Chunked body

/-- There is one `Content-Length`, and it is the body's. -/
structure ByLength (fields : List FieldLine) (body : Bytes) : Prop where
  uncoded : fields.filter (·.named? (ascii "transfer-encoding")) = []
  once : ∃ f, fields.filter (·.named? (ascii "content-length")) = [f] ∧ f.value ≠ [] ∧
    (∀ c ∈ f.value, isDigit c = true) ∧ digitsValue f.value = body.length

/-! ### Responses -/

/-- A final response with a body that its fields frame. -/
structure Response where
  /-- The three digits of the status code. -/
  status : Bytes
  reason : Bytes
  fields : List FieldLine
  body : Bytes
  digits : status.length = 3 ∧ ∀ c ∈ status, isDigit c = true
  final : ∃ c, status.head? = some c ∧ 50 ≤ c ∧ c ≤ 53
  bodied : status ≠ ascii "204" ∧ status ≠ ascii "304"
  text : ∀ c ∈ reason, isTextByte c = true
  framed : ByChunks fields body ∨ ByLength fields body

namespace Response

def statusLine (r : Response) : Bytes := ascii "HTTP/1.1 " ++ r.status ++ 32 :: r.reason

/-- The status line and the field lines, up to the blank line. -/
def head (r : Response) : Bytes := r.statusLine ++ r.fields.flatMap fun f => lineEnd ++ f.line

def wire (r : Response) : Bytes := r.head ++ blankLine ++ r.body

end Response

/-! ### Where the head ends -/

/-- Lines that are not empty hold no blank line. -/
theorem find_blank_line {first : Bytes} {lines : List Bytes} (clean : (13 : UInt8) ∉ first)
    (ok : ∀ l ∈ lines, l ≠ [] ∧ (13 : UInt8) ∉ l) (rest : Bytes) :
    find blankLine (first ++ lines.flatMap (lineEnd ++ ·) ++ blankLine ++ rest) =
      some (first ++ lines.flatMap (lineEnd ++ ·)).length := by
  induction lines generalizing first with
  | nil =>
    rw [List.flatMap_nil, List.append_nil, List.append_assoc, blankLine, find_skip clean]
    simp [find, List.isPrefixOf]
  | cons l lines ih =>
    obtain ⟨some', free⟩ := ok l List.mem_cons_self
    have below := ih free fun l member => ok l (List.mem_cons_of_mem _ member)
    obtain ⟨c, l, rfl⟩ := List.exists_cons_of_ne_nil some'
    have differs : (13 : UInt8) ≠ c := fun same => free (same ▸ List.mem_cons_self)
    have shape : first ++ ((c :: l) :: lines).flatMap (lineEnd ++ ·) ++ blankLine ++ rest =
        first ++ (13 :: 10 :: (c :: l ++ lines.flatMap (lineEnd ++ ·) ++ blankLine ++ rest)) := by
      simp [lineEnd]
    rw [shape, blankLine, find_skip clean, ← blankLine, find, find, below]
    simp [blankLine, List.isPrefixOf, differs, lineEnd]
    omega

private theorem text_clean {text : Bytes} (ok : ∀ c ∈ text, isTextByte c = true) : (13 : UInt8) ∉ text :=
  fun member => absurd (ok 13 member) (by decide)

theorem FieldLine.line_clean (f : FieldLine) : f.line ≠ [] ∧ (13 : UInt8) ∉ f.line := by
  refine ⟨by simp [FieldLine.line], fun member => ?_⟩
  rcases List.mem_append.mp member with inName | later
  · exact absurd (f.token 13 inName) (by decide)
  · rcases List.mem_cons.mp later with colon | inContent
    · exact absurd colon (by decide)
    · exact text_clean f.text inContent

theorem Response.status_line_clean (r : Response) : (13 : UInt8) ∉ r.statusLine := by
  intro member
  rcases List.mem_append.mp member with front | later
  · rcases List.mem_append.mp front with version | code
    · exact absurd version (by decide)
    · exact absurd (r.digits.2 13 code) (by decide)
  · rcases List.mem_cons.mp later with blank | inReason
    · exact absurd blank (by decide)
    · exact text_clean r.text inReason

/-- The first blank line behind a start line and field lines. -/
theorem find_fields_end {first : Bytes} (clean : (13 : UInt8) ∉ first) (fields : List FieldLine) (rest : Bytes) :
    find blankLine (first ++ (fields.flatMap fun f => lineEnd ++ f.line) ++ blankLine ++ rest) =
      some (first ++ fields.flatMap fun f => lineEnd ++ f.line).length := by
  have lines : ∀ l ∈ fields.map FieldLine.line, l ≠ [] ∧ (13 : UInt8) ∉ l := by
    intro l member
    obtain ⟨f, -, rfl⟩ := List.mem_map.mp member
    exact f.line_clean
  have found := find_blank_line clean lines rest
  rw [List.flatMap_map] at found
  exact found

/-- The first blank line of a response ends its head. -/
theorem Response.find_head_end (r : Response) : find blankLine r.wire = some r.head.length :=
  find_fields_end r.status_line_clean r.fields r.body

end SlurmTracer.Lib.HttpMessage
