import SlurmTracer.Lib.HttpMessage

/-! HTTP/1.1 requests as they stand on the wire. A stream begins with at most
one of them (`Request.wire_unique`). -/
namespace SlurmTracer.Lib.HttpMessage
open Lib.Search

/-- A byte of a request target: neither blank nor control. -/
def isVisible (c : UInt8) : Bool := 33 ≤ c && c ≠ 127

/-- A request with a body that its fields frame by its length. -/
structure Request where
  method : Bytes
  target : Bytes
  fields : List FieldLine
  body : Bytes
  token : method ≠ [] ∧ ∀ c ∈ method, isTokenByte c = true
  visible : target ≠ [] ∧ ∀ c ∈ target, isVisible c = true
  framed : ByLength fields body

namespace Request

/-- Three parts with a space between. -/
def requestLine (r : Request) : Bytes := r.method ++ 32 :: (r.target ++ 32 :: ascii "HTTP/1.1")

/-- The request line and the field lines, up to the blank line. -/
def head (r : Request) : Bytes := r.requestLine ++ r.fields.flatMap fun f => lineEnd ++ f.line

def wire (r : Request) : Bytes := r.head ++ blankLine ++ r.body

end Request

/-- Taken as a request, the bytes are this one, and nothing follows it. -/
def ReadsAs (bytes : Bytes) (r : Request) : Prop := ∀ r' rest, bytes = r'.wire ++ rest ↔ r' = r ∧ rest = []

/-! ### Lines -/

/-- Lines without line ends are told apart. -/
theorem lines_unique {first first' : Bytes} {lines lines' : List Bytes} (free : (13 : UInt8) ∉ first)
    (free' : (13 : UInt8) ∉ first') (clean : ∀ l ∈ lines, (13 : UInt8) ∉ l) (clean' : ∀ l ∈ lines', (13 : UInt8) ∉ l)
    (same : first ++ lines.flatMap (lineEnd ++ ·) = first' ++ lines'.flatMap (lineEnd ++ ·)) :
    first = first' ∧ lines = lines' := by
  induction lines generalizing first first' lines' with
  | nil =>
    cases lines' with
    | nil => exact ⟨by simpa using same, rfl⟩
    | cons l lines' =>
      rw [List.flatMap_nil, List.append_nil] at same
      exact absurd (by simp [same, lineEnd]) free
  | cons l lines ih =>
    cases lines' with
    | nil =>
      rw [List.flatMap_nil, List.append_nil] at same
      exact absurd (by simp [← same, lineEnd]) free'
    | cons l' lines' =>
      obtain ⟨is, behind⟩ := split_unique free free' same
      obtain ⟨isLine, areLines⟩ := ih (clean l List.mem_cons_self) (clean' l' List.mem_cons_self)
        (fun l member => clean l (List.mem_cons_of_mem _ member))
        (fun l member => clean' l (List.mem_cons_of_mem _ member)) (List.cons.inj behind).2
      exact ⟨is, by rw [isLine, areLines]⟩

/-- The first colon ends the name. -/
theorem FieldLine.line_inj {f f' : FieldLine} (same : f.line = f'.line) : f = f' := by
  have free : ∀ f : FieldLine, (58 : UInt8) ∉ f.name := fun f member => absurd (f.token 58 member) (by decide)
  obtain ⟨name, content⟩ := split_unique (free f) (free f') same
  cases f
  cases f'
  cases name
  cases content
  rfl

/-- What a blank before it hides of a text without blanks. -/
theorem trim_padded {text : Bytes} (solid : ∀ c ∈ text, isBlank c = false) : trim (32 :: text) = text := by
  have kept : ∀ l : Bytes, (∀ c ∈ l, isBlank c = false) → l.dropWhile isBlank = l := by
    intro l none
    cases l with
    | nil => rfl
    | cons c l => simp [none c List.mem_cons_self]
  have blank : (32 :: text).dropWhile isBlank = text.dropWhile isBlank := rfl
  rw [trim, blank, kept text solid, kept text.reverse fun c member => solid c (List.mem_reverse.mp member),
    List.reverse_reverse]

/-! ### One reading -/

namespace Request

variable {r r' : Request} {rest rest' : Bytes}

theorem token_free (r : Request) : (32 : UInt8) ∉ r.method ∧ (13 : UInt8) ∉ r.method :=
  ⟨fun member => absurd (r.token.2 32 member) (by decide), fun member => absurd (r.token.2 13 member) (by decide)⟩

theorem target_free (r : Request) : (32 : UInt8) ∉ r.target ∧ (13 : UInt8) ∉ r.target :=
  ⟨fun member => absurd (r.visible.2 32 member) (by decide), fun member => absurd (r.visible.2 13 member) (by decide)⟩

theorem request_line_clean (r : Request) : (13 : UInt8) ∉ r.requestLine := by
  have version : (13 : UInt8) ∉ ascii "HTTP/1.1" := by decide
  simp [requestLine, r.token_free.2, r.target_free.2, version]

theorem find_head_end (r : Request) : find blankLine r.wire = some r.head.length :=
  find_fields_end r.request_line_clean r.fields r.body

/-- A head says what the request is, all but the body. -/
theorem head_unique (same : r.head = r'.head) :
    r.method = r'.method ∧ r.target = r'.target ∧ r.fields = r'.fields := by
  have clean : ∀ r : Request, ∀ l ∈ r.fields.map FieldLine.line, (13 : UInt8) ∉ l := by
    intro r l member
    obtain ⟨f, -, rfl⟩ := List.mem_map.mp member
    exact f.line_clean.2
  have lined : ∀ r : Request, r.head = r.requestLine ++ (r.fields.map FieldLine.line).flatMap (lineEnd ++ ·) := by
    intro r
    rw [List.flatMap_map]
    rfl
  rw [lined r, lined r'] at same
  obtain ⟨line, lines⟩ := lines_unique r.request_line_clean r'.request_line_clean (clean r) (clean r') same
  obtain ⟨method, behind⟩ := split_unique r.token_free.1 r'.token_free.1 line
  obtain ⟨target, -⟩ := split_unique r.target_free.1 r'.target_free.1 behind
  exact ⟨method, target, List.map_injective_iff.mpr (fun _ _ => FieldLine.line_inj) lines⟩

/-- No stream begins with two requests. -/
theorem wire_unique (same : r.wire ++ rest = r'.wire ++ rest') : r = r' ∧ rest = rest' := by
  have found := find_append r.find_head_end rest
  rw [same, find_append r'.find_head_end rest'] at found
  have split : ∀ (r : Request) rest, r.wire ++ rest = r.head ++ (blankLine ++ (r.body ++ rest)) := by
    intro r rest
    simp only [wire, List.append_assoc]
  rw [split r, split r'] at same
  obtain ⟨heads, behind⟩ := List.append_inj same (Option.some.inj found).symm
  have bodies := List.append_cancel_left behind
  obtain ⟨method, target, fields⟩ := head_unique heads
  obtain ⟨f, held, -, -, length⟩ := r.framed.once
  obtain ⟨f', held', -, -, length'⟩ := r'.framed.once
  rw [fields, held'] at held
  cases held
  obtain ⟨body, tail⟩ := List.append_inj bodies (length.symm.trans length')
  refine ⟨?_, tail⟩
  cases r
  cases r'
  cases method
  cases target
  cases fields
  cases body
  rfl

/-- What is sent is read back. -/
theorem wire_reads (r : Request) : ReadsAs r.wire r := by
  intro r' rest
  constructor
  · intro same
    rw [← List.append_nil r.wire] at same
    obtain ⟨rfl, nothing⟩ := wire_unique same
    exact ⟨rfl, nothing.symm⟩
  · rintro ⟨rfl, rfl⟩
    exact (List.append_nil _).symm

end Request

end SlurmTracer.Lib.HttpMessage
