import Mathlib.Data.Int.ModEq
import SlurmTracer.PostProofs

/-!
Status lines. `parse_status_code` looks at what stands between the first two
spaces and at nothing else, and `atoi` takes as much of that as it likes. A line
is judged by the form of a status line exactly where it has that form or the
number read off it is a multiple of 2^32, as none at all is (`exact_iff`).
-/
namespace SlurmTracer.StatusLines
open SlurmTracer.Core Lib Lib.Search Lib.Decimal PostProofs

/-! ### The form -/

/-- `HTTP/1.x`, a space, three digits, and the end of the line or a space. -/
def StatusLine (line : Bytes) (code : Int) : Prop :=
  ∃ minor digits tail, line = ascii "HTTP/1." ++ minor :: 32 :: (digits ++ tail) ∧ isDigit minor = true ∧
    digits.length = 3 ∧ AllDigits digits ∧ (tail = [] ∨ tail.head? = some 32) ∧ code = digitsValue digits

/-- The stream goes on after this line. -/
def FirstLine (stream line : Bytes) : Prop := line ++ crlf <+: stream ∧ find crlf stream = some line.length

/-- The line is taken for what it is, by `parse_status_code` and by every post
whose response has no other first line. -/
structure Exact (line : Bytes) : Prop where
  reads : ∀ code, StatusLine line code → parseStatusCode line = code
  refuses : (¬ ∃ code, StatusLine line code) → parseStatusCode line = 0
  acknowledges : ∀ opt body connected answers kept rest,
    (∀ other, FirstLine (received answers) other → other = line) →
    post opt body (enterPost opt body connected) answers = some (.returned true kept, rest) →
    ∃ code, StatusLine line code ∧ 200 ≤ code ∧ code ≤ 299

/-! ### What is read off a line -/

/-- What stands between the first space and the second one, or the end. -/
def secondWord (line : Bytes) : Option Bytes :=
  match line.dropWhile (· ≠ 32) with
  | [] => none
  | _ :: rest => some (rest.takeWhile (· ≠ 32))

/-- The low 32 bits of the number at the front of a text are zero. Past the
range of a `long` its limits count. -/
def Vanishes (word : Bytes) : Prop :=
  digitsValue (signedDigits word).2 < 2 ^ 63 ∧ digitsValue (signedDigits word).2 % 2 ^ 32 = 0 ∨
    (signedDigits word).1 = true ∧ 2 ^ 63 ≤ digitsValue (signedDigits word).2

theorem parse_eq (line : Bytes) : parseStatusCode line = ((secondWord line).map atoi).getD 0 := by
  rw [parseStatusCode, secondWord]
  cases line.dropWhile (· ≠ 32) <;> rfl

theorem bmod_eq_zero_iff {value : Int} : value.bmod (2 ^ 32) = 0 ↔ value % 2 ^ 32 = 0 := by
  simp only [Int.bmod]
  split <;> omega

theorem atoi_eq_zero_iff (word : Bytes) : atoi word = 0 ↔ Vanishes word := by
  unfold atoi Vanishes
  obtain ⟨negative, digits⟩ := signedDigits word
  dsimp only
  generalize digitsValue digits = value
  rw [bmod_eq_zero_iff]
  cases negative
  · simp only [Bool.false_eq_true, if_false, false_and, or_false]
    omega
  · simp only [if_true, true_and]
    omega

/-- A line is read as zero if it has no second word, or one whose number
vanishes. -/
theorem parse_eq_zero_iff (line : Bytes) :
    parseStatusCode line = 0 ↔ ∀ word, secondWord line = some word → Vanishes word := by
  rw [parse_eq]
  cases secondWord line with
  | none => simp
  | some word => simp [atoi_eq_zero_iff]

theorem atoi_of_digits {digits : Bytes} (all : AllDigits digits) (three : digits.length = 3) :
    atoi digits = digitsValue digits := by
  have small := digits_value_lt all
  rw [three] at small
  rw [atoi, signed_digits_of_digits all]
  simp only [Bool.false_eq_true, if_false, Int.bmod]
  omega

theorem status_line_code {line : Bytes} {code : Int} (is : StatusLine line code) : parseStatusCode line = code := by
  obtain ⟨minor, digits, tail, rfl, digit, three, all, ends, rfl⟩ := is
  have free : (32 : UInt8) ∉ ascii "HTTP/1." ++ [minor] := by
    intro member
    rcases List.mem_append.mp member with version | is
    · exact absurd version (by decide)
    · rw [← List.mem_singleton.mp is] at digit
      exact absurd digit (by decide)
  have apart : digits.takeWhile (· ≠ 32) = digits := by
    apply List.takeWhile_eq_self_iff.mpr
    intro c member
    simpa using fun same : c = 32 => absurd (all c member) (by rw [same]; decide)
  have word : (digits ++ tail).takeWhile (· ≠ 32) = digits := by
    refine (take_run (List.takeWhile_eq_self_iff.mp apart) fun c head => ?_).1
    rcases ends with none | space
    · rw [none] at head
      cases head
    · rw [space] at head
      cases head
      rfl
  have found : secondWord (ascii "HTTP/1." ++ minor :: 32 :: (digits ++ tail)) = some digits := by
    have shape : ascii "HTTP/1." ++ minor :: 32 :: (digits ++ tail) =
        (ascii "HTTP/1." ++ [minor]) ++ 32 :: (digits ++ tail) := by simp
    rw [shape, secondWord, (take_until free _).2]
    exact congrArg some word
  rw [parse_eq, found]
  exact atoi_of_digits all three

/-! ### What is acknowledged -/

variable {opt : HttpOptions} {body buf : Bytes} {answers rest : List Answer} {ok connected kept closeAfter : Bool}

/-- The body does not decide. -/
theorem body_returns {had want : Nat} {accepted : Bool}
    (ran : post opt body (.readingBody accepted closeAfter had want) answers = some (.returned ok kept, rest)) :
    ok = accepted := by
  induction answers generalizing had with
  | nil => cases ran
  | cons answer answers ih =>
    rcases post_cases ran with ⟨next, resumed, ran⟩ | ⟨resumed, -⟩
    · rcases reading_body resumed with gaveUp | ⟨chunk, -, -, drains⟩
      · cases gaveUp
      · obtain ⟨rfl, -⟩ := drain_calls drains.symm
        exact ih ran
    · rcases reading_body resumed with gaveUp | ⟨chunk, -, -, drains⟩
      · cases gaveUp
        rfl
      · rw [drain] at drains
        split at drains <;> cases drains
        rfl

/-- A success is read off a whole head. -/
theorem accepted_head (ran : post opt body (.readingHead buf) answers = some (.returned true kept, rest)) :
    ∃ early, early <+: buf ++ received answers ∧ (find headEnd early).isSome = true ∧ accepts early = true := by
  induction answers generalizing buf with
  | nil => cases ran
  | cons answer answers ih =>
    rcases post_cases ran with ⟨next, resumed, ran⟩ | ⟨resumed, -⟩
    · rcases reading_head resumed with gaveUp | ⟨chunk, rfl, -, reads⟩
      · cases gaveUp
      · rw [received_cons, bytesOf, ← List.append_assoc]
        rcases read_head_cases buf chunk with is | is | ⟨ended, ⟨kept, is⟩ | ⟨closeAfter, had, want, is⟩⟩
        · cases reads.trans is
        · cases reads.trans is
          exact ih ran
        · cases reads.trans is
        · cases reads.trans is
          exact ⟨_, List.prefix_append _ _, ended, (body_returns ran).symm⟩
    · rcases reading_head resumed with gaveUp | ⟨chunk, rfl, -, reads⟩
      · cases gaveUp
      · rw [received_cons, bytesOf, ← List.append_assoc]
        rcases read_head_cases buf chunk with is | is | ⟨ended, ⟨kept, is⟩ | ⟨closeAfter, had, want, is⟩⟩
        · cases reads.trans is
        · cases reads.trans is
        · exact ⟨_, List.prefix_append _ _, ended, (Posted.returned.inj (reads.trans is)).1.symm⟩
        · cases reads.trans is

/-- What `post` takes for a success begins with a line that is read so. -/
theorem acknowledged_code
    (ran : post opt body (enterPost opt body connected) answers = some (.returned true kept, rest)) :
    ∃ line, FirstLine (received answers) line ∧ 200 ≤ parseStatusCode line ∧ parseStatusCode line ≤ 299 := by
  obtain ⟨replies, -, same, ran⟩ := (entered ran).resolve_left (by simp)
  obtain ⟨early, before, ended, accepted⟩ := accepted_head ran
  rw [List.nil_append, same] at before
  -- The head has a first line, and it is the stream's.
  have lined : (find crlf early).isSome = true := by
    apply find_is_some_iff.mpr
    exact (show crlf <+: headEnd by decide).isInfix.trans (find_is_some_iff.mp ended)
  obtain ⟨i, found⟩ := Option.isSome_iff_exists.mp lined
  obtain ⟨⟨late, cut⟩, -, -⟩ := find_eq_some_iff.mp found
  have within := find_end found
  have size : (early.take i).length = i := List.length_take_of_le (by omega)
  have begins : early.take i ++ crlf <+: early := by
    refine ⟨late, ?_⟩
    rw [List.append_assoc, cut, List.take_append_drop]
  refine ⟨early.take i, ⟨begins.trans before, ?_⟩, ?_⟩
  · obtain ⟨more, whole⟩ := before
    rw [← whole, find_append found, size]
  · simp only [accepts, found, Option.getD_some, Bool.and_eq_true, decide_eq_true_eq] at accepted
    omega

/-! ### Exactly -/

/-- A line is judged by the form of a status line if and only if it has that
form, or has no second word, or one whose number vanishes. -/
theorem exact_iff (line : Bytes) :
    Exact line ↔ (∃ code, StatusLine line code) ∨ ∀ word, secondWord line = some word → Vanishes word := by
  constructor
  · intro exact'
    by_cases formed : ∃ code, StatusLine line code
    · exact Or.inl formed
    · exact Or.inr ((parse_eq_zero_iff line).mp (exact'.refuses formed))
  · intro condition
    refine ⟨fun code => status_line_code, fun unformed => ?_, ?_⟩
    · exact (parse_eq_zero_iff line).mpr (condition.resolve_left unformed)
    · intro opt body connected answers kept rest first ran
      obtain ⟨line', begins, low, high⟩ := acknowledged_code ran
      rw [first line' begins] at low high
      rcases condition with ⟨code, formed⟩ | vanishes
      · rw [status_line_code formed] at low high
        exact ⟨code, formed, low, high⟩
      · rw [(parse_eq_zero_iff line).mpr vanishes] at low
        exact absurd low (by decide)

/-- A server that does not speak HTTP is believed. -/
theorem other_protocol_acknowledged :
    post ⟨[], [], 0⟩ [] (enterPost ⟨[], [], 0⟩ [] true)
        [.sent (request ⟨[], [], 0⟩ []).length, .received (ascii "ICY 200 OK" ++ headEnd)] =
        some (.returned true true, []) ∧
      FirstLine (received [.sent (request ⟨[], [], 0⟩ []).length, .received (ascii "ICY 200 OK" ++ headEnd)])
        (ascii "ICY 200 OK") ∧
      parseStatusCode (ascii "ICY 200 OK") = 200 ∧ ¬ ∃ code, StatusLine (ascii "ICY 200 OK") code := by
  refine ⟨by decide, ⟨by decide, by decide⟩, by decide, ?_⟩
  rintro ⟨code, minor, digits, tail, is, -⟩
  exact absurd (congrArg List.head? is) (by simp [ascii])

end SlurmTracer.StatusLines
