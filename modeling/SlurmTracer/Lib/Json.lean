import SlurmTracer.Lib.Utf8

/-! JSON values whose objects keep their members in order, the compact texts
that denote them, and a printer for these that refuses strings which are not
UTF-8. -/
namespace SlurmTracer.Lib.Json
open Utf8

mutual

inductive Value where
  | null
  | unsigned (n : Nat)
  /-- A double that is a whole number. -/
  | whole (n : Nat)
  | string (s : Bytes)
  | object (members : Members)

inductive Members where
  | nil
  | cons (key : Bytes) (value : Value) (rest : Members)

end

namespace Members

/-- Assignment through `operator[]`: in place for a key that is there, at the
end for one that is not. -/
def set (key : Bytes) (value : Value) : Members → Members
  | nil => cons key value nil
  | cons other held rest => if other = key then cons other value rest else cons other held (set key value rest)

/-- An object built up by assignments. -/
def assign (entries : List (Bytes × Value)) : Members :=
  entries.foldl (fun members entry => set entry.1 entry.2 members) nil

def keys : Members → List Bytes
  | nil => []
  | cons key _ rest => key :: rest.keys

end Members

mutual

/-- Every string that has to be written out: the keys and the string values. -/
def Value.strings : Value → List Bytes
  | .null | .unsigned _ | .whole _ => []
  | .string s => [s]
  | .object members => members.strings

def Members.strings : Members → List Bytes
  | .nil => []
  | .cons key value rest => key :: (value.strings ++ rest.strings)

end

namespace Members

private theorem set_fresh (key : Bytes) (value : Value) : ∀ m : Members, key ∉ m.keys →
    (m.set key value).strings = m.strings ++ key :: value.strings ∧ (m.set key value).keys = m.keys ++ [key]
  | .nil, _ => by simp [set, Members.strings, keys]
  | .cons other held rest, fresh => by
    have apart : other ≠ key := fun same => fresh (by simp [keys, same])
    obtain ⟨strings, keys_⟩ := set_fresh key value rest fun later => fresh (by simp [keys, later])
    simp [set, apart, Members.strings, keys, strings, keys_]

/-- Distinct keys keep everything that is assigned. -/
theorem assign_strings (entries : List (Bytes × Value)) (distinct : (entries.map Prod.fst).Nodup) :
    (assign entries).strings = entries.flatMap fun entry => entry.1 :: entry.2.strings := by
  have loop : ∀ (entries : List (Bytes × Value)) (m : Members), (m.keys ++ entries.map Prod.fst).Nodup →
      (entries.foldl (fun members entry => set entry.1 entry.2 members) m).strings =
        m.strings ++ entries.flatMap fun entry => entry.1 :: entry.2.strings := by
    intro entries
    induction entries with
    | nil => simp
    | cons entry entries ih =>
      intro m distinct
      have fresh : entry.1 ∉ m.keys := by
        intro there
        have apart := (List.nodup_append.mp distinct).2.2
        exact apart entry.1 there entry.1 (by simp) rfl
      obtain ⟨strings, keys_⟩ := set_fresh entry.1 entry.2 m fresh
      rw [List.foldl_cons, ih _ (by rw [keys_]; simpa using distinct), strings]
      simp
  simpa [assign, Members.strings] using loop entries .nil (by simpa [keys] using distinct)

end Members

def quote : UInt8 := 34
def backslash : UInt8 := 92
def newline : UInt8 := 10

/-- What may stand in a string as it is. -/
def Unescaped (c : UInt8) : Prop := 32 ≤ c ∧ c ≠ quote ∧ c ≠ backslash

instance : DecidablePred Unescaped := fun c => by
  unfold Unescaped
  infer_instance

/-- The letter after the backslash, for the bytes that have one. -/
def shortEscape (c : UInt8) : Option UInt8 :=
  if c = 8 then some 98
  else if c = 9 then some 116
  else if c = newline then some 110
  else if c = 12 then some 102
  else if c = 13 then some 114
  else if c = quote then some quote
  else if c = backslash then some backslash
  else none

def hexDigits : Bytes := ascii "0123456789abcdef"

def hexDigit (n : Nat) : UInt8 := hexDigits.getD n 48

/-- `\u00XX`. -/
def unicodeEscape (c : UInt8) : Bytes :=
  [backslash, 117, 48, 48, hexDigit (c.toNat / 16), hexDigit (c.toNat % 16)]

/-! ### Texts -/

/-- The texts between the quotes that denote a string. -/
inductive Chars : Bytes → Bytes → Prop where
  | nil : Chars [] []
  | plain {seq s t : Bytes} (first : Sequence seq) (bare : ∀ c ∈ seq, Unescaped c) (later : Chars s t) :
      Chars (seq ++ s) (seq ++ t)
  | short {c letter : UInt8} {s t : Bytes} (has : shortEscape c = some letter) (later : Chars s t) :
      Chars (c :: s) (backslash :: letter :: t)
  | unicode {c : UInt8} {s t : Bytes} (ascii : c < 0x80) (later : Chars s t) :
      Chars (c :: s) (unicodeEscape c ++ t)

/-- A quoted string. -/
def StringText (s t : Bytes) : Prop := ∃ body, Chars s body ∧ t = quote :: body ++ [quote]

mutual

/-- The compact texts that denote a value. -/
inductive Text : Value → Bytes → Prop where
  | null : Text .null (ascii "null")
  | unsigned (n : Nat) : Text (.unsigned n) (toDecimal n)
  | whole (n zeros : Nat) : Text (.whole n) (toDecimal n ++ ascii "." ++ List.replicate (zeros + 1) 48)
  | string {s t : Bytes} (quoted : StringText s t) : Text (.string s) t
  | object {members : Members} {t : Bytes} (inside : MembersText members t) :
      Text (.object members) (ascii "\x7b" ++ t ++ ascii "\x7d")

/-- The members of an object, with commas between them. -/
inductive MembersText : Members → Bytes → Prop where
  | nil : MembersText .nil []
  | last {key kt vt : Bytes} {value : Value} (name : StringText key kt) (held : Text value vt) :
      MembersText (.cons key value .nil) (kt ++ ascii ":" ++ vt)
  | cons {key kt vt other rt : Bytes} {value next : Value} {rest : Members} (name : StringText key kt)
      (held : Text value vt) (later : MembersText (.cons other next rest) rt) :
      MembersText (.cons key value (.cons other next rest)) (kt ++ ascii ":" ++ vt ++ ascii "," ++ rt)

end

/-! ### A compact text is one line -/

private theorem to_decimal_single_line (n : Nat) : newline ∉ toDecimal n := by
  intro member
  have digit := to_decimal_digits n newline member
  revert digit
  decide

private theorem short_escape_printable {c letter : UInt8} (has : shortEscape c = some letter) :
    letter ≠ newline := by
  rintro rfl
  unfold shortEscape at has
  repeat' split at has
  all_goals revert has; decide

private theorem hex_digit_printable (n : Nat) : hexDigit n ≠ newline := by
  rw [hexDigit, List.getD_eq_getElem?_getD]
  cases digit : hexDigits[n]? with
  | none => decide
  | some d =>
    rintro rfl
    exact absurd (List.mem_of_getElem? digit) (by decide)

theorem chars_single_line {s t : Bytes} (chars : Chars s t) : newline ∉ t := by
  induction chars with
  | nil => exact List.not_mem_nil
  | plain _ bare _ ih =>
    intro member
    rcases List.mem_append.mp member with here | later
    · exact absurd (bare _ here) (by decide)
    · exact ih later
  | short has _ ih =>
    intro member
    rcases List.mem_cons.mp member with isSlash | member
    · exact absurd isSlash (by decide)
    · rcases List.mem_cons.mp member with isLetter | later
      · exact short_escape_printable has isLetter.symm
      · exact ih later
  | @unicode c s t _ _ ih =>
    intro member
    rcases List.mem_append.mp member with here | later
    · have high := hex_digit_printable (c.toNat / 16)
      have low := hex_digit_printable (c.toNat % 16)
      simp only [unicodeEscape, List.mem_cons, List.not_mem_nil, or_false] at here
      rcases here with same | same | same | same | same | same
      · exact absurd same (by decide)
      · exact absurd same (by decide)
      · exact absurd same (by decide)
      · exact absurd same (by decide)
      · exact high same.symm
      · exact low same.symm
    · exact ih later

theorem string_text_single_line {s t : Bytes} (text : StringText s t) : newline ∉ t := by
  obtain ⟨body, chars, rfl⟩ := text
  have inside := chars_single_line chars
  have apart : newline ≠ quote := by decide
  simp [inside, apart]

mutual

theorem text_single_line : ∀ {v : Value} {t : Bytes}, Text v t → newline ∉ t
  | _, _, .null => by decide
  | _, _, .unsigned n => to_decimal_single_line n
  | _, _, .whole n zeros => by
    have digits := to_decimal_single_line n
    have point : newline ∉ ascii "." := by decide
    have apart : newline ≠ 48 := by decide
    simp [digits, point, apart]
  | _, _, .string quoted => string_text_single_line quoted
  | _, _, .object inside => by
    have members := members_text_single_line inside
    have braces : newline ∉ ascii "\x7b" ∧ newline ∉ ascii "\x7d" := by decide
    simp [members, braces]

theorem members_text_single_line : ∀ {m : Members} {t : Bytes}, MembersText m t → newline ∉ t
  | _, _, .nil => List.not_mem_nil
  | _, _, .last name held => by
    have key := string_text_single_line name
    have value := text_single_line held
    have colon : newline ∉ ascii ":" := by decide
    simp [key, value, colon]
  | _, _, .cons name held later => by
    have key := string_text_single_line name
    have value := text_single_line held
    have rest := members_text_single_line later
    have marks : newline ∉ ascii ":" ∧ newline ∉ ascii "," := by decide
    simp [key, value, rest, marks]

end

/-! ### The printer -/

/-- One byte of a string, escaped where it has to be. -/
def escapeByte (c : UInt8) : Bytes :=
  match shortEscape c with
  | some letter => [backslash, letter]
  | none => if c < 32 then unicodeEscape c else [c]

def dumpString (s : Bytes) : Option Bytes :=
  if isUtf8 s then some (quote :: s.flatMap escapeByte ++ [quote]) else none

/-- One member in front of the others. -/
def joinMember : Members → Option Bytes → Option Bytes → Option Bytes → Option Bytes
  | .nil, some kt, some vt, some _ => some (kt ++ ascii ":" ++ vt)
  | .cons _ _ _, some kt, some vt, some rt => some (kt ++ ascii ":" ++ vt ++ ascii "," ++ rt)
  | _, _, _, _ => none

private theorem join_member_none (rest : Members) (kt vt rt : Option Bytes) :
    joinMember rest kt vt rt = none ↔ kt = none ∨ vt = none ∨ rt = none := by
  cases rest <;> cases kt <;> cases vt <;> cases rt <;> simp [joinMember]

mutual

/-- `none` is the exception for a string that is not UTF-8. -/
def dump : Value → Option Bytes
  | .null => some (ascii "null")
  | .unsigned n => some (toDecimal n)
  | .whole n => some (toDecimal n ++ ascii "." ++ [48])
  | .string s => dumpString s
  | .object members => (dumpMembers members).map fun t => ascii "\x7b" ++ t ++ ascii "\x7d"

def dumpMembers : Members → Option Bytes
  | .nil => some []
  | .cons key value rest => joinMember rest (dumpString key) (dump value) (dumpMembers rest)

end

/-- What is relied on in a printer: it throws exactly on strings that are not
UTF-8, and what it writes is a compact text of the value. -/
structure Strict (dump : Value → Option Bytes) : Prop where
  throws : ∀ v, dump v = none ↔ ∃ s ∈ v.strings, ¬ WellFormed s
  writes : ∀ v t, dump v = some t → Text v t

/-- Nothing from 0x80 on is escaped. -/
private theorem escape_high {c : UInt8} (high : 0x80 ≤ c) : escapeByte c = [c] ∧ Unescaped c := by
  have apart : ∀ d : UInt8, d < 0x80 → c ≠ d := fun d low same => absurd (same ▸ high) (UInt8.not_le.mpr low)
  have printable : 32 ≤ c := UInt8.le_trans (by decide) high
  refine ⟨?_, printable, apart quote (by decide), apart backslash (by decide)⟩
  have none : shortEscape c = none := by
    rw [shortEscape, if_neg (apart 8 (by decide)), if_neg (apart 9 (by decide)), if_neg (apart newline (by decide)),
      if_neg (apart 12 (by decide)), if_neg (apart 13 (by decide)), if_neg (apart quote (by decide)),
      if_neg (apart backslash (by decide))]
  simp [escapeByte, none, UInt8.not_lt.mpr printable]

private theorem escape_low {a : UInt8} (low : a < 0x80) {s t : Bytes} (later : Chars s t) :
    Chars (a :: s) (escapeByte a ++ t) := by
  unfold escapeByte
  cases has : shortEscape a with
  | some letter => exact .short has later
  | none =>
    dsimp only
    split
    · exact .unicode low later
    · rename_i printable
      refine .plain (.one low) ?_ later
      intro c member
      rw [List.mem_singleton.mp member]
      refine ⟨UInt8.not_lt.mp printable, ?_, ?_⟩
      · rintro rfl
        revert has
        decide
      · rintro rfl
        revert has
        decide

/-- A sequence of bytes from 0x80 on stays as it is. -/
private theorem escape_high_sequence {seq s t : Bytes} (first : Sequence seq) (high : ∀ c ∈ seq, 0x80 ≤ c)
    (later : Chars s t) : Chars (seq ++ s) (seq.flatMap escapeByte ++ t) := by
  have same : seq.flatMap escapeByte = seq := by
    rw [List.flatMap_congr fun c member => (escape_high (high c member)).1, List.flatMap_singleton']
  rw [same]
  exact .plain first (fun c member => (escape_high (high c member)).2) later

theorem chars_escaped {s : Bytes} (wellFormed : WellFormed s) : Chars s (s.flatMap escapeByte) := by
  induction wellFormed with
  | nil => exact .nil
  | @cons seq rest first _ ih =>
    rw [List.flatMap_append]
    by_cases low : ∃ a, a < 0x80 ∧ seq = [a]
    · obtain ⟨a, low, rfl⟩ := low
      rw [List.flatMap_singleton]
      exact escape_low low ih
    · exact escape_high_sequence first (sequence_high first low) ih

theorem dump_string_text {s t : Bytes} (dumped : dumpString s = some t) : StringText s t := by
  unfold dumpString at dumped
  split at dumped
  · rename_i accepted
    cases dumped
    exact ⟨_, chars_escaped ((is_utf8_iff s).mp accepted), rfl⟩
  · cases dumped

theorem dump_string_throws (s : Bytes) : dumpString s = none ↔ ¬ WellFormed s := by
  rw [← is_utf8_iff]
  simp [dumpString]

mutual

theorem dump_text : ∀ (v : Value) (t : Bytes), dump v = some t → Text v t
  | .null, _, dumped => by
    cases dumped
    exact .null
  | .unsigned n, _, dumped => by
    cases dumped
    exact .unsigned n
  | .whole n, _, dumped => by
    cases dumped
    exact .whole n 0
  | .string s, t, dumped => .string (dump_string_text dumped)
  | .object members, t, dumped => by
    rw [dump, Option.map_eq_some_iff] at dumped
    obtain ⟨inside, dumped, rfl⟩ := dumped
    exact .object (dump_members_text members inside dumped)

theorem dump_members_text : ∀ (m : Members) (t : Bytes), dumpMembers m = some t → MembersText m t
  | .nil, _, dumped => by
    cases dumped
    exact .nil
  | .cons key value rest, t, dumped => by
    rw [dumpMembers] at dumped
    cases name : dumpString key with
    | none => cases rest <;> simp [name, joinMember] at dumped
    | some kt =>
      cases held : dump value with
      | none => cases rest <;> simp [held, joinMember] at dumped
      | some vt =>
        cases later : dumpMembers rest with
        | none => cases rest <;> simp [later, joinMember] at dumped
        | some rt =>
          have keyText := dump_string_text name
          have valueText := dump_text value vt held
          have restText := dump_members_text rest rt later
          rw [name, held, later] at dumped
          cases rest with
          | nil =>
            cases dumped
            exact .last keyText valueText
          | cons other next more =>
            cases dumped
            exact .cons keyText valueText restText

end

mutual

theorem dump_throws : ∀ v : Value, dump v = none ↔ ∃ s ∈ v.strings, ¬ WellFormed s
  | .null | .unsigned _ | .whole _ => by simp [dump, Value.strings]
  | .string s => by simp [dump, Value.strings, dump_string_throws]
  | .object members => by simp [dump, Value.strings, dump_members_throws members]

theorem dump_members_throws : ∀ m : Members, dumpMembers m = none ↔ ∃ s ∈ m.strings, ¬ WellFormed s
  | .nil => by simp [dumpMembers, Members.strings]
  | .cons key value rest => by
    have keyThrows := dump_string_throws key
    have valueThrows := dump_throws value
    have restThrows := dump_members_throws rest
    rw [dumpMembers, join_member_none, keyThrows, valueThrows, restThrows]
    simp only [Members.strings, List.mem_cons, List.mem_append, or_and_right, exists_or, exists_eq_left]

end

/-- The printer here is one that can be relied on. -/
theorem dump_strict : Strict dump := ⟨dump_throws, dump_text⟩

end SlurmTracer.Lib.Json
