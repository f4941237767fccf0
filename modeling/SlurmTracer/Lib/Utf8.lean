import SlurmTracer.Lib.Bytes

/-! Well-formed UTF-8, as the sequences Unicode allows for one code point and
as a decoder that takes one byte at a time. -/
namespace SlurmTracer.Lib.Utf8

/-- The sequences that stand for one code point: no overlong forms, no
surrogates, nothing past U+10FFFF. -/
inductive Sequence : Bytes → Prop where
  | one {a : UInt8} (plain : a < 0x80) : Sequence [a]
  | two {a b : UInt8} (lead : 0xC2 ≤ a ∧ a < 0xE0) (second : 0x80 ≤ b ∧ b ≤ 0xBF) : Sequence [a, b]
  | three {a b c : UInt8} (lead : 0xE0 ≤ a ∧ a < 0xF0)
      (second : (if a = 0xE0 then 0xA0 else 0x80) ≤ b ∧ b ≤ (if a = 0xED then 0x9F else 0xBF))
      (third : 0x80 ≤ c ∧ c ≤ 0xBF) : Sequence [a, b, c]
  | four {a b c d : UInt8} (lead : 0xF0 ≤ a ∧ a < 0xF5)
      (second : (if a = 0xF0 then 0x90 else 0x80) ≤ b ∧ b ≤ (if a = 0xF4 then 0x8F else 0xBF))
      (third : 0x80 ≤ c ∧ c ≤ 0xBF) (fourth : 0x80 ≤ d ∧ d ≤ 0xBF) : Sequence [a, b, c, d]

inductive WellFormed : Bytes → Prop where
  | nil : WellFormed []
  | cons {seq rest : Bytes} (first : Sequence seq) (later : WellFormed rest) : WellFormed (seq ++ rest)

/-- How many bytes the code point still takes, and the bounds of the next one. -/
structure Expect where
  more : Nat
  low : UInt8 := 0x80
  high : UInt8 := 0xBF
  deriving DecidableEq

/-- Between two code points. -/
def Expect.boundary : Expect := { more := 0 }

/-- What the first byte of a code point asks for. -/
def lead (c : UInt8) : Option Expect :=
  if c < 0x80 then some .boundary
  else if c < 0xC2 then none
  else if c < 0xE0 then some { more := 1 }
  else if c < 0xF0 then
    some { more := 2, low := if c = 0xE0 then 0xA0 else 0x80, high := if c = 0xED then 0x9F else 0xBF }
  else if c < 0xF5 then
    some { more := 3, low := if c = 0xF0 then 0x90 else 0x80, high := if c = 0xF4 then 0x8F else 0xBF }
  else none

/-- One byte. `none` is a rejection. -/
def feed (e : Expect) (c : UInt8) : Option Expect :=
  match e.more with
  | 0 => lead c
  | more + 1 => if e.low ≤ c ∧ c ≤ e.high then some { more } else none

/-- The decoder gets through and ends between two code points. -/
def isUtf8 (s : Bytes) : Bool := s.foldlM feed .boundary = some .boundary

variable {s rest : Bytes} {a c : UInt8} {e : Expect} {n : Nat}

/-- A decoder in the middle of a code point takes one more byte. -/
private theorem expects_more (ends : s.foldlM feed e = some .boundary) (middle : e.more = n + 1) :
    ∃ c rest, s = c :: rest ∧ (e.low ≤ c ∧ c ≤ e.high) ∧ rest.foldlM feed { more := n } = some .boundary := by
  cases s with
  | nil =>
    cases ends
    cases middle
  | cons c rest =>
    rw [List.foldlM_cons, Option.bind_eq_bind, Option.bind_eq_some_iff] at ends
    obtain ⟨next, fed, ends⟩ := ends
    unfold feed at fed
    rw [middle] at fed
    dsimp only at fed
    split at fed
    · rename_i within
      cases fed
      exact ⟨c, rest, rfl, within, ends⟩
    · cases fed

/-- From between two code points, the decoder takes one sequence. -/
private theorem first_sequence (ends : (a :: s).foldlM feed .boundary = some .boundary) :
    ∃ seq rest, a :: s = seq ++ rest ∧ Sequence seq ∧ seq ≠ [] ∧ rest.foldlM feed .boundary = some .boundary := by
  rw [List.foldlM_cons, Option.bind_eq_bind, Option.bind_eq_some_iff] at ends
  obtain ⟨e, led, ends⟩ := ends
  change lead a = some e at led
  unfold lead at led
  split at led
  · rename_i plain
    cases led
    exact ⟨[a], s, rfl, .one plain, by simp, ends⟩
  · split at led
    · cases led
    · rename_i nonAscii
      split at led
      · rename_i isTwo
        cases led
        obtain ⟨b, rest, rfl, second, ends⟩ := expects_more ends rfl
        exact ⟨[a, b], rest, rfl, .two ⟨UInt8.not_lt.mp nonAscii, isTwo⟩ second, by simp, ends⟩
      · rename_i overTwo
        split at led
        · rename_i isThree
          cases led
          obtain ⟨b, rest, rfl, second, ends⟩ := expects_more ends rfl
          obtain ⟨c, rest, rfl, third, ends⟩ := expects_more ends rfl
          exact ⟨[a, b, c], rest, rfl, .three ⟨UInt8.not_lt.mp overTwo, isThree⟩ second third, by simp, ends⟩
        · rename_i overThree
          split at led
          · rename_i isFour
            cases led
            obtain ⟨b, rest, rfl, second, ends⟩ := expects_more ends rfl
            obtain ⟨c, rest, rfl, third, ends⟩ := expects_more ends rfl
            obtain ⟨d, rest, rfl, fourth, ends⟩ := expects_more ends rfl
            exact ⟨[a, b, c, d], rest, rfl, .four ⟨UInt8.not_lt.mp overThree, isFour⟩ second third fourth,
              by simp, ends⟩
          · cases led

/-- The decoder gets through every sequence. -/
private theorem feed_sequence (first : Sequence s) : s.foldlM feed .boundary = some .boundary := by
  cases first with
  | one plain => simp [feed, lead, plain, Expect.boundary]
  | @two a b led second =>
    have nonAscii : ¬ a < 0x80 := UInt8.not_lt.mpr (UInt8.le_trans (by decide) led.1)
    have low : ¬ a < 0xC2 := UInt8.not_lt.mpr led.1
    simp [feed, lead, nonAscii, low, led.2, second, Expect.boundary]
  | @three a b c led second third =>
    have nonAscii : ¬ a < 0x80 := UInt8.not_lt.mpr (UInt8.le_trans (by decide) led.1)
    have low : ¬ a < 0xC2 := UInt8.not_lt.mpr (UInt8.le_trans (by decide) led.1)
    have notTwo : ¬ a < 0xE0 := UInt8.not_lt.mpr led.1
    simp [feed, lead, nonAscii, low, notTwo, led.2, second, third, Expect.boundary]
  | @four a b c d led second third fourth =>
    have nonAscii : ¬ a < 0x80 := UInt8.not_lt.mpr (UInt8.le_trans (by decide) led.1)
    have low : ¬ a < 0xC2 := UInt8.not_lt.mpr (UInt8.le_trans (by decide) led.1)
    have notTwo : ¬ a < 0xE0 := UInt8.not_lt.mpr (UInt8.le_trans (by decide) led.1)
    have notThree : ¬ a < 0xF0 := UInt8.not_lt.mpr led.1
    simp [feed, lead, nonAscii, low, notTwo, notThree, led.2, second, third, fourth, Expect.boundary]

/-- The decoder accepts the well-formed strings and no others. -/
theorem is_utf8_iff (s : Bytes) : isUtf8 s = true ↔ WellFormed s := by
  rw [isUtf8, decide_eq_true_eq]
  constructor
  · induction size : s.length using Nat.strongRecOn generalizing s with
    | ind size ih =>
      intro ends
      cases s with
      | nil => exact .nil
      | cons a s =>
        obtain ⟨seq, rest, shape, first, nonempty, ends⟩ := first_sequence ends
        rw [shape]
        refine .cons first (ih rest.length ?_ rest rfl ends)
        have lengths := congrArg List.length shape
        rw [List.length_append, size] at lengths
        have := List.length_pos_iff.mpr nonempty
        omega
  · intro wellFormed
    induction wellFormed with
    | nil => rfl
    | cons first later ih =>
      rw [List.foldlM_append, feed_sequence first]
      exact ih

instance : DecidablePred WellFormed := fun s => decidable_of_iff _ (is_utf8_iff s)

/-- Beyond ASCII, every byte of a sequence has its high bit. -/
theorem sequence_high (first : Sequence s) (high : ¬ ∃ a, a < 0x80 ∧ s = [a]) : ∀ c ∈ s, 0x80 ≤ c := by
  cases first with
  | @one a plain => exact absurd ⟨a, plain, rfl⟩ high
  | two lead second =>
    simpa using ⟨UInt8.le_trans (by decide) lead.1, second.1⟩
  | @three a b c lead second third =>
    have low : 0x80 ≤ b := UInt8.le_trans (by split <;> decide) second.1
    simpa using ⟨UInt8.le_trans (by decide) lead.1, low, third.1⟩
  | @four a b c d lead second third fourth =>
    have low : 0x80 ≤ b := UInt8.le_trans (by split <;> decide) second.1
    simpa using ⟨UInt8.le_trans (by decide) lead.1, low, third.1, fourth.1⟩

/-- ASCII is well formed. -/
theorem well_formed_ascii (plain : ∀ c ∈ s, c < 0x80) : WellFormed s := by
  induction s with
  | nil => exact .nil
  | cons c s ih =>
    exact .cons (.one (plain c List.mem_cons_self)) (ih fun d member => plain d (List.mem_cons_of_mem _ member))

end SlurmTracer.Lib.Utf8
