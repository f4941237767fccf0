import SlurmTracer.Core.Config
import SlurmTracer.Lib.Decimal
import SlurmTracer.Lib.Search

/-!
What a duration setting means. A text of digits and a unit stands for a number
of milliseconds, and `get_duration` returns that number or its fallback exactly
when scaling the digits stays within the signed count (`exact_iff_in_range`):
the digits are checked against the unsigned range, their product is not.
-/
namespace SlurmTracer.Durations
open SlurmTracer.Core Lib Lib.Decimal Lib.Search

/-- The units a duration may end in, in milliseconds. -/
def units : List (Bytes × Nat) :=
  [([], 1), (ascii "ms", 1), (ascii "s", 1000), (ascii "m", 60000), (ascii "h", 3600000)]

/-- The text is this number of this unit. -/
def Reads (text : Bytes) (value unit : Nat) : Prop :=
  ∃ digits suffix, text = digits ++ suffix ∧ digits ≠ [] ∧ AllDigits digits ∧ (suffix, unit) ∈ units ∧
    digitsValue digits = value

/-- The text is a duration that a signed 64-bit count of milliseconds holds. -/
def Means (text : Bytes) (ms : Nat) : Prop := ∃ value unit, Reads text value unit ∧ ms = value * unit ∧ ms < 2 ^ 63

/-- Whatever the fallback, a setting with this text comes back as the duration
it means, and as the fallback if it means none. -/
structure ExactOrRefused (text : Bytes) : Prop where
  exactly : ∀ ms, Means text ms → ∀ (c : ComponentConfig) key fallback, c.values[key]? = some text →
    (c.getDuration key fallback).toInt = ms
  refused : (∀ ms, ¬ Means text ms) → ∀ (c : ComponentConfig) key fallback, c.values[key]? = some text →
    c.getDuration key fallback = fallback

/-- No number that `strtoull` takes is scaled out of the count. -/
def InRange (text : Bytes) : Prop := ∀ value unit, Reads text value unit → value < 2 ^ 64 → value * unit < 2 ^ 63

/-! ### Reading a text -/

private theorem suffix_stops {suffix : Bytes} {unit : Nat} (member : (suffix, unit) ∈ units) :
    ∀ c, suffix.head? = some c → isDigit c = false := by
  have all : ∀ entry ∈ units, entry.1.head?.any isDigit = false := by decide
  intro c head
  have stops := all _ member
  rw [head] at stops
  exact stops

/-- What `parse_duration_ms` makes of a text in the grammar. -/
theorem parse_reads {text : Bytes} {value unit : Nat} (reads : Reads text value unit) :
    parseDurationMs text = if value < 2 ^ 64 then some (Int64.ofNat value * Int64.ofNat unit) else none := by
  obtain ⟨digits, suffix, rfl, filled, all, member, rfl⟩ := reads
  obtain ⟨taken, left⟩ := take_run all (suffix_stops member)
  simp only [parseDurationMs, taken, left, if_neg filled, strtoul]
  by_cases fits : digitsValue digits < 2 ^ 64
  · rw [if_pos fits, if_pos fits]
    simp only [units, List.mem_cons, List.not_mem_nil, or_false, Prod.mk.injEq] at member
    rcases member with ⟨rfl, rfl⟩ | ⟨rfl, rfl⟩ | ⟨rfl, rfl⟩ | ⟨rfl, rfl⟩ | ⟨rfl, rfl⟩
    · simp
    · simp
    · rfl
    · rfl
    · rfl
  · rw [if_neg fits, if_neg fits]

/-- It takes nothing else. -/
theorem reads_of_parse {text : Bytes} {ms : Int64} (parsed : parseDurationMs text = some ms) :
    ∃ value unit, Reads text value unit := by
  unfold parseDurationMs at parsed
  dsimp only at parsed
  split at parsed
  · cases parsed
  · rename_i filled
    have reads : ∀ unit, (text.dropWhile isDigit, unit) ∈ units → ∃ value unit, Reads text value unit :=
      fun unit member =>
        ⟨_, unit, _, _, List.takeWhile_append_dropWhile.symm, filled, all_digits_take text, member, rfl⟩
    split at parsed
    · cases parsed
    · split at parsed
      · rename_i bare
        rcases bare with none | ms
        · exact reads 1 (none ▸ by decide)
        · exact reads 1 (ms ▸ by decide)
      · split at parsed
        · rename_i s
          exact reads 1000 (s ▸ by decide)
        · split at parsed
          · rename_i m
            exact reads 60000 (m ▸ by decide)
          · split at parsed
            · rename_i h
              exact reads 3600000 (h ▸ by decide)
            · cases parsed

/-- A text is in the grammar in one way. -/
theorem reads_unique {text : Bytes} {value unit value' unit' : Nat} (reads : Reads text value unit)
    (reads' : Reads text value' unit') : value = value' ∧ unit = unit' := by
  obtain ⟨digits, suffix, rfl, -, all, member, rfl⟩ := reads
  obtain ⟨digits', suffix', same, -, all', member', rfl⟩ := reads'
  obtain ⟨taken, left⟩ := take_run all (suffix_stops member)
  obtain ⟨taken', left'⟩ := take_run all' (suffix_stops member')
  rw [← same] at taken' left'
  have alike : ∀ entry ∈ units, ∀ entry' ∈ units, entry.1 = entry'.1 → entry.2 = entry'.2 := by decide
  exact ⟨by rw [← taken, ← taken'], alike _ member _ member' (left.symm.trans left')⟩

/-! ### The count -/

theorem get_duration_eq {c : ComponentConfig} {key text : Bytes} (set : c.values[key]? = some text)
    (fallback : Int64) : c.getDuration key fallback = (parseDurationMs text).getD fallback := by
  rw [ComponentConfig.getDuration, set]

/-- Within the signed range the product is exact. -/
theorem scaled_exact {value unit : Nat} (fits : value * unit < 2 ^ 63) :
    (Int64.ofNat value * Int64.ofNat unit).toInt = (value * unit : Nat) := by
  rw [← Int64.ofNat_mul, Int64.toInt_ofNat_of_lt fits]

/-- Some setting holds any given text. -/
theorem settable (text : Bytes) : ∃ (c : ComponentConfig) (key : Bytes), c.values[key]? = some text :=
  ⟨({} : ComponentConfig).set (ascii "v") text, ascii "v", Std.TreeMap.getElem?_insert_self⟩

/-- A number that is scaled out of the count comes back where the text means
nothing. -/
theorem in_range_of_exact {text : Bytes} (promise : ExactOrRefused text) : InRange text := by
  intro value unit reads taken
  by_contra beyond
  have parsed := parse_reads reads
  rw [if_pos taken] at parsed
  have meansNone : ∀ ms, ¬ Means text ms := by
    rintro ms ⟨value', unit', reads', rfl, fits⟩
    obtain ⟨rfl, rfl⟩ := reads_unique reads reads'
    exact beyond fits
  obtain ⟨c, key, set⟩ := settable text
  have returns : ∀ fallback, Int64.ofNat value * Int64.ofNat unit = fallback := by
    intro fallback
    have got := promise.refused meansNone c key fallback set
    rw [get_duration_eq set, parsed, Option.getD_some] at got
    exact got
  exact absurd ((returns 0).symm.trans (returns 1)) (by decide)

/-- Within the count the product is what the text means. -/
theorem exact_of_in_range {text : Bytes} (inRange : InRange text) : ExactOrRefused text := by
  constructor
  · rintro ms ⟨value, unit, reads, rfl, fits⟩ c key fallback set
    have positive : 0 < unit := by
      obtain ⟨_, _, _, _, _, member, _⟩ := reads
      have all : ∀ entry ∈ units, 0 < entry.2 := by decide
      exact all _ member
    have taken : value < 2 ^ 64 := by
      have grows := Nat.le_mul_of_pos_right value positive
      omega
    rw [get_duration_eq set, parse_reads reads, if_pos taken, Option.getD_some, scaled_exact fits]
  · intro meansNone c key fallback set
    rw [get_duration_eq set]
    cases parsed : parseDurationMs text with
    | none => rfl
    | some ms =>
      obtain ⟨value, unit, reads⟩ := reads_of_parse parsed
      have taken : value < 2 ^ 64 := by
        by_contra beyond
        rw [parse_reads reads, if_neg beyond] at parsed
        cases parsed
      exact absurd ⟨value, unit, reads, rfl, inRange value unit reads taken⟩ (meansNone _)

/-- `get_duration` keeps to what a text means exactly where its number, if
`strtoull` takes it, is scaled within the signed count. -/
theorem exact_iff_in_range (text : Bytes) : ExactOrRefused text ↔ InRange text :=
  ⟨in_range_of_exact, exact_of_in_range⟩

/-- One millisecond too many for the count comes back negative. -/
theorem longest_count_wraps :
    parseDurationMs (ascii "9223372036854775808") = some Int64.minValue ∧
      ¬ ∀ text, ExactOrRefused text := by
  constructor
  · decide
  · intro always
    have reads : Reads (ascii "9223372036854775808") (2 ^ 63) 1 :=
      ⟨ascii "9223372036854775808", [], by simp, by decide, by decide, by decide, by decide⟩
    exact absurd (in_range_of_exact (always _) _ _ reads (by decide)) (by decide)

end SlurmTracer.Durations
