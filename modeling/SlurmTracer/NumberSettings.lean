import SlurmTracer.Core.ConfigFile
import SlurmTracer.Lib.Decimal

/-!
Numbers in the config file, written as such and written as strings. Every value
is turned back into text before it is read, and the text of an integer goes
through `int64_t`: the two ways of writing a number agree below 2^63 and nowhere
else (`alike_iff_signed`).
-/
namespace SlurmTracer.NumberSettings
open SlurmTracer.Core Lib Lib.Decimal ConfigFile

/-- An integer literal that is not negative and fits is read as an unsigned
number. -/
def ReadsLiterals (lib : JsonLibrary) : Prop := ∀ n : UInt64, lib.parse (toDecimal n.toNat) = .ok (.unsigned n)

/-- The settings of a component in which one value was set. -/
def setTo (lib : JsonLibrary) (c : ComponentConfig) (key : Bytes) (v : Json) : Except JsonException ComponentConfig :=
  loadSettings lib c [(key, v)]

/-- A setting with this literal is the setting with its text as a string. -/
structure Alike (lib : JsonLibrary) (n : UInt64) (literal : Json) : Prop where
  text : stringify lib literal = .ok (toDecimal n.toNat)
  component : ∀ c key, ∃ loaded, setTo lib c key literal = .ok loaded ∧
    setTo lib c key (.string (toDecimal n.toNat)) = .ok loaded ∧ ∀ fallback, loaded.getUint key fallback = n
  node : ∀ config key, key ∈ [ascii "batch_size", ascii "flush_interval", ascii "verbose"] →
    nodeHandler lib config key literal = nodeHandler lib config key (.string (toDecimal n.toNat))

variable {lib : JsonLibrary} {n : UInt64}

/-! ### Through `int64_t` -/

theorem to_int64_eq (n : UInt64) : n.toInt64 = Int64.ofNat n.toNat := by
  rw [← UInt64.toInt64_ofNat', UInt64.ofNat_toNat]

theorem to_int64_exact (small : n.toNat < 2 ^ 63) : n.toInt64.toInt = n.toNat := by
  rw [to_int64_eq, Int64.toInt_ofNat_of_lt small]

theorem to_int64_negative (big : 2 ^ 63 ≤ n.toNat) : n.toInt64 < 0 := by
  have bound := n.toNat_lt
  rw [Int64.lt_iff_toInt_lt, to_int64_eq, Int64.toInt_ofNat', Int.bmod_def]
  simp only [Int64.size, Int64.toInt_zero]
  omega

/-- Below 2^63 an unsigned number is printed as it is. -/
theorem stringify_small (small : n.toNat < 2 ^ 63) : stringify lib (.unsigned n) = .ok (toDecimal n.toNat) := by
  have signed := to_int64_exact small
  have notNegative : ¬ n.toInt64 < 0 := by
    rw [Int64.lt_iff_toInt_lt, signed, Int64.toInt_zero]
    omega
  rw [stringify, toStringInt, if_neg notNegative, signed, Int.natAbs_natCast]

/-- From 2^63 on it is printed with a sign. -/
theorem stringify_big (big : 2 ^ 63 ≤ n.toNat) :
    ∃ digits, stringify lib (.unsigned n) = .ok (45 :: digits) := by
  rw [stringify, toStringInt, if_pos (to_int64_negative big)]
  exact ⟨_, rfl⟩

/-! ### Reading a setting -/

theorem get_uint_decimal {c : ComponentConfig} {key : Bytes} (set : c.values[key]? = some (toDecimal n.toNat))
    (fallback : UInt64) : c.getUint key fallback = n := by
  have digits : ¬ (toDecimal n.toNat = [] ∨ (toDecimal n.toNat).any (fun c => !isDigit c) = true) := by
    rintro (empty | stray)
    · exact to_decimal_filled _ empty
    · obtain ⟨c, member, bad⟩ := List.any_eq_true.mp stray
      simp [to_decimal_digits _ c member] at bad
  rw [ComponentConfig.getUint, set]
  dsimp only
  rw [if_neg digits, strtoul_to_decimal n.toNat_lt]
  exact UInt64.ofNat_toNat

/-- Two values with one text are one setting. -/
theorem set_to_eq {v v' : Json} (same : stringify lib v = stringify lib v') (c : ComponentConfig) (key : Bytes) :
    setTo lib c key v = setTo lib c key v' := by
  simp only [setTo, loadSettings, List.foldlM_cons, List.foldlM_nil, same]

theorem node_handler_eq {v v' : Json} (same : stringify lib v = stringify lib v') (config : Config) {key : Bytes}
    (numeric : key ∈ [ascii "batch_size", ascii "flush_interval", ascii "verbose"]) :
    nodeHandler lib config key v = nodeHandler lib config key v' := by
  have others : key ≠ ascii "cluster" ∧ key ≠ ascii "node" ∧ key ≠ ascii "plugin_dir" := by
    revert key
    decide
  simp only [nodeHandler, others, if_false, same]

theorem alike_of_text {literal : Json} (text : stringify lib literal = .ok (toDecimal n.toNat)) :
    Alike lib n literal := by
  have same : stringify lib literal = stringify lib (.string (toDecimal n.toNat)) := text
  refine ⟨text, fun c key => ?_, fun config key numeric => node_handler_eq same config numeric⟩
  have loads : setTo lib c key (.string (toDecimal n.toNat)) = .ok (c.set key (toDecimal n.toNat)) := rfl
  refine ⟨_, (set_to_eq same c key).trans loads, loads, fun fallback => ?_⟩
  exact get_uint_decimal Std.TreeMap.getElem?_insert_self fallback

/-- Printed with a sign, a literal has not the text of its number. -/
theorem small_of_alike (alike : Alike lib n (.unsigned n)) : n.toNat < 2 ^ 63 := by
  by_contra big
  obtain ⟨digits, printed⟩ : ∃ digits, stringify lib (.unsigned n) = .ok (45 :: digits) :=
    stringify_big (Nat.not_lt.mp big)
  have text := alike.text
  rw [printed] at text
  have sign : (45 : UInt8) ∈ toDecimal n.toNat := by
    rw [← Except.ok.inj text]
    exact List.mem_cons_self
  exact absurd (to_decimal_digits _ 45 sign) (by decide)

/-- The two ways of writing a number mean the same exactly below 2^63. -/
theorem alike_iff_signed (reads : ReadsLiterals lib) (n : UInt64) :
    (∀ literal, lib.parse (toDecimal n.toNat) = .ok literal → Alike lib n literal) ↔ n.toNat < 2 ^ 63 := by
  constructor
  · exact fun alike => small_of_alike (alike _ (reads n))
  · intro small literal parsed
    rw [reads n] at parsed
    cases parsed
    exact alike_of_text (stringify_small small)

/-- A library that reads unsigned literals and nothing else. -/
def literals : JsonLibrary where
  parse := fun content =>
    match strtoul content with
    | some value =>
      if content = toDecimal value then .ok (.unsigned (UInt64.ofNat value))
      else .error (.syntaxError (ascii "[json.exception.parse_error.101] parse error"))
    | none => .error (.syntaxError (ascii "[json.exception.parse_error.101] parse error"))
  dump := fun _ => .ok (ascii "null")
  notString := fun _ => ascii "[json.exception.type_error.302] type must be string"

theorem literals_read : ReadsLiterals literals := by
  intro n
  simp only [literals, strtoul_to_decimal n.toNat_lt, if_pos, UInt64.ofNat_toNat]

theorem alike_iff_signed_literals : (∀ literal, literals.parse (toDecimal 1024) = .ok literal →
    Alike literals 1024 literal) ↔ (1024 : UInt64).toNat < 2 ^ 63 :=
  alike_iff_signed literals_read 1024

/-- 2^63 is read as a negative number, and as a setting it falls back. -/
theorem big_literal_falls_back :
    ¬ ∀ lib, ReadsLiterals lib → ∀ n : UInt64, ∀ literal, lib.parse (toDecimal n.toNat) = .ok literal →
      Alike lib n literal := by
  intro always
  have alike := always literals literals_read 9223372036854775808 _ (literals_read _)
  exact absurd (small_of_alike alike) (by decide)

end SlurmTracer.NumberSettings
