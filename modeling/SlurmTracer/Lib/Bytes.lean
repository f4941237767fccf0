import Mathlib.Algebra.Group.Nat.Defs
import Mathlib.Data.List.Basic

/-! Byte strings and the C library's decimal conversions. A `std::string` is
a list of bytes with no encoding promised. -/
namespace SlurmTracer.Lib

abbrev Bytes := List UInt8

/-- An ASCII literal as the bytes the compiler stores for it. -/
def ascii (text : String) : Bytes := text.toList.map fun c => c.toNat.toUInt8

def isDigit (c : UInt8) : Bool := 48 ≤ c && c ≤ 57

/-- The number a run of decimal digits spells, unbounded. -/
def digitsValue (digits : Bytes) : Nat :=
  digits.foldl (fun value c => 10 * value + (c.toNat - 48)) 0

/-- `strtoul`/`strtoull` on a run of digits, 64-bit `unsigned long`. `none`
is `ERANGE`. -/
def strtoul (digits : Bytes) : Option Nat :=
  if digitsValue digits < 2 ^ 64 then some (digitsValue digits) else none

/-- `std::to_string` of a non-negative integer. -/
def toDecimal (value : Nat) : Bytes :=
  (Nat.toDigits 10 value).map fun c => c.toNat.toUInt8

theorem digit_char_bound (c : Char) (digit : c.isDigit = true) :
    48 ≤ c.toNat ∧ c.toNat ≤ 57 := by
  simp only [Char.isDigit, Bool.and_eq_true, decide_eq_true_eq, UInt32.le_iff_toNat_le] at digit
  exact digit

/-- A printed number is made of digits alone. -/
theorem to_decimal_digits (value : Nat) : ∀ c ∈ toDecimal value, isDigit c = true := by
  intro c member
  obtain ⟨char, held, rfl⟩ := List.mem_map.mp member
  obtain ⟨low, high⟩ := digit_char_bound char (Nat.isDigit_of_mem_toDigits (by omega) (by omega) held)
  have fits : char.toNat.toUInt8.toNat = char.toNat := by
    rw [UInt8.toNat_ofNat']
    omega
  simp only [isDigit, Bool.and_eq_true, decide_eq_true_eq, UInt8.le_iff_toNat_le, fits]
  exact ⟨low, high⟩

end SlurmTracer.Lib
