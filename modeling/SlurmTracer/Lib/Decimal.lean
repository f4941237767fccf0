import Mathlib.Data.List.Induction
import Mathlib.Data.List.TakeWhile
import SlurmTracer.Lib.Bytes

/-! Decimal numerals: what is printed reads back, and a text of digits and
something else is split where the digits end. -/
namespace SlurmTracer.Lib.Decimal

variable {digits rest : Bytes}

def AllDigits (digits : Bytes) : Prop := ∀ c ∈ digits, isDigit c = true

instance (digits : Bytes) : Decidable (AllDigits digits) :=
  decidable_of_iff (digits.all isDigit = true) List.all_eq_true

@[simp] theorem digits_value_nil : digitsValue [] = 0 := rfl

theorem digits_value_snoc (digits : Bytes) (c : UInt8) :
    digitsValue (digits ++ [c]) = 10 * digitsValue digits + (c.toNat - 48) := by
  rw [digitsValue, List.foldl_append]
  rfl

theorem digit_bounds {c : UInt8} (digit : isDigit c = true) : 48 ≤ c.toNat ∧ c.toNat ≤ 57 := by
  simp only [isDigit, Bool.and_eq_true, decide_eq_true_eq, UInt8.le_iff_toNat_le] at digit
  exact digit

/-- The last digit is printed last. -/
theorem to_decimal_eq (n : Nat) :
    toDecimal n = (if n < 10 then [] else toDecimal (n / 10)) ++ [(n % 10).digitChar.toNat.toUInt8] := by
  unfold toDecimal
  rw [Nat.toDigits_eq_if (by omega)]
  split
  · rw [Nat.mod_eq_of_lt ‹_›]
    rfl
  · rw [List.map_append]
    rfl

theorem to_decimal_filled (n : Nat) : toDecimal n ≠ [] := by
  rw [to_decimal_eq]
  simp

/-- A printed number reads back. -/
theorem digits_value_to_decimal (n : Nat) : digitsValue (toDecimal n) = n := by
  induction n using Nat.strongRecOn with
  | ind n ih =>
    have last : ((n % 10).digitChar.toNat.toUInt8).toNat = 48 + n % 10 := by
      rw [Nat.toNat_digitChar_of_lt_ten (Nat.mod_lt _ (by omega)), UInt8.toNat_ofNat']
      omega
    rw [to_decimal_eq, digits_value_snoc, last]
    split
    · rw [digits_value_nil]
      omega
    · rw [ih (n / 10) (by omega)]
      omega

theorem strtoul_to_decimal {n : Nat} (fits : n < 2 ^ 64) : strtoul (toDecimal n) = some n := by
  rw [strtoul, digits_value_to_decimal, if_pos fits]

theorem digits_value_lt (all : AllDigits digits) : digitsValue digits < 10 ^ digits.length := by
  induction digits using List.reverseRecOn with
  | nil => simp
  | append_singleton digits c ih =>
    have before := ih fun c member => all c (List.mem_append_left _ member)
    have bounds := digit_bounds (all c (by simp))
    rw [digits_value_snoc, List.length_append, List.length_singleton, Nat.pow_succ]
    omega

theorem all_digits_take (text : Bytes) : AllDigits (text.takeWhile isDigit) :=
  fun _ member => List.mem_takeWhile_imp member

end SlurmTracer.Lib.Decimal
