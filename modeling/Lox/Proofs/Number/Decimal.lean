import Lox.Proofs.Number.Nearest
import Lox.Proofs.Number.Scientific

/-!
The rational that a decimal stands for. A decimal is read as the number nearest to that rational
(`Decimal.toFloat_nearest`), so it is read by what it stands for alone; and the digits that write a
decimal without an exponent stand for it.
-/

set_option autoImplicit false

namespace Lox.Decimal

/-- The rational `digits * 10 ^ exponent`. -/
def value (decimal : Decimal) : ℚ :=
  decimal.digits * (10 : ℚ) ^ decimal.exponent

/-- Whether the last digit is not zero; a zero has exponent 0. -/
def IsReduced (decimal : Decimal) : Prop :=
  decimal = ⟨0, 0⟩ ∨ decimal.digits % 10 ≠ 0

/-- Zeros at the end of the digits make up for a smaller exponent. -/
theorem value_mul_pow (digits places : Nat) (exponent : Int) :
    value ⟨digits * 10 ^ places, exponent⟩ = value ⟨digits, exponent + places⟩ := by
  unfold value
  rw [zpow_add₀ (by norm_num), zpow_natCast]
  push_cast
  ring

theorem value_zero (exponent : Int) : value ⟨0, exponent⟩ = 0 := by
  rw [value, Nat.cast_zero, zero_mul]

theorem value_eq_zero_iff {decimal : Decimal} : decimal.value = 0 ↔ decimal.digits = 0 := by
  have power : (10 : ℚ) ^ decimal.exponent ≠ 0 := by positivity
  rw [value, mul_eq_zero, or_iff_left power, Nat.cast_eq_zero]

theorem value_reduced (decimal : Decimal) : decimal.reduced.value = decimal.value := by
  fun_induction reduced decimal with
  | case1 decimal zero => rw [value_zero, value_eq_zero_iff.2 zero]
  | case2 decimal nonzero ends ih =>
      have shifted := value_mul_pow (decimal.digits / 10) 1 decimal.exponent
      have whole : decimal.digits / 10 * 10 ^ 1 = decimal.digits := by omega
      rw [ih, ← Nat.cast_one, ← shifted, whole]
  | case3 => rfl

theorem isReduced_reduced (decimal : Decimal) : decimal.reduced.IsReduced := by
  fun_induction reduced decimal with
  | case1 => exact .inl rfl
  | case2 decimal nonzero ends ih => exact ih
  | case3 decimal nonzero ends => exact .inr ends

section Reading

open Lox.Binary64 Float.Model Float.Model.UnpackedFloat

theorem toFloat_of_zero {decimal : Decimal} (zero : decimal.digits = 0) :
    decimal.toFloat.toModel = .pack (.zero .positive) := by
  have reduced : decimal.reduced = ⟨0, 0⟩ := by rw [Decimal.reduced, if_pos zero]
  rw [toFloat, reduced]
  decide

/-- A decimal is read as what it stands for is rounded to. -/
theorem exists_rounded (decimal : Decimal) :
    ∃ value, Rounded .positive decimal.value value ∧ decimal.toFloat.toModel = .pack value := by
  rcases decimal.digits.eq_zero_or_pos with zero | positive
  · have nothing : decimal.value = 0 := value_eq_zero_iff.2 zero
    rw [nothing]
    exact ⟨_, rounded_zero le_rfl (by positivity), toFloat_of_zero zero⟩
  · have positive : 0 < decimal.reduced.digits := by
      rw [Nat.pos_iff_ne_zero, Ne, ← value_eq_zero_iff, value_reduced, value_eq_zero_iff]
      exact positive.ne'
    rw [← value_reduced]
    exact Binary64.exists_rounded positive

/-- A decimal is read as the number nearest to it. -/
theorem toFloat_nearest (decimal : Decimal) : IsNearest decimal.value decimal.toFloat := by
  obtain ⟨value, rounded, stored⟩ := decimal.exists_rounded
  exact rounded.isNearest stored

/-- A decimal is read by what it stands for. -/
theorem toFloat_eq_of_value {first second : Decimal} (same : first.value = second.value) :
    first.toFloat = second.toFloat := by
  have nearest := first.toFloat_nearest
  rw [same] at nearest
  exact nearest.unique second.toFloat_nearest

/-- A decimal that stands for a number is read as that number. -/
theorem toFloat_of_size {decimal : Decimal} {significand : Nat} {exponent : Int}
    (canonical : Canonical significand exponent)
    (same : decimal.value = size significand exponent) :
    decimal.toFloat.toModel =
      .pack (.finite .positive significand exponent canonical.positive) := by
  obtain ⟨value, rounded, stored⟩ := decimal.exists_rounded
  rw [same] at rounded
  rw [stored, rounded.eq_of_fits canonical.toFits, signed_of_pos canonical.positive]

end Reading

section Digits

theorem natOfDigits_append (first second : List Char) :
    natOfDigits (first ++ second) =
      natOfDigits first * 10 ^ second.length + natOfDigits second :=
  calc natOfDigits (first ++ second)
    _ = Nat.ofDigitChars 10 second (natOfDigits first) := Nat.ofDigitChars_append 0
    _ = 10 ^ second.length * natOfDigits first + natOfDigits second :=
      Nat.ofDigitChars_eq_ofDigitChars_zero
    _ = natOfDigits first * 10 ^ second.length + natOfDigits second := by rw [Nat.mul_comm]

theorem natOfDigits_zeros (count : Nat) : natOfDigits (List.replicate count '0') = 0 :=
  Nat.ofDigitChars_replicate_zero

/-- Digits that end in a zero write a multiple of ten. -/
theorem natOfDigits_mod_ten {digits : List Char} (ends : digits.getLast? = some '0') :
    natOfDigits digits % 10 = 0 := by
  obtain ⟨before, rfl⟩ := List.getLast?_eq_some_iff.1 ends
  have last : natOfDigits ['0'] = 0 := rfl
  rw [natOfDigits_append, last, List.length_singleton, pow_one, Nat.add_zero, Nat.mul_mod_left]

theorem natOfDigits_digitsOfNat (number : Nat) : natOfDigits (digitsOfNat number) = number :=
  Nat.ofDigitChars_ten_toDigits

theorem isDigit_of_mem_digitsOfNat {number : Nat} {char : Char}
    (member : char ∈ digitsOfNat number) : isDigit char :=
  Nat.isDigit_of_mem_toDigits (by decide) (by decide) member

theorem digitsOfNat_ne_nil (number : Nat) : digitsOfNat number ≠ [] :=
  Nat.toDigits_ne_nil

/-- The digits of a decimal with zeros up to the point on one side or the other. -/
def padded (decimal : Decimal) : List Char :=
  List.replicate ((-decimal.exponent).toNat + 1 - (digitsOfNat decimal.digits).length) '0' ++
    digitsOfNat decimal.digits ++ List.replicate decimal.exponent.toNat '0'

theorem positional_eq (decimal : Decimal) :
    decimal.positional = (decimal.padded.take (decimal.padded.length - (-decimal.exponent).toNat),
      decimal.padded.drop (decimal.padded.length - (-decimal.exponent).toNat)) := by
  rw [positional, List.splitAt_eq]
  rfl

theorem length_padded (decimal : Decimal) :
    (-decimal.exponent).toNat < decimal.padded.length := by
  simp only [padded, List.length_append, List.length_replicate]
  omega

theorem natOfDigits_padded (decimal : Decimal) :
    natOfDigits decimal.padded = decimal.digits * 10 ^ decimal.exponent.toNat := by
  rw [padded, natOfDigits_append, natOfDigits_append, natOfDigits_zeros, natOfDigits_zeros,
    natOfDigits_digitsOfNat, List.length_replicate, Nat.zero_mul, Nat.zero_add, Nat.add_zero]

theorem isDigit_of_mem_padded {decimal : Decimal} {char : Char}
    (member : char ∈ decimal.padded) : isDigit char := by
  simp only [padded, List.mem_append] at member
  rcases member with (before | inside) | after
  · rw [List.eq_of_mem_replicate before]
    decide
  · exact isDigit_of_mem_digitsOfNat inside
  · rw [List.eq_of_mem_replicate after]
    decide

theorem positional_append (decimal : Decimal) :
    decimal.positional.1 ++ decimal.positional.2 = decimal.padded := by
  rw [positional_eq]
  exact List.take_append_drop _ _

theorem length_fraction (decimal : Decimal) :
    decimal.positional.2.length = (-decimal.exponent).toNat := by
  have long := decimal.length_padded
  rw [positional_eq, List.length_drop]
  omega

theorem whole_ne_nil (decimal : Decimal) : decimal.positional.1 ≠ [] := by
  have long := decimal.length_padded
  intro empty
  have length := congrArg List.length empty
  rw [positional_eq, List.length_take, List.length_nil] at length
  omega

theorem isDigit_of_mem_positional (decimal : Decimal) :
    ∀ char ∈ decimal.positional.1 ++ decimal.positional.2, isDigit char := by
  intro char member
  rw [positional_append] at member
  exact isDigit_of_mem_padded member

/-- The digits before and after the point stand for the decimal. -/
theorem value_positional (decimal : Decimal) :
    (ofDigits decimal.positional.1 decimal.positional.2).value = decimal.value := by
  have exponent : -((-decimal.exponent).toNat : Int) + decimal.exponent.toNat =
      decimal.exponent := by omega
  rw [ofDigits, positional_append, natOfDigits_padded, length_fraction, value_mul_pow, exponent]

/-- A reduced decimal has no zero at the end of its fraction. -/
theorem IsReduced.getLast?_fraction {decimal : Decimal} (reduced : decimal.IsReduced) :
    decimal.positional.2.getLast? ≠ some '0' := by
  intro zero
  obtain ⟨before, fraction⟩ := List.getLast?_eq_some_iff.1 zero
  have length := decimal.length_fraction
  rw [fraction, List.length_append, List.length_singleton] at length
  have ends : decimal.padded.getLast? = some '0' := by
    rw [← positional_append, fraction, ← List.append_assoc, List.getLast?_concat]
  have multiple := natOfDigits_mod_ten ends
  have whole : decimal.exponent.toNat = 0 := by omega
  rw [natOfDigits_padded, whole, pow_zero, Nat.mul_one] at multiple
  rcases reduced with rfl | nonzero
  · exact absurd length (by simp)
  · exact nonzero multiple

end Digits

end Lox.Decimal
