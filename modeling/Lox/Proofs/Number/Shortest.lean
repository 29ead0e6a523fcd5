import Lox.Proofs.Number.Decimal

/-!
The decimal that stands for a number reads back as it. A decimal of at most seventeen digits is
taken only after it was read back, and the exact value, which stands in for it, reads back because
it is a number.
-/

set_option autoImplicit false

namespace Lox.Decimal

open Lox.Binary64 Float.Model Float.Model.UnpackedFloat

section Ratio

variable {number : Float} {sign : Sign}

theorem toNat_parts (number : Float) :
    number.toBits.toNat / Ratio.leastNormal % 0x800 = (biasedOf number.toBits.toBitVec).toNat ∧
      number.toBits.toNat % Ratio.leastNormal = (storedOf number.toBits.toBitVec).toNat := by
  rw [biasedOf, storedOf, unpackExponent_def, unpackMantissa_def, BitVec.extractLsb'_toNat,
    BitVec.extractLsb'_toNat, Nat.shiftRight_eq_div_pow, Nat.shiftRight_zero]
  exact ⟨rfl, rfl⟩

/-- The fraction that the parts of a word make. -/
theorem ofFloat_eq (number : Float) :
    Ratio.ofFloat number =
      let biased := biasedOf number.toBits.toBitVec
      let stored := storedOf number.toBits.toBitVec
      let significand := if biased = 0#11 then stored.toNat else 2 ^ 52 + stored.toNat
      let exponent : Int := if biased = 0#11 then -1074 else biased.toNat - 1075
      ⟨significand * Nat.pow 2 exponent.toNat, Nat.pow 2 (-exponent).toNat⟩ := by
  obtain ⟨biased, stored⟩ := toNat_parts number
  have least (place : BitVec 11) : place.toNat = 0 ↔ place = 0#11 := BitVec.toNat_inj (y := 0#11)
  simp only [Ratio.ofFloat, biased, stored, least]
  rfl

theorem ofFloat_of_finite {significand : Nat} {exponent : Int} {positive : 0 < significand}
    (held : number.toModel.unpack = .finite sign significand exponent positive) :
    Ratio.ofFloat number =
      ⟨significand * Nat.pow 2 exponent.toNat, Nat.pow 2 (-exponent).toNat⟩ := by
  have unpacked : UnpackedFloat.unpack .binary64 number.toBits.toBitVec =
      .finite sign significand exponent positive := held
  rw [unpack_word] at unpacked
  rw [ofFloat_eq]
  split_ifs at unpacked with reserved empty least zero
  · injection unpacked with _ same level
    simp only [if_pos least, same, level]
  · injection unpacked with _ same level
    simp only [if_neg least, same, level]

theorem ofFloat_of_zero (held : number.toModel.unpack = .zero sign) :
    (Ratio.ofFloat number).numerator = 0 := by
  have unpacked : UnpackedFloat.unpack .binary64 number.toBits.toBitVec = .zero sign := held
  rw [unpack_word] at unpacked
  rw [ofFloat_eq]
  split_ifs at unpacked with reserved empty least zero
  simp only [if_pos least, zero]
  exact Nat.zero_mul _

end Ratio

theorem toFloat_of_neighbour? {ratio : Ratio} {number : Float} {exponent : Int} {found : Decimal}
    (taken : ratio.neighbour? number exponent = some found) : found.toFloat = number := by
  have back {decimal : Decimal} (read : (decimal.toFloat.toBits == number.toBits) = true) :
      decimal.toFloat = number := Float.toBits_inj.1 (eq_of_beq read)
  simp only [Ratio.neighbour?] at taken
  split at taken
  · contradiction
  · rename_i below above
    obtain rfl := Option.some.inj taken
    exact back below
  · rename_i below above
    obtain rfl := Option.some.inj taken
    exact back above
  · rename_i below above
    split at taken
    · obtain rfl := Option.some.inj taken
      exact back below
    · obtain rfl := Option.some.inj taken
      exact back above
    · obtain rfl := Option.some.inj taken
      split_ifs
      · exact back below
      · exact back above

/-- The exact value of a number stands for it. -/
theorem value_exactly (significand : Nat) (exponent : Int) :
    (Ratio.exactly ⟨significand * Nat.pow 2 exponent.toNat, Nat.pow 2 (-exponent).toNat⟩).value =
      size significand exponent := by
  have power : (2 : ℚ) ^ exponent = 2 ^ exponent.toNat * (2 ^ (-exponent).toNat)⁻¹ := by
    rw [← zpow_natCast, ← zpow_natCast, ← zpow_neg, ← zpow_add₀ (by norm_num)]
    congr 1
    omega
  have ten : (10 : ℚ) ^ (-exponent).toNat = 5 ^ (-exponent).toNat * 2 ^ (-exponent).toNat := by
    rw [← mul_pow]
    norm_num
  simp only [Ratio.exactly, value, size, power, Nat.pow_eq, Nat.log2_two_pow, zpow_neg,
    zpow_natCast, ten]
  push_cast
  field_simp

/-- The shortest decimal reads back as the size of the number. -/
theorem toFloat_shortest {number : Float} (finite : number.isFinite) :
    (shortest number).toFloat = number.abs := by
  obtain ⟨sign, -, held⟩ := exists_held finite
  have size := held.abs
  rw [← unpack_abs finite] at size
  generalize value : number.abs.toModel.unpack = unpacked at size
  apply eq_of_unpack
  cases size with
  | zero =>
      have read := toFloat_of_zero (rfl : (⟨0, 0⟩ : Decimal).digits = 0)
      simp only [shortest, if_pos (ofFloat_of_zero value)]
      rw [value, read]
      exact unpack_packedZero
  | @finite significand exponent canonical =>
      have ratio := ofFloat_of_finite value
      have inhabited : (Ratio.ofFloat number.abs).numerator ≠ 0 := by
        rw [ratio]
        exact (Nat.mul_pos canonical.positive (Nat.pow_pos (by decide))).ne'
      simp only [shortest, if_neg inhabited]
      rw [toFloat_eq_of_value (value_reduced _)]
      cases search : (List.range 17).findSome? fun (count : Nat) =>
          (Ratio.ofFloat number.abs).neighbour? number.abs
            ((Ratio.ofFloat number.abs).scale - (count + 1 : Nat)) with
      | some found =>
          obtain ⟨count, -, taken⟩ := List.exists_of_findSome?_eq_some search
          rw [Option.getD_some, toFloat_of_neighbour? taken]
      | none =>
          have exact := value_exactly significand exponent
          rw [← ratio] at exact
          rw [Option.getD_none, toFloat_of_size canonical exact, value]
          exact canonical.unpack_pack .positive

/-- The shortest decimal has no final zero among its digits. -/
theorem isReduced_shortest (number : Float) : (shortest number).IsReduced := by
  simp only [shortest]
  split_ifs
  · exact .inl rfl
  · exact isReduced_reduced _

end Lox.Decimal
