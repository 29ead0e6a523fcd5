import Lox.Proofs.Number.Rounding
import Lox.Proofs.Number.Stored

/-!
Reading decimals. What a decimal `digits * 10 ^ power` is read as is rounded from it once, both
where the digits and the power of ten are numbers themselves, so that one operation on the two is
enough, and where they are not.
-/

set_option autoImplicit false

namespace Lox.Binary64

open Float.Model Float.Model.UnpackedFloat

/-- A whole number with its first binary digit where that of a full significand is. -/
theorem canonical_whole {whole : Nat} (positive : 0 < whole) (below : whole < 2 ^ 53) :
    Canonical (whole * 2 ^ (52 - whole.log2)) (0 - (52 - whole.log2 : Nat)) := by
  obtain ⟨low, high⟩ := (Nat.log2_eq_iff positive.ne').1 rfl
  have length : whole.log2 < 53 := (Nat.log2_lt positive.ne').2 below
  have full : 2 ^ 52 ≤ whole * 2 ^ (52 - whole.log2) :=
    calc 2 ^ 52
      _ = 2 ^ whole.log2 * 2 ^ (52 - whole.log2) := by rw [← pow_add]; congr 1; omega
      _ ≤ whole * 2 ^ (52 - whole.log2) := Nat.mul_le_mul_right _ low
  have narrow : whole * 2 ^ (52 - whole.log2) < 2 ^ 53 :=
    calc whole * 2 ^ (52 - whole.log2)
      _ < 2 ^ (whole.log2 + 1) * 2 ^ (52 - whole.log2) :=
        Nat.mul_lt_mul_of_pos_right high (by positivity)
      _ = 2 ^ 53 := by rw [← pow_add]; congr 1; omega
  exact ⟨⟨narrow, by omega, by omega, .inl full⟩, by omega⟩

theorem ofNat_whole {whole : Nat} (positive : 0 < whole) (below : whole < 2 ^ 53) :
    UnpackedFloat.ofNat .binary64 whole =
      .finite .positive (whole * 2 ^ (52 - whole.log2)) (0 - (52 - whole.log2 : Nat))
        (canonical_whole positive below).positive := by
  have above : compare (whole : Int) 0 = .gt := by
    rw [Int.compare_eq_gt]
    omega
  have length : whole.log2 < 53 := (Nat.log2_lt positive.ne').2 below
  have shift : ((0 : Int) - Format.binary64.targetExponent (totalExponent whole 0)).toNat =
      52 - whole.log2 := by
    rw [targetExponent_eq, totalExponent]
    omega
  simp only [UnpackedFloat.ofNat, UnpackedFloat.ofInt, UnpackedFloat.normalize, above,
    UnpackedFloat.round, decreaseExponent, Int.toNat_natCast, shift, Nat.shiftLeft_eq]
  have canonical := canonical_whole positive below
  have full := canonical.full.resolve_right (by omega)
  have rounded := round_size (0 - (52 - whole.log2 : Nat)) full .positive
  rw [rounded.eq_of_fits canonical.toFits, signed_of_pos canonical.positive]

theorem unpack_toFloat {whole : Nat} (positive : 0 < whole) (below : whole < 2 ^ 53) :
    whole.toUInt64.toFloat.toModel.unpack =
      .finite .positive (whole * 2 ^ (52 - whole.log2)) (0 - (52 - whole.log2 : Nat))
        (canonical_whole positive below).positive := by
  have same : whole.toUInt64.toNat = whole := by
    rw [Nat.toUInt64_eq, UInt64.toNat_ofNat']
    omega
  have stored : whole.toUInt64.toFloat.toModel =
      .pack (UnpackedFloat.ofNat .binary64 whole.toUInt64.toNat) := rfl
  rw [stored, same, ofNat_whole positive below]
  exact (canonical_whole positive below).unpack_pack .positive

/-- Whether a number is a power of ten that is stored with a full significand. -/
def isPowerOfTen (power : Nat) : UnpackedFloat → Bool
  | .finite .positive significand exponent _ =>
    2 ^ 52 ≤ significand && -52 ≤ exponent &&
      significand * 2 ^ (exponent + 52).toNat == 10 ^ power * 2 ^ 52
  | _ => false

theorem exists_of_isPowerOfTen {power : Nat} {number : UnpackedFloat}
    (found : isPowerOfTen power number) :
    ∃ significand exponent, ∃ positive, number = .finite .positive significand exponent positive ∧
      2 ^ 52 ≤ significand ∧ size significand exponent = 10 ^ power := by
  unfold isPowerOfTen at found
  split at found
  · rename_i significand exponent positive
    simp only [Bool.and_eq_true, decide_eq_true_eq, beq_iff_eq] at found
    obtain ⟨⟨full, least⟩, scaled⟩ := found
    have shifted := size_shift significand least
    rw [Int.sub_neg, scaled] at shifted
    refine ⟨significand, exponent, positive, rfl, full, ?_⟩
    rw [← shifted]
    exact_mod_cast size_places (10 ^ power) 52
  · exact absurd found Bool.false_ne_true

theorem powersOfTen : ∀ power : Fin 23,
    isPowerOfTen power Float.exactlyRepresentablePowersOfTen[power].toModel.unpack := by
  decide

section Reading

variable {digits : Nat} (positive : 0 < digits) {power : Int}

include positive

/-- A power of ten that is too large to be computed makes a decimal above all numbers. -/
theorem overflow_of_power (large : 2 ^ 11 < power) :
    size (2 ^ 52) 972 ≤ (digits : ℚ) * 10 ^ power :=
  calc size (2 ^ 52) 972
    _ = 2 ^ (1024 : Int) := size_two_pow 52 972
    _ ≤ 2 ^ power := zpow_le_zpow_right₀ (by norm_num) (by omega)
    _ ≤ 10 ^ power := zpow_le_zpow_left₀ (by omega) (by norm_num) (by norm_num)
    _ ≤ digits * 10 ^ power := le_mul_of_one_le_left (by positivity) (by exact_mod_cast positive)

/-- One that is too small makes a decimal next to zero. -/
theorem below_of_power (small : power < -(2 ^ 11 + (digits.log2 : Int))) :
    (digits : ℚ) * 10 ^ power < 2 ^ (-1075 : Int) := by
  have narrow : (digits : ℚ) < 2 ^ ((digits.log2 : Int) + 1) := by
    exact_mod_cast (Nat.log2_eq_iff positive.ne').1 rfl |>.2
  have tens : (10 : ℚ) ^ power ≤ 2 ^ power := by
    obtain ⟨places, rfl⟩ : ∃ places : Nat, power = -places := ⟨(-power).toNat, by omega⟩
    rw [zpow_neg, zpow_neg, zpow_natCast, zpow_natCast]
    exact inv_anti₀ (by positivity) (pow_le_pow_left₀ (by norm_num) (by norm_num) places)
  calc (digits : ℚ) * 10 ^ power
    _ < 2 ^ ((digits.log2 : Int) + 1) * 2 ^ power :=
      mul_lt_mul narrow tens (by positivity) (by positivity)
    _ = 2 ^ ((digits.log2 : Int) + 1 + power) := (zpow_add₀ (by norm_num) _ _).symm
    _ ≤ 2 ^ (-1075 : Int) := zpow_le_zpow_right₀ (by norm_num) (by omega)

omit positive in
theorem rounded_zero {exact : ℚ} (above : 0 ≤ exact) (below : exact < 2 ^ (-1075 : Int)) :
    Rounded .positive exact (.zero .positive) := by
  have half : (2 : ℚ) ^ (-1075 : Int) / 2 ^ (-1074 : Int) = 1 / 2 := by
    rw [← zpow_sub₀ (by norm_num)]
    norm_num
  have near : |exact / 2 ^ (-1074 : Int) - (0 : Nat)| < 1 / 2 := by
    rw [Nat.cast_zero, sub_zero, abs_of_nonneg (by positivity), ← half]
    exact div_lt_div_of_pos_right below (by positivity)
  have spans : Spans exact (-1074) := by
    refine ⟨le_rfl, below.trans ?_, .inr rfl⟩
    rw [size_two_pow]
    exact zpow_lt_zpow_right₀ (by norm_num) (by norm_num)
  exact .within spans (.of_lt near) (by decide)

theorem ofScientific_rounded :
    Rounded .positive (digits * 10 ^ power)
      (UnpackedFloat.ofScientific .binary64 digits power) := by
  rw [UnpackedFloat.ofScientific, dif_neg positive.ne']
  split_ifs with large small whole
  · exact .overflow (overflow_of_power positive large)
  · exact rounded_zero (by positivity) (below_of_power positive small)
  · obtain ⟨places, rfl⟩ := Int.eq_ofNat_of_zero_le whole
    have wide : 2 ^ 52 ≤ digits <<< 53 * 10 ^ places := by
      rw [Nat.shiftLeft_eq, Nat.mul_comm digits, Nat.mul_assoc]
      exact (by decide : 2 ^ 52 ≤ 2 ^ 53).trans (Nat.le_mul_of_pos_right _ (by positivity))
    have sizes : size (digits <<< 53) (-(53 : Nat)) * size (10 ^ places) 0 =
        digits * 10 ^ (places : Int) := by
      rw [Nat.shiftLeft_eq, size_places, size_zero, zpow_natCast]
      push_cast
      rfl
    rw [← sizes]
    exact mul_rounded _ _ _ _ wide .positive .positive
  · obtain ⟨places, rfl⟩ : ∃ places : Nat, power = -places := ⟨(-power).toNat, by omega⟩
    have sizes : size digits 0 / size (10 ^ places) 0 = digits * 10 ^ (-places : Int) := by
      rw [size_zero, size_zero, zpow_neg, zpow_natCast, div_eq_mul_inv]
      push_cast
      rfl
    rw [← sizes]
    simp only [neg_neg, Int.toNat_natCast]
    exact div_rounded _ _ _ _ .positive .positive

/-- Where the digits and the power of ten are numbers themselves, one operation is enough. -/
theorem divided_rounded {tens : Float} (held : isPowerOfTen power.natAbs tens.toModel.unpack)
    (narrow : digits < 2 ^ 53) (negative : power < 0) :
    ∃ value, Rounded .positive (digits * 10 ^ power) value ∧
      (digits.toUInt64.toFloat / tens).toModel = .pack value := by
  obtain ⟨second, low, other, stored, full, sizeTens⟩ := exists_of_isPowerOfTen held
  have first := unpack_toFloat positive narrow
  have sizes : size (digits * 2 ^ (52 - digits.log2)) (0 - (52 - digits.log2 : Nat)) /
      size second low = digits * 10 ^ power := by
    obtain ⟨places, rfl⟩ : ∃ places : Nat, power = -places := ⟨(-power).toNat, by omega⟩
    rw [sizeTens, zero_sub, size_places, zpow_neg, zpow_natCast, Int.natAbs_neg,
      Int.natAbs_natCast, div_eq_mul_inv]
  have rounded := div_rounded (0 - (52 - digits.log2 : Nat)) low
    (canonical_whole positive narrow).positive other .positive .positive
  rw [sizes, ← first, ← stored] at rounded
  exact ⟨_, rounded, rfl⟩

theorem multiplied_rounded {tens : Float} (held : isPowerOfTen power.natAbs tens.toModel.unpack)
    (narrow : digits < 2 ^ 53) (whole : 0 ≤ power) :
    ∃ value, Rounded .positive (digits * 10 ^ power) value ∧
      (digits.toUInt64.toFloat * tens).toModel = .pack value := by
  obtain ⟨second, low, other, stored, full, sizeTens⟩ := exists_of_isPowerOfTen held
  have first := unpack_toFloat positive narrow
  have filled := (canonical_whole positive narrow).full.resolve_right (by omega)
  have wide : 2 ^ 52 ≤ digits * 2 ^ (52 - digits.log2) * second :=
    filled.trans (Nat.le_mul_of_pos_right _ other)
  have sizes : size (digits * 2 ^ (52 - digits.log2)) (0 - (52 - digits.log2 : Nat)) *
      size second low = digits * 10 ^ power := by
    obtain ⟨places, rfl⟩ := Int.eq_ofNat_of_zero_le whole
    rw [sizeTens, zero_sub, size_places, zpow_natCast, Int.natAbs_natCast]
  have rounded := mul_rounded (0 - (52 - digits.log2 : Nat)) low
    (canonical_whole positive narrow).positive other wide .positive .positive
  rw [sizes, ← first, ← stored] at rounded
  exact ⟨_, rounded, rfl⟩

/-- A decimal is read as it is rounded. -/
theorem exists_rounded :
    ∃ value, Rounded .positive (digits * 10 ^ power) value ∧
      (Float.ofScientific digits (power < 0) power.natAbs).toModel = .pack value := by
  rw [Float.ofScientific]
  by_cases small : digits < 2 ^ 53 ∧ power.natAbs ≤ 22
  · have held := powersOfTen ⟨power.natAbs, Nat.lt_succ_of_le small.2⟩
    rw [dif_pos small]
    by_cases negative : power < 0
    · rw [if_pos (decide_eq_true negative)]
      exact divided_rounded positive held small.1 negative
    · rw [if_neg (by simpa using negative)]
      exact multiplied_rounded positive held small.1 (Int.not_lt.1 negative)
  · have whole : (if decide (power < 0) then Int.negOfNat power.natAbs
        else Int.ofNat power.natAbs) = power := by
      rw [Int.negOfNat_eq, Int.ofNat_eq_natCast]
      simp only [decide_eq_true_eq]
      omega
    rw [dif_neg small]
    simp only [whole]
    exact ⟨_, ofScientific_rounded positive, rfl⟩

end Reading

end Lox.Binary64
