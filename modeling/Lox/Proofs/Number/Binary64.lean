import Mathlib

/-!
The sizes of binary64 numbers. The size of a number is a significand times a power of two, and the
format allows one significand and one power for it.
-/

set_option autoImplicit false

namespace Lox.Binary64

open Float.Model Float.Model.UnpackedFloat

/-- The significand and the exponent that a number is stored with, but for its sign. -/
structure Fits (significand : Nat) (exponent : Int) : Prop where
  below : significand < 2 ^ 53
  least : -1074 ≤ exponent
  most : exponent ≤ 971
  full : 2 ^ 52 ≤ significand ∨ exponent = -1074

/-- What a number other than zero is stored with. -/
structure Canonical (significand : Nat) (exponent : Int) : Prop extends
    Fits significand exponent where
  positive : 0 < significand

theorem fits_zero : Fits 0 (-1074) where
  below := by decide
  least := le_rfl
  most := by decide
  full := .inr rfl

/-- The number with a sign, a significand and an exponent, which is a zero if the significand is. -/
def signed (sign : Sign) (significand : Nat) (exponent : Int) : UnpackedFloat :=
  if zero : significand = 0 then .zero sign
  else .finite sign significand exponent (Nat.pos_of_ne_zero zero)

theorem signed_of_pos {significand : Nat} (positive : 0 < significand) (sign : Sign)
    (exponent : Int) :
    signed sign significand exponent = .finite sign significand exponent positive :=
  dif_neg positive.ne'

/-- The size of a number with a significand and an exponent. -/
def size (significand : Nat) (exponent : Int) : ℚ :=
  significand * (2 : ℚ) ^ exponent

theorem size_pos {significand : Nat} (positive : 0 < significand) (exponent : Int) :
    0 < size significand exponent := by
  have cast : (0 : ℚ) < significand := by exact_mod_cast positive
  unfold size
  positivity

theorem size_mul (first second : Nat) (high low : Int) :
    size (first * second) (high + low) = size first high * size second low := by
  unfold size
  rw [zpow_add₀ (by norm_num)]
  push_cast
  ring

theorem size_inj {first second : Nat} {exponent : Int}
    (same : size first exponent = size second exponent) : first = second := by
  have nonzero : (2 : ℚ) ^ exponent ≠ 0 := by positivity
  unfold size at same
  exact_mod_cast mul_right_cancel₀ nonzero same

/-- A significand that is twice as large has an exponent that is one less. -/
theorem size_shift (significand : Nat) {low exponent : Int} (below : low ≤ exponent) :
    size (significand * 2 ^ (exponent - low).toNat) low = size significand exponent := by
  have power : (2 : ℚ) ^ exponent = 2 ^ (exponent - low).toNat * 2 ^ low := by
    rw [← zpow_natCast, ← zpow_add₀ (by norm_num)]
    congr 1
    omega
  unfold size
  rw [power]
  push_cast
  ring

theorem size_zero (significand : Nat) : size significand 0 = significand := by
  rw [size, zpow_zero, mul_one]

/-- A whole number with binary places after the point that are all zero. -/
theorem size_places (whole places : Nat) : size (whole * 2 ^ places) (-places) = whole := by
  have below : -(places : Int) ≤ 0 := by omega
  have shifted := size_shift whole below
  rw [zero_sub, neg_neg, Int.toNat_natCast, size_zero] at shifted
  exact shifted

/-- A power of two as a size. -/
theorem size_two_pow (places : Nat) (exponent : Int) :
    size (2 ^ places) exponent = 2 ^ (places + exponent) := by
  rw [size, zpow_add₀ (by norm_num), zpow_natCast]
  push_cast
  rfl

theorem targetExponent_eq (total : Int) :
    Format.binary64.targetExponent total = max (total - 53) (-1074) := rfl

/-- The size of a number lies between two powers of two next to each other. -/
theorem size_bounds {significand : Nat} (positive : 0 < significand) (exponent : Int) :
    (2 : ℚ) ^ (totalExponent significand exponent - 1) ≤ size significand exponent ∧
      size significand exponent < (2 : ℚ) ^ totalExponent significand exponent := by
  obtain ⟨low, high⟩ := (Nat.log2_eq_iff positive.ne').1 rfl
  have low : ((2 : ℚ) ^ significand.log2) ≤ significand := by exact_mod_cast low
  have high : (significand : ℚ) < (2 : ℚ) ^ (significand.log2 + 1) := by exact_mod_cast high
  have power : (0 : ℚ) < 2 ^ exponent := by positivity
  unfold size totalExponent
  constructor
  · have split : (2 : ℚ) ^ ((significand.log2 : Int) + 1 + exponent - 1) =
        2 ^ significand.log2 * 2 ^ exponent := by
      rw [← zpow_natCast, ← zpow_add₀ (by norm_num)]
      congr 1
      ring
    rw [split]
    exact mul_le_mul_of_nonneg_right low power.le
  · have split : (2 : ℚ) ^ ((significand.log2 : Int) + 1 + exponent) =
        2 ^ (significand.log2 + 1) * 2 ^ exponent := by
      rw [← zpow_natCast, ← zpow_add₀ (by norm_num)]
      push_cast
      rfl
    rw [split]
    exact mul_lt_mul_of_pos_right high power

end Lox.Binary64
