import Lox.Number
import Lox.Proofs.Number.Binary64

/-!
The words that store binary64 numbers. A finite number is a zero or a canonical significand and
exponent, with the sign its word begins with, and what is packed into a word is found there again.
-/

set_option autoImplicit false

namespace Lox.Binary64

open Float.Model Float.Model.UnpackedFloat

section Storage

theorem toNat_implicit (stored : BitVec 52) : (1#1 ++ stored).toNat = 2 ^ 52 + stored.toNat := by
  have apart := Nat.two_pow_add_eq_or_of_lt stored.isLt 1
  rw [Nat.mul_one] at apart
  rw [BitVec.toNat_append, apart]
  rfl

/-- The sign that a word begins with. -/
def signOf (word : BitVec 64) : Sign :=
  .ofBitVec (@unpackSign .binary64 word)

/-- The exponent that a word stores, with a bias. -/
def biasedOf (word : BitVec 64) : BitVec 11 :=
  @unpackExponent .binary64 word

/-- The significand that a word stores, without the first bit of a full one. -/
def storedOf (word : BitVec 64) : BitVec 52 :=
  @unpackMantissa .binary64 word

theorem unpack_components (sign : Sign) (biased : BitVec 11) (stored : BitVec 52) :
    UnpackedFloat.unpack .binary64 (packComponents .binary64 sign biased stored) =
      if biased = -1#11 then if stored = 0#52 then .infinity sign else .notANumber
      else if biased = 0#11 then
        if zero : stored = 0#52 then .zero sign
        else .finite sign stored.toNat (-1074)
          (by simpa [BitVec.toNat_pos, BitVec.pos_iff_ne_zero])
      else .finite sign (2 ^ 52 + stored.toNat) (biased.toNat - 1075) (by simp) := by
  have bias : (Format.binary64.exponentBias : Int) + (52 : Nat) = 1075 := rfl
  simp only [UnpackedFloat.unpack, unpackMantissa_packComponents, unpackExponent_packComponents,
    unpackSign_packComponents, Sign.ofBitVec_toBitVec, toNat_implicit, bias]
  by_cases least : biased = 0#11
  · subst least
    rfl
  · rw [if_neg least, if_neg least]

/-- What a word holds, read off its three parts. -/
theorem unpack_word (word : BitVec 64) :
    UnpackedFloat.unpack .binary64 word =
      if biasedOf word = -1#11 then
        if storedOf word = 0#52 then .infinity (signOf word) else .notANumber
      else if biasedOf word = 0#11 then
        if zero : storedOf word = 0#52 then .zero (signOf word)
        else .finite (signOf word) (storedOf word).toNat (-1074)
          (by simpa [BitVec.toNat_pos, BitVec.pos_iff_ne_zero])
      else .finite (signOf word) (2 ^ 52 + (storedOf word).toNat) ((biasedOf word).toNat - 1075)
        (by simp) := by
  have parts : packComponents .binary64 (signOf word) (biasedOf word) (storedOf word) = word :=
    @packComponents_unpackSign_unpackExponent_unpackMantissa .binary64 word
  rw [← unpack_components, parts]

/-- What is stored in a word is canonical. -/
theorem canonical_of_unpack {word : BitVec 64} {sign : Sign} {significand : Nat} {exponent : Int}
    {positive : 0 < significand}
    (found : UnpackedFloat.unpack .binary64 word = .finite sign significand exponent positive) :
    Canonical significand exponent := by
  have top := (biasedOf word).isLt
  have below := (storedOf word).isLt
  rw [unpack_word] at found
  split_ifs at found with reserved empty least zero
  · injection found with _ same level
    subst same level
    exact ⟨⟨by omega, by omega, by omega, .inr rfl⟩, positive⟩
  · injection found with _ same level
    have finite : (biasedOf word).toNat ≠ 2047 := by
      intro ends
      exact reserved (BitVec.eq_of_toNat_eq ends)
    have large : (biasedOf word).toNat ≠ 0 := by
      intro ends
      exact least (BitVec.eq_of_toNat_eq ends)
    subst same level
    exact ⟨⟨by omega, by omega, by omega, .inl (by omega)⟩, positive⟩

/-- The stored exponent of a full significand is neither the least nor the greatest. -/
theorem biased_between (biased : Nat) (positive : 0 < biased) (below : biased < 2047) :
    BitVec.ofNat 11 biased ≠ -1#11 ∧ BitVec.ofNat 11 biased ≠ 0#11 := by
  have same : (BitVec.ofNat 11 biased).toNat = biased := by
    rw [BitVec.toNat_ofNat]
    omega
  constructor
  · intro ends
    rw [ends, show (-1#11).toNat = 2047 from rfl] at same
    omega
  · intro ends
    rw [ends, show (0#11).toNat = 0 from rfl] at same
    omega

/-- A number that is stored in a word is found there. -/
theorem Canonical.unpack_pack {significand : Nat} {exponent : Int}
    (canonical : Canonical significand exponent) (sign : Sign) :
    UnpackedFloat.unpack .binary64
        (UnpackedFloat.pack .binary64 (.finite sign significand exponent canonical.positive)) =
      .finite sign significand exponent canonical.positive := by
  have positive := canonical.positive
  have below := canonical.below
  have least := canonical.least
  have most := canonical.most
  have bias : exponent + (Format.binary64.exponentBias : Int) + (52 : Nat) = exponent + 1075 := by
    rw [Int.add_assoc]
    rfl
  have range : ¬2 ^ 11 ≤ (exponent + 1075).toNat + 1 := by omega
  have width : Format.binary64.mantissaBits = 53 := rfl
  have length : significand.log2 + 1 = 53 ↔ 2 ^ 52 ≤ significand := by
    rw [Nat.add_right_cancel_iff, Nat.log2_eq_iff positive.ne']
    omega
  rw [UnpackedFloat.pack, bias, if_neg range, width]
  by_cases full : 2 ^ 52 ≤ significand
  · obtain ⟨finite, large⟩ := biased_between (exponent + 1075).toNat (by omega) (by omega)
    rw [if_pos (length.2 full), unpack_components, if_neg finite, if_neg large]
    congr 1
    · rw [BitVec.toNat_ofNat]
      omega
    · rw [BitVec.toNat_ofNat]
      omega
  · have bottom : exponent = -1074 := canonical.full.resolve_left full
    have same : (BitVec.ofNat 52 significand).toNat = significand := by
      rw [BitVec.toNat_ofNat]
      omega
    have inhabited : BitVec.ofNat 52 significand ≠ 0#52 := by
      intro empty
      rw [empty, show (0#52).toNat = 0 from rfl] at same
      omega
    rw [if_neg (length.not.2 full), unpack_components, if_neg (by decide), if_pos rfl,
      dif_neg inhabited]
    congr 1
    exact bottom.symm

/-- What a finite number with a sign may be: a zero, or a canonical significand and exponent. -/
inductive Held (sign : Sign) : UnpackedFloat → Prop where
  | zero : Held sign (.zero sign)
  | finite {significand : Nat} {exponent : Int} (canonical : Canonical significand exponent) :
      Held sign (.finite sign significand exponent canonical.positive)

theorem Fits.held {significand : Nat} {exponent : Int} (fits : Fits significand exponent)
    (sign : Sign) : Held sign (signed sign significand exponent) := by
  rcases significand.eq_zero_or_pos with rfl | positive
  · exact .zero
  · rw [signed_of_pos positive]
    exact .finite ⟨fits, positive⟩

namespace Held

variable {sign : Sign} {value : UnpackedFloat} (held : Held sign value)

include held

theorem exists_fits :
    ∃ significand exponent, Fits significand exponent ∧
      value = signed sign significand exponent := by
  cases held with
  | zero => exact ⟨0, -1074, fits_zero, rfl⟩
  | @finite significand exponent canonical =>
      exact ⟨significand, exponent, canonical.toFits, (signed_of_pos canonical.positive _ _).symm⟩

theorem unpack_pack :
    UnpackedFloat.unpack .binary64 (UnpackedFloat.pack .binary64 value) = value := by
  cases held with
  | zero => exact unpack_packedZero
  | finite canonical => exact canonical.unpack_pack sign

theorem abs : Held .positive value.abs := by
  cases held with
  | zero => exact .zero
  | finite canonical => exact .finite canonical

theorem neg : Held (-sign) value.neg := by
  cases held with
  | zero => exact .zero
  | finite canonical => exact .finite canonical

theorem isFinite : value.isFinite := by
  cases held with
  | zero => rfl
  | finite canonical => rfl

theorem not_isNaN_isInf : value.isNaN = false ∧ value.isInf = false := by
  cases held with
  | zero => exact ⟨rfl, rfl⟩
  | finite canonical => exact ⟨rfl, rfl⟩

omit held in
theorem abs_eq (held : Held .positive value) : value.abs = value := by
  cases held with
  | zero => rfl
  | finite canonical => rfl

omit held in
theorem neg_abs_eq (held : Held .negative value) : value.abs.neg = value := by
  cases held with
  | zero => rfl
  | finite canonical => rfl

end Held

end Storage

section Numbers

variable {number : Float}

theorem eq_of_unpack {other : Float} (same : number.toModel.unpack = other.toModel.unpack) :
    number = other := by
  have words := (unpack_inj_of_valid number.toModel.valid other.toModel.valid).1 same
  exact Float.toBits_inj.1 (UInt64.toBitVec_inj.1 words)

theorem isNegative_iff :
    Number.isNegative number ↔ signOf number.toBits.toBitVec = .negative := by
  have first (bit : BitVec 1) : Sign.ofBitVec bit = .negative ↔ bit.toNat = 1 := by
    rcases BitVec.eq_zero_or_eq_one bit with rfl | rfl
    · simp [Sign.ofBitVec]
    · simp [Sign.ofBitVec]
  have below : number.toBits.toNat < 2 ^ 64 := number.toBits.toNat_lt
  rw [signOf, first, unpackSign_def, BitVec.extractLsb'_toNat, Nat.shiftRight_eq_div_pow,
    Number.isNegative, decide_eq_true_eq, ge_iff_le, UInt64.le_iff_toNat_le,
    UInt64.toNat_toBitVec]
  show 2 ^ 63 ≤ number.toBits.toNat ↔ number.toBits.toNat / 2 ^ 63 % 2 ^ 1 = 1
  omega

theorem exists_held (finite : number.isFinite) :
    ∃ sign, (Number.isNegative number ↔ sign = .negative) ∧ Held sign number.toModel.unpack := by
  have finite : number.toModel.unpack.isFinite := finite
  have word : number.toModel.unpack = UnpackedFloat.unpack .binary64 number.toBits.toBitVec := rfl
  refine ⟨_, isNegative_iff, ?_⟩
  cases shape : number.toModel.unpack with
  | infinity sign =>
      rw [shape] at finite
      exact absurd finite Bool.false_ne_true
  | notANumber =>
      rw [shape] at finite
      exact absurd finite Bool.false_ne_true
  | zero sign =>
      rw [word, unpack_word] at shape
      split_ifs at shape
      rw [← shape]
      exact .zero
  | finite sign significand exponent positive =>
      have canonical := canonical_of_unpack (word ▸ shape)
      rw [word, unpack_word] at shape
      split_ifs at shape
      · injection shape with same
        rw [← same]
        exact .finite canonical
      · injection shape with same
        rw [← same]
        exact .finite canonical

/-- The size of a number. -/
theorem unpack_abs (finite : number.isFinite) :
    number.abs.toModel.unpack = number.toModel.unpack.abs := by
  obtain ⟨sign, -, held⟩ := exists_held finite
  exact held.abs.unpack_pack

theorem unpack_neg (finite : number.isFinite) :
    (-number).toModel.unpack = number.toModel.unpack.neg := by
  obtain ⟨sign, -, held⟩ := exists_held finite
  exact held.neg.unpack_pack

theorem isFinite_abs (finite : number.isFinite) : number.abs.isFinite := by
  obtain ⟨sign, -, held⟩ := exists_held finite
  have kept := held.abs.isFinite
  rw [← unpack_abs finite] at kept
  exact kept

/-- A number is its size with its sign. -/
theorem signed_abs (finite : number.isFinite) :
    (if Number.isNegative number then -number.abs else number.abs) = number := by
  apply eq_of_unpack
  obtain ⟨sign, negative, held⟩ := exists_held finite
  cases sign with
  | negative =>
      rw [if_pos (negative.2 rfl), unpack_neg (isFinite_abs finite), unpack_abs finite,
        held.neg_abs_eq]
  | positive =>
      rw [if_neg (by simp [negative]), unpack_abs finite, held.abs_eq]

end Numbers

end Lox.Binary64
