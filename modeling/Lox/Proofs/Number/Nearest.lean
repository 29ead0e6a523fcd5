import Lox.Proofs.Number.Rounding
import Lox.Proofs.Number.Stored

/-!
The number nearest to a rational. Of two numbers that are equally near it is the one with an even
significand, and from halfway between the greatest number and the next power of two on it is
infinity. There is no other number like it: `IsNearest.unique`. What a rational is rounded to is
that number: `Rounded.isNearest`.
-/

set_option autoImplicit false

namespace Lox.Binary64

open Float.Model Float.Model.UnpackedFloat

/-- The rational that a sign, a significand and an exponent stand for. -/
def signedSize : Sign → Nat → Int → ℚ
  | .positive, significand, exponent => size significand exponent
  | .negative, significand, exponent => -size significand exponent

/-- The rational that a finite number stands for. -/
def value? (number : Float) : Option ℚ :=
  match number.toModel.unpack with
  | .zero _ => some 0
  | .finite sign significand exponent _ => some (signedSize sign significand exponent)
  | .infinity _ | .notANumber => none

/-- Whether the last binary digit that is stored is zero. -/
def HasEvenSignificand (number : Float) : Prop :=
  match number.toModel.unpack with
  | .finite _ significand _ _ => Even significand
  | _ => True

/-- Halfway from the greatest finite number, `(2 ^ 53 - 1) * 2 ^ 971`, to `2 ^ 53 * 2 ^ 971`. -/
def limit : ℚ :=
  (2 ^ 53 - 1 / 2) * 2 ^ (971 : Int)

/-- A finite number that is as near to a rational as any, a tie going to the even one. -/
structure IsNearestFinite (exact : ℚ) (number : Float) (value : ℚ) : Prop where
  held : value? number = some value
  positive : ¬Number.isNegative number
  near : ∀ other otherValue, value? other = some otherValue →
    |exact - value| ≤ |exact - otherValue|
  even : ∀ other otherValue, value? other = some otherValue →
    |exact - value| = |exact - otherValue| → otherValue = value ∨ HasEvenSignificand number

/-- The number nearest to a rational that is not negative. -/
inductive IsNearest (exact : ℚ) (number : Float) : Prop where
  | finite {value : ℚ} (below : exact < limit) (nearest : IsNearestFinite exact number value)
  | infinite (above : limit ≤ exact) (infinite : number.toModel.unpack = .infinity .positive)

section Stored

variable {number : Float} {sign : Sign} {significand : Nat} {exponent : Int}

theorem value?_of_stored (stored : number.toModel.unpack = signed sign significand exponent) :
    value? number = some (signedSize sign significand exponent) := by
  rcases significand.eq_zero_or_pos with rfl | positive
  · have zero : signedSize sign 0 exponent = 0 := by
      cases sign <;> simp [signedSize, size]
    rw [value?, stored, zero]
    rfl
  · rw [signed_of_pos positive] at stored
    rw [value?, stored]

theorem hasEvenSignificand_iff
    (stored : number.toModel.unpack = signed sign significand exponent) :
    HasEvenSignificand number ↔ Even significand := by
  rcases significand.eq_zero_or_pos with rfl | positive
  · rw [HasEvenSignificand, stored]
    exact iff_of_true trivial Even.zero
  · rw [signed_of_pos positive] at stored
    rw [HasEvenSignificand, stored]

theorem exists_stored {value : ℚ} (held : value? number = some value) :
    ∃ sign significand exponent, Fits significand exponent ∧
      number.toModel.unpack = signed sign significand exponent ∧
      (Number.isNegative number ↔ sign = .negative) ∧
      value = signedSize sign significand exponent := by
  have finite : number.isFinite := by
    show number.toModel.unpack.isFinite
    rw [value?] at held
    cases shape : number.toModel.unpack with
    | zero sign => rfl
    | finite sign significand exponent positive => rfl
    | infinity sign =>
        rw [shape] at held
        cases held
    | notANumber =>
        rw [shape] at held
        cases held
  obtain ⟨sign, negative, kept⟩ := exists_held finite
  obtain ⟨significand, exponent, fits, stored⟩ := kept.exists_fits
  have same := held.symm.trans (value?_of_stored stored)
  exact ⟨sign, significand, exponent, fits, stored, negative, Option.some.inj same⟩

/-- A number that is not negative is stored with its value. -/
theorem exists_size {value : ℚ} (held : value? number = some value)
    (positive : ¬Number.isNegative number) :
    ∃ significand exponent, Fits significand exponent ∧
      number.toModel.unpack = signed .positive significand exponent ∧
      value = size significand exponent := by
  obtain ⟨sign, significand, exponent, fits, stored, negative, rfl⟩ := exists_stored held
  cases sign with
  | negative => exact absurd (negative.2 rfl) positive
  | positive => exact ⟨significand, exponent, fits, stored, rfl⟩

end Stored

section Grid

theorem signedSize_le (sign : Sign) (significand : Nat) (exponent : Int) :
    signedSize sign significand exponent ≤ size significand exponent := by
  have above : 0 ≤ size significand exponent := by
    unfold size
    positivity
  cases sign with
  | positive => exact le_rfl
  | negative => exact (neg_nonpos.2 above).trans above

/-- A number is a multiple of a power of two, or it lies where the multiples are further apart than
the numbers. -/
theorem Fits.exists_multiple {significand : Nat} {low : Int} (fits : Fits significand low)
    (sign : Sign) (exponent : Int) :
    (∃ whole : Int, signedSize sign significand low = whole * 2 ^ exponent) ∨
      -1074 < exponent ∧ signedSize sign significand low < size (2 ^ 52) exponent := by
  by_cases below : exponent ≤ low
  · have shifted := size_shift significand below
    left
    cases sign with
    | positive =>
        refine ⟨(significand * 2 ^ (low - exponent).toNat : Nat), ?_⟩
        rw [signedSize, ← shifted, size, Int.cast_natCast]
    | negative =>
        refine ⟨-(significand * 2 ^ (low - exponent).toNat : Nat), ?_⟩
        rw [signedSize, ← shifted, size, Int.cast_neg, Int.cast_natCast, neg_mul]
  · have least := fits.least
    have lower : size (2 ^ 53) low ≤ size (2 ^ 52) exponent := by
      rw [size_two_pow, size_two_pow]
      exact zpow_le_zpow_right₀ (by norm_num) (by omega)
    exact .inr ⟨by omega, ((signedSize_le sign significand low).trans_lt fits.spans.below).trans_le
      lower⟩

/-- A distance in steps of a grid. -/
theorem abs_sub_multiple (exact steps : ℚ) (exponent : Int) :
    |exact - steps * 2 ^ exponent| = |exact / 2 ^ exponent - steps| * 2 ^ exponent := by
  have power : (0 : ℚ) < 2 ^ exponent := by positivity
  rw [← abs_of_pos power, ← abs_mul, abs_of_pos power, sub_mul, div_mul_cancel₀ _ power.ne']

variable {exact : ℚ} {exponent : Int} {rounded : Nat} (spans : Spans exact exponent)
  (rounds : RoundsTo (exact / 2 ^ exponent) rounded)

include rounds in
theorem RoundsTo.nearest_multiple (whole : Int) :
    |exact - size rounded exponent| ≤ |exact - whole * 2 ^ exponent| ∧
      (|exact - size rounded exponent| = |exact - whole * 2 ^ exponent| →
        whole * 2 ^ exponent = size rounded exponent ∨ Even rounded) := by
  have power : (0 : ℚ) < 2 ^ exponent := by positivity
  obtain ⟨near, tie⟩ := rounds.nearest whole
  rw [size, abs_sub_multiple, abs_sub_multiple]
  refine ⟨mul_le_mul_of_nonneg_right near power.le, fun equal => ?_⟩
  refine (tie (mul_right_cancel₀ power.ne' equal)).imp_left fun same => ?_
  rw [same, Int.cast_natCast]

include spans rounds

/-- No number is nearer to a rational than the multiple that it is rounded to. -/
theorem Spans.nearest {other : Float} {value : ℚ} (held : value? other = some value) :
    |exact - size rounded exponent| ≤ |exact - value| ∧
      (|exact - size rounded exponent| = |exact - value| →
        value = size rounded exponent ∨ Even rounded) := by
  obtain ⟨sign, significand, low, fits, -, -, rfl⟩ := exists_stored held
  rcases fits.exists_multiple sign exponent with ⟨whole, same⟩ | ⟨above, below⟩
  · rw [same]
    exact rounds.nearest_multiple whole
  · have full := spans.full.resolve_right (by omega)
    have near := (rounds.nearest_multiple (2 ^ 52)).1
    have edge : ((2 ^ 52 : Int) : ℚ) * 2 ^ exponent = size (2 ^ 52) exponent := by
      rw [size]
      push_cast
      rfl
    rw [edge, abs_of_nonneg (sub_nonneg.2 full)] at near
    rw [abs_of_pos (sub_pos.2 (below.trans_le full))]
    exact ⟨by linarith, fun equal => absurd equal (by linarith)⟩

omit spans in
theorem RoundsTo.full (full : size (2 ^ 52) exponent ≤ exact) : 2 ^ 52 ≤ rounded := by
  have scaled : ((2 ^ 52 : Nat) : ℚ) ≤ exact / 2 ^ exponent := by
    rw [le_div_iff₀ (by positivity)]
    exact full
  exact rounds.ge scaled

/-- What is rounded within the significand fits if its exponent is not too large. -/
theorem Spans.fits (narrow : rounded < 2 ^ 53) (most : exponent ≤ 971) :
    Fits rounded exponent :=
  ⟨narrow, spans.least, most, spans.full.imp_left rounds.full⟩

end Grid

section Limit

variable {exact : ℚ} {exponent : Int} {rounded : Nat}

theorem limit_lt_size : limit < size (2 ^ 53) 971 := by
  have power : (0 : ℚ) < 2 ^ (971 : Int) := by positivity
  rw [limit, size]
  refine mul_lt_mul_of_pos_right ?_ power
  push_cast
  linarith

theorem limit_le_of_large (large : size (2 ^ 52) 972 ≤ exact) : limit ≤ exact := by
  have same : size (2 ^ 53) 971 = size (2 ^ 52) 972 := by
    rw [size_two_pow, size_two_pow]
    rfl
  exact (limit_lt_size.trans_eq same).le.trans large

theorem limit_le_of_rounds_up (rounds : RoundsTo (exact / 2 ^ exponent) (2 ^ 53))
    (large : 971 ≤ exponent) : limit ≤ exact := by
  have power : (0 : ℚ) < 2 ^ exponent := by positivity
  have near := (abs_le.1 rounds.near).1
  have scaled : 2 ^ 53 - 1 / 2 ≤ exact / 2 ^ exponent := by
    push_cast at near
    linarith
  rw [le_div_iff₀ power] at scaled
  have grid : (2 : ℚ) ^ (971 : Int) ≤ 2 ^ exponent := zpow_le_zpow_right₀ (by norm_num) large
  exact (mul_le_mul_of_nonneg_left grid (by norm_num)).trans scaled

/-- What is rounded to a number lies below the limit, as the greatest significand is odd. -/
theorem Fits.lt_limit (fits : Fits rounded exponent)
    (rounds : RoundsTo (exact / 2 ^ exponent) rounded) : exact < limit := by
  have power : (0 : ℚ) < 2 ^ exponent := by positivity
  have narrow : (rounded : ℚ) + 1 ≤ 2 ^ 53 := by exact_mod_cast fits.below
  have near := (abs_le.1 rounds.near).2
  have scaled : exact / 2 ^ exponent < 2 ^ 53 - 1 / 2 := by
    by_contra above
    have edge : exact / 2 ^ exponent - rounded = 1 / 2 := by linarith
    have last : (rounded : ℚ) + 1 = 2 ^ 53 := by linarith
    have last : rounded + 1 = 2 ^ 53 := by exact_mod_cast last
    obtain ⟨half, rfl⟩ := rounds.even (by rw [edge]; norm_num)
    omega
  rw [div_lt_iff₀ power] at scaled
  have grid : (2 : ℚ) ^ exponent ≤ 2 ^ (971 : Int) :=
    zpow_le_zpow_right₀ (by norm_num) fits.most
  exact scaled.trans_le (mul_le_mul_of_nonneg_left grid (by norm_num))

/-- What is rounded to an even number is rounded to half of it on a grid twice as wide. -/
theorem RoundsTo.double {half : Nat} (rounds : RoundsTo (exact / 2 ^ exponent) (2 * half)) :
    RoundsTo (exact / 2 ^ (exponent + 1)) half := by
  have apart := abs_le.1 rounds.near
  push_cast at apart
  apply RoundsTo.of_lt
  rw [zpow_add_one₀ (by norm_num), ← div_div, abs_lt]
  constructor <;> linarith

end Limit

section Reached

variable {number : Float} {exact : ℚ} {significand : Nat} {exponent : Int}

theorem signed_sign {sign against : Sign} {first second : Nat} {high low : Int}
    (same : signed sign first high = signed against second low) : sign = against := by
  unfold signed at same
  split_ifs at same <;> injection same

theorem not_isNegative (stored : number.toModel.unpack = signed .positive significand exponent) :
    ¬Number.isNegative number := by
  obtain ⟨sign, _, _, _, held, negative, _⟩ := exists_stored (value?_of_stored stored)
  rw [negative, signed_sign (held.symm.trans stored)]
  intro impossible
  cases impossible

theorem isNearest_of_stored
    (stored : number.toModel.unpack = signed .positive significand exponent)
    (below : exact < limit)
    (nearest : ∀ other otherValue, value? other = some otherValue →
      |exact - size significand exponent| ≤ |exact - otherValue| ∧
        (|exact - size significand exponent| = |exact - otherValue| →
          otherValue = size significand exponent ∨ Even significand)) :
    IsNearest exact number := by
  refine .finite below ⟨value?_of_stored stored, not_isNegative stored, ?_, ?_⟩
  · intro other otherValue held
    exact (nearest other otherValue held).1
  · intro other otherValue held equal
    rw [hasEvenSignificand_iff stored]
    exact (nearest other otherValue held).2 equal

/-- A significand with an exponent that is too large is stored as infinity. -/
theorem pack_large (positive : 0 < significand) (large : 972 ≤ exponent) (sign : Sign) :
    Float.Model.pack (signed sign significand exponent) = .pack (.infinity sign) := by
  have bias : exponent + (Format.binary64.exponentBias : Int) + (52 : Nat) = exponent + 1075 := by
    rw [Int.add_assoc]
    rfl
  have range : 2 ^ 11 ≤ (exponent + 1075).toNat + 1 := by omega
  have packed : UnpackedFloat.pack .binary64 (signed sign significand exponent) =
      packedInfinity .binary64 sign := by
    rw [signed_of_pos positive, UnpackedFloat.pack, bias, if_pos range]
  have infinite : UnpackedFloat.pack .binary64 (.infinity sign) = packedInfinity .binary64 sign :=
    rfl
  simp only [Float.Model.pack, packed, infinite]

theorem unpack_infinity (stored : number.toModel = .pack (.infinity .positive)) :
    number.toModel.unpack = .infinity .positive := by
  have parts := unpack_components .positive (-1#11) 0#52
  rw [if_pos rfl, if_pos rfl] at parts
  rw [stored]
  exact parts

theorem Spans.isNearest {rounded : Nat} (spans : Spans exact exponent)
    (rounds : RoundsTo (exact / 2 ^ exponent) rounded) (narrow : rounded < 2 ^ 53)
    (stored : number.toModel = .pack (signed .positive rounded exponent)) :
    IsNearest exact number := by
  by_cases most : exponent ≤ 971
  · have fits := spans.fits rounds narrow most
    have unpacked : number.toModel.unpack = signed .positive rounded exponent := by
      rw [stored]
      exact (fits.held .positive).unpack_pack
    exact isNearest_of_stored unpacked (fits.lt_limit rounds) fun _ _ held =>
      spans.nearest rounds held
  · have full := spans.full.resolve_right (by omega)
    have positive : 0 < rounded := (by decide : 0 < 2 ^ 52).trans_le (rounds.full full)
    have large : size (2 ^ 52) 972 ≤ exact := by
      refine le_trans ?_ full
      rw [size_two_pow, size_two_pow]
      exact zpow_le_zpow_right₀ (by norm_num) (by omega)
    rw [pack_large positive (by omega)] at stored
    exact .infinite (limit_le_of_large large) (unpack_infinity stored)

theorem Spans.isNearest_carried (spans : Spans exact exponent)
    (rounds : RoundsTo (exact / 2 ^ exponent) (2 ^ 53))
    (stored : number.toModel = .pack (signed .positive (2 ^ 52) (exponent + 1))) :
    IsNearest exact number := by
  have least := spans.least
  by_cases most : exponent + 1 ≤ 971
  · have fits : Fits (2 ^ 52) (exponent + 1) := ⟨by decide, by omega, most, .inl le_rfl⟩
    have unpacked : number.toModel.unpack = signed .positive (2 ^ 52) (exponent + 1) := by
      rw [stored]
      exact (fits.held .positive).unpack_pack
    have half : RoundsTo (exact / 2 ^ exponent) (2 * 2 ^ 52) := rounds
    have same : size (2 ^ 53) exponent = size (2 ^ 52) (exponent + 1) := by
      rw [size_two_pow, size_two_pow]
      congr 1
      push_cast
      ring
    refine isNearest_of_stored unpacked (fits.lt_limit half.double) fun _ _ held => ?_
    rw [← same]
    obtain ⟨near, tie⟩ := spans.nearest rounds held
    exact ⟨near, fun equal => (tie equal).imp_right fun _ => by decide⟩
  · rw [pack_large (by decide) (by omega)] at stored
    exact .infinite (limit_le_of_rounds_up rounds (by omega)) (unpack_infinity stored)

/-- A number that was rounded from a rational is the nearest one to it. -/
theorem Rounded.isNearest {value : UnpackedFloat} (rounded : Rounded .positive exact value)
    (stored : number.toModel = .pack value) : IsNearest exact number := by
  cases rounded with
  | within spans rounds narrow => exact spans.isNearest rounds narrow stored
  | carried spans rounds => exact spans.isNearest_carried rounds stored
  | overflow large => exact .infinite (limit_le_of_large large) (unpack_infinity stored)

end Reached

section Unique

theorem size_lt {first second : Nat} (less : first < second) (exponent : Int) :
    size first exponent < size second exponent :=
  mul_lt_mul_of_pos_right (by exact_mod_cast less) (by positivity)

/-- The larger of two numbers is a multiple of the last place of the smaller one. -/
theorem Fits.exponent_le {first second : Nat} {low high : Int} (fits : Fits first low)
    (other : Fits second high) (less : size first low < size second high) : low ≤ high := by
  by_contra above
  have least := other.least
  have full := fits.spans.full.resolve_right (by omega)
  have between := (full.trans_lt less).trans other.spans.below
  rw [size_two_pow, size_two_pow] at between
  have order := (zpow_lt_zpow_iff_right₀ (by norm_num)).1 between
  omega

/-- Between two numbers with even significands there is another one. -/
theorem Fits.exists_between {first second : Nat} {low high : Int} (fits : Fits first low)
    (other : Fits second high) (even : Even first) (alsoEven : Even second)
    (less : size first low < size second high) :
    ∃ number value, value? number = some value ∧ size first low < value ∧
      value < size second high := by
  have shifted := size_shift second (fits.exponent_le other less)
  have multiple : Even (second * 2 ^ (high - low).toNat) := alsoEven.mul_right _
  rw [← shifted] at less ⊢
  generalize second * 2 ^ (high - low).toNat = steps at multiple less ⊢
  have apart : first + 1 < steps := by
    have order : first < steps := by
      by_contra above
      rcases (Nat.le_of_not_lt above).lt_or_eq with below | rfl
      · exact less.not_gt (size_lt below low)
      · exact less.ne rfl
    obtain ⟨half, rfl⟩ := even
    obtain ⟨otherHalf, rfl⟩ := multiple
    omega
  have next : Fits (first + 1) low := by
    have below := fits.below
    obtain ⟨half, rfl⟩ := even
    exact ⟨by omega, fits.least, fits.most, fits.full.imp_left fun full => by omega⟩
  have stored : (Float.ofModel (.pack (signed .positive (first + 1) low))).toModel.unpack =
      signed .positive (first + 1) low := (next.held .positive).unpack_pack
  exact ⟨_, _, value?_of_stored stored, size_lt (Nat.lt_succ_self first) low, size_lt apart low⟩

variable {exact : ℚ} {first second : Float}

theorem eq_of_value? {value : ℚ} (held : value? first = some value)
    (positive : ¬Number.isNegative first) (alsoHeld : value? second = some value)
    (alsoPositive : ¬Number.isNegative second) : first = second := by
  obtain ⟨significand, exponent, fits, stored, rfl⟩ := exists_size held positive
  obtain ⟨other, otherExponent, alsoFits, alsoStored, same⟩ := exists_size alsoHeld alsoPositive
  have spans := alsoFits.spans
  rw [← same] at spans
  obtain rfl := fits.spans.unique spans
  obtain rfl := size_inj same
  exact eq_of_unpack (stored.trans alsoStored.symm)

/-- Two numbers that are equally near have even significands, and one between them is nearer. -/
theorem IsNearestFinite.value_le {value otherValue : ℚ}
    (nearest : IsNearestFinite exact first value)
    (other : IsNearestFinite exact second otherValue) : otherValue ≤ value := by
  by_contra less
  rw [not_le] at less
  have equal : |exact - value| = |exact - otherValue| :=
    le_antisymm (nearest.near second otherValue other.held) (other.near first value nearest.held)
  have even := (nearest.even second otherValue other.held equal).resolve_left less.ne'
  have alsoEven := (other.even first value nearest.held equal.symm).resolve_left less.ne
  have middle : exact - value = -(exact - otherValue) :=
    (abs_eq_abs.1 equal).resolve_left fun same => less.ne (sub_right_injective same)
  obtain ⟨low, exponent, fits, stored, rfl⟩ := exists_size nearest.held nearest.positive
  obtain ⟨high, otherExponent, alsoFits, alsoStored, rfl⟩ := exists_size other.held other.positive
  rw [hasEvenSignificand_iff stored] at even
  rw [hasEvenSignificand_iff alsoStored] at alsoEven
  obtain ⟨number, between, held, above, below⟩ := fits.exists_between alsoFits even alsoEven less
  have nearer : |exact - between| < |exact - size low exponent| := by
    rw [abs_of_pos (show 0 < exact - size low exponent by linarith), abs_lt]
    constructor <;> linarith
  exact nearer.not_ge (nearest.near number between held)

theorem IsNearest.unique (nearest : IsNearest exact first) (other : IsNearest exact second) :
    first = second := by
  cases nearest with
  | infinite above infinite =>
      cases other with
      | infinite _ alsoInfinite => exact eq_of_unpack (infinite.trans alsoInfinite.symm)
      | finite below _ => exact absurd above below.not_ge
  | finite below nearest =>
      cases other with
      | infinite above _ => exact absurd above below.not_ge
      | finite _ other =>
          obtain rfl := le_antisymm (other.value_le nearest) (nearest.value_le other)
          exact eq_of_value? nearest.held nearest.positive other.held other.positive

end Unique

end Lox.Binary64
