import Lox.Proofs.Number.Binary64

/-!
Rounding to 53 binary digits. What is cut off behind a significand is kept as two bits, which tell
on which side of the middle between two whole numbers the exact value lies. Rounding goes to the
nearer of the two and from the middle to the even one, so what comes of a product or a quotient is
`Rounded` from its exact value.
-/

set_option autoImplicit false

namespace Lox.Binary64

open Float.Model Float.Model.UnpackedFloat

section Residue

/-- Two bits behind a whole number tell where from it to the next one a rational lies. -/
inductive Represents : ExtendedMantissa → ℚ → Prop where
  | exact (whole : Nat) : Represents ⟨whole, false, false⟩ whole
  | below {whole : Nat} {exact : ℚ} (above : whole < exact) (below : exact < whole + 1 / 2) :
      Represents ⟨whole, false, true⟩ exact
  | middle (whole : Nat) : Represents ⟨whole, true, false⟩ (whole + 1 / 2)
  | above {whole : Nat} {exact : ℚ} (above : whole + 1 / 2 < exact) (below : exact < whole + 1) :
      Represents ⟨whole, true, true⟩ exact

/-- What rounding to a whole number comes to. -/
structure RoundsTo (exact : ℚ) (rounded : Nat) : Prop where
  near : |exact - rounded| ≤ 1 / 2
  even : |exact - rounded| = 1 / 2 → Even rounded

variable {held : ExtendedMantissa} {exact : ℚ}

/-- The two bits are clear for whole numbers only. -/
theorem Represents.exact_or_between (represents : Represents held exact) :
    ((held.roundBit || held.stickyBit) = false ∧ exact = held.mantissa) ∨
      ((held.roundBit || held.stickyBit) = true ∧ held.mantissa < exact ∧
        exact < held.mantissa + 1) := by
  cases represents with
  | exact whole => exact .inl ⟨rfl, rfl⟩
  | below above below => exact .inr ⟨rfl, above, by linarith⟩
  | middle whole => exact .inr ⟨rfl, by linarith, by linarith⟩
  | above above below => exact .inr ⟨rfl, by linarith, below⟩

theorem Represents.floor (represents : Represents held exact) :
    held.mantissa ≤ exact ∧ exact < held.mantissa + 1 := by
  rcases represents.exact_or_between with ⟨-, rfl⟩ | ⟨-, above, below⟩
  · exact ⟨le_rfl, by linarith⟩
  · exact ⟨above.le, below⟩

/-- The last bit of an even number that is shifted is clear, that of an odd one is set. -/
theorem Represents.shiftRightOne (represents : Represents held exact) :
    Represents held.shiftRightOne (exact / 2) := by
  have between := represents.exact_or_between
  obtain ⟨mantissa, roundBit, stickyBit⟩ := held
  obtain ⟨half, rfl | rfl⟩ := mantissa.even_or_odd'
  · have shifted : ExtendedMantissa.shiftRightOne ⟨2 * half, roundBit, stickyBit⟩ =
        ⟨half, false, roundBit || stickyBit⟩ := by
      simp [ExtendedMantissa.shiftRightOne]
    push_cast at between
    rw [shifted]
    rcases between with ⟨clear, rfl⟩ | ⟨set, above, below⟩
    · rw [clear, mul_div_cancel_left₀ _ two_ne_zero]
      exact .exact half
    · rw [set]
      exact .below (by linarith) (by linarith)
  · have shifted : ExtendedMantissa.shiftRightOne ⟨2 * half + 1, roundBit, stickyBit⟩ =
        ⟨half, true, roundBit || stickyBit⟩ := by
      simp [ExtendedMantissa.shiftRightOne]
      omega
    push_cast at between
    rw [shifted]
    rcases between with ⟨clear, rfl⟩ | ⟨set, above, below⟩
    · rw [clear, add_div, mul_div_cancel_left₀ _ two_ne_zero]
      exact .middle half
    · rw [set]
      exact .above (by linarith) (by linarith)

theorem Represents.shiftRight (represents : Represents held exact) (shift : Nat) :
    Represents (held >>> shift) (exact / 2 ^ shift) := by
  induction shift with
  | zero =>
      rw [pow_zero, div_one]
      exact represents
  | succ shift ih =>
      rw [pow_succ, ← div_div]
      exact ih.shiftRightOne

theorem RoundsTo.of_lt {rounded : Nat} (near : |exact - rounded| < 1 / 2) :
    RoundsTo exact rounded :=
  ⟨near.le, fun middle => absurd middle near.ne⟩

theorem roundsTo_whole (whole : Nat) : RoundsTo whole whole := by
  apply RoundsTo.of_lt
  rw [sub_self, abs_zero]
  norm_num

/-- The even one of two whole numbers next to each other is the lower one or the one after it. -/
theorem roundsTo_middle (whole : Nat) : RoundsTo (whole + 1 / 2) (whole + whole % 2) := by
  obtain ⟨half, rfl | rfl⟩ := whole.even_or_odd'
  · rw [Nat.mul_mod_right, Nat.add_zero]
    refine ⟨?_, fun _ => even_two_mul half⟩
    rw [add_sub_cancel_left]
    exact (abs_of_pos (by norm_num)).le
  · have next : 2 * half + 1 + (2 * half + 1) % 2 = 2 * (half + 1) := by omega
    rw [next]
    refine ⟨?_, fun _ => even_two_mul (half + 1)⟩
    push_cast
    rw [abs_le]
    constructor <;> linarith

theorem Represents.roundsTo (represents : Represents held exact) :
    RoundsTo exact held.roundedMantissa := by
  cases represents with
  | exact whole => exact roundsTo_whole whole
  | @below whole exact above below =>
      have near : |exact - whole| < 1 / 2 := abs_lt.2 ⟨by linarith, by linarith⟩
      exact .of_lt near
  | middle whole => exact roundsTo_middle whole
  | @above whole exact above below =>
      have near : |exact - (whole + 1 : Nat)| < 1 / 2 := by
        push_cast
        exact abs_lt.2 ⟨by linarith, by linarith⟩
      exact .of_lt near

/-- What is left of a division tells where in the divisor it lies. -/
theorem represents_fraction (whole : Nat) {rest divisor : Nat} (below : rest < divisor) :
    Represents (.ofMantissaAndAccuracy whole (accuracyOfFraction rest divisor))
      (whole + rest / divisor) := by
  have positive : (0 : ℚ) < divisor := by exact_mod_cast Nat.zero_lt_of_lt below
  have below : (rest : ℚ) < divisor := by exact_mod_cast below
  unfold accuracyOfFraction
  split_ifs with nothing
  · rw [nothing, Nat.cast_zero, zero_div, add_zero]
    exact .exact whole
  · have inhabited : (0 : ℚ) < rest := by exact_mod_cast Nat.pos_of_ne_zero nothing
    cases order : compare (2 * rest) divisor with
    | lt =>
        have small : (2 * rest : ℚ) < divisor := by exact_mod_cast Nat.compare_eq_lt.1 order
        have some : 0 < (rest / divisor : ℚ) := div_pos inhabited positive
        have part : (rest / divisor : ℚ) < 1 / 2 := by
          rw [div_lt_iff₀ positive]
          linarith
        exact .below (by linarith) (by linarith)
    | eq =>
        have same : (2 * rest : ℚ) = divisor := by exact_mod_cast Nat.compare_eq_eq.1 order
        have part : (rest / divisor : ℚ) = 1 / 2 := by
          rw [div_eq_iff positive.ne']
          linarith
        rw [part]
        exact .middle whole
    | gt =>
        have large : (divisor : ℚ) < 2 * rest := by exact_mod_cast Nat.compare_eq_gt.1 order
        have proper : (rest / divisor : ℚ) < 1 := (div_lt_one positive).2 below
        have part : 1 / 2 < (rest / divisor : ℚ) := by
          rw [lt_div_iff₀ positive]
          linarith
        exact .above (by linarith) (by linarith)

theorem represents_quotient (dividend : Nat) {divisor : Nat} (positive : 0 < divisor) :
    Represents (.ofMantissaAndAccuracy (dividend / divisor)
      (accuracyOfFraction (dividend % divisor) divisor)) (dividend / divisor) := by
  have whole : (dividend : ℚ) / divisor =
      (dividend / divisor : Nat) + (dividend % divisor : Nat) / divisor := by
    have parts : (dividend : ℚ) =
        divisor * (dividend / divisor : Nat) + (dividend % divisor : Nat) := by
      exact_mod_cast (Nat.div_add_mod dividend divisor).symm
    have nonzero : (divisor : ℚ) ≠ 0 := by positivity
    rw [div_eq_iff nonzero, add_mul, div_mul_cancel₀ _ nonzero, mul_comm]
    exact parts
  rw [whole]
  exact represents_fraction _ (Nat.mod_lt dividend positive)

end Residue

section Whole

variable {exact : ℚ} {rounded : Nat} (rounds : RoundsTo exact rounded)

include rounds

theorem RoundsTo.le {bound : Nat} (below : exact ≤ bound) : rounded ≤ bound := by
  by_contra above
  have next : (bound + 1 : ℚ) ≤ rounded := by exact_mod_cast Nat.lt_of_not_le above
  have near := (abs_le.1 rounds.near).1
  linarith

theorem RoundsTo.ge {bound : Nat} (above : bound ≤ exact) : bound ≤ rounded := by
  by_contra below
  have next : (rounded + 1 : ℚ) ≤ bound := by exact_mod_cast Nat.lt_of_not_le below
  have near := (abs_le.1 rounds.near).2
  linarith

/-- No whole number is nearer than the one rounded to, and only an even one shares its place. -/
theorem RoundsTo.nearest (whole : Int) :
    |exact - rounded| ≤ |exact - whole| ∧
      (|exact - rounded| = |exact - whole| → whole = rounded ∨ Even rounded) := by
  by_cases same : whole = rounded
  · subst same
    rw [Int.cast_natCast]
    exact ⟨le_rfl, fun _ => .inl rfl⟩
  · have near := rounds.near
    have apart : (1 : ℚ) ≤ |(whole : ℚ) - rounded| := by
      have steps : 1 ≤ |whole - (rounded : Int)| := Int.one_le_abs (sub_ne_zero.2 same)
      exact_mod_cast steps
    have between : |(whole : ℚ) - rounded| ≤ |exact - whole| + |exact - rounded| := by
      rw [abs_sub_comm exact whole]
      exact abs_sub_le _ exact _
    refine ⟨by linarith, fun equal => .inr (rounds.even ?_)⟩
    linarith

omit rounds in
theorem RoundsTo.eq {whole : Nat} (rounds : RoundsTo whole rounded) : rounded = whole :=
  le_antisymm (rounds.le le_rfl) (rounds.ge le_rfl)

end Whole

/-- Whether the multiples of `2 ^ exponent` are the numbers that a rational is rounded to. -/
structure Spans (exact : ℚ) (exponent : Int) : Prop where
  least : -1074 ≤ exponent
  below : exact < size (2 ^ 53) exponent
  full : size (2 ^ 52) exponent ≤ exact ∨ exponent = -1074

/-- What a rational may be rounded to. A significand that is rounded up to one binary digit more has
zeros behind the first. -/
inductive Rounded (sign : Sign) (exact : ℚ) : UnpackedFloat → Prop where
  | within {exponent : Int} {rounded : Nat} (spans : Spans exact exponent)
      (rounds : RoundsTo (exact / 2 ^ exponent) rounded) (narrow : rounded < 2 ^ 53) :
      Rounded sign exact (signed sign rounded exponent)
  | carried {exponent : Int} (spans : Spans exact exponent)
      (rounds : RoundsTo (exact / 2 ^ exponent) (2 ^ 53)) :
      Rounded sign exact (signed sign (2 ^ 52) (exponent + 1))
  | overflow (large : size (2 ^ 52) 972 ≤ exact) : Rounded sign exact (.infinity sign)

theorem Spans.exponent_le {exact : ℚ} {first second : Int} (spans : Spans exact first)
    (other : Spans exact second) : second ≤ first := by
  by_contra above
  have least := spans.least
  have full := other.full.resolve_right (by omega)
  have between := full.trans_lt spans.below
  rw [size_two_pow, size_two_pow] at between
  have order := (zpow_lt_zpow_iff_right₀ (by norm_num)).1 between
  omega

theorem Spans.unique {exact : ℚ} {first second : Int} (spans : Spans exact first)
    (other : Spans exact second) : first = second :=
  le_antisymm (other.exponent_le spans) (spans.exponent_le other)

theorem Fits.spans {significand : Nat} {exponent : Int} (fits : Fits significand exponent) :
    Spans (size significand exponent) exponent := by
  have power : (0 : ℚ) < 2 ^ exponent := by positivity
  refine ⟨fits.least, ?_, fits.full.imp_left fun full => ?_⟩
  · exact mul_lt_mul_of_pos_right (by exact_mod_cast fits.below) power
  · exact mul_le_mul_of_nonneg_right (by exact_mod_cast full) power.le

/-- Rounding leaves a number alone. -/
theorem Rounded.eq_of_fits {sign : Sign} {significand : Nat} {exponent : Int}
    {value : UnpackedFloat} (rounded : Rounded sign (size significand exponent) value)
    (fits : Fits significand exponent) : value = signed sign significand exponent := by
  have scaled : size significand exponent / 2 ^ exponent = significand :=
    mul_div_cancel_right₀ _ (by positivity)
  cases rounded with
  | within spans rounds narrow =>
      obtain rfl := spans.unique fits.spans
      rw [scaled] at rounds
      rw [rounds.eq]
  | carried spans rounds =>
      obtain rfl := spans.unique fits.spans
      rw [scaled] at rounds
      have below := fits.below
      have wide := rounds.eq
      omega
  | overflow large =>
      have below := large.trans_lt fits.spans.below
      rw [size_two_pow, size_two_pow] at below
      have order := (zpow_lt_zpow_iff_right₀ (by norm_num)).1 below
      have most := fits.most
      omega

section Shifting

/-- What is precise enough is rounded once, to a grid that spans it. -/
theorem spans_targetExponent {mantissa : Nat} {low : Int} {exact : ℚ}
    (floor : mantissa ≤ exact / 2 ^ low ∧ exact / 2 ^ low < mantissa + 1)
    (precise : 2 ^ 52 ≤ mantissa ∨ low ≤ -1074) :
    Spans exact (Format.binary64.targetExponent (totalExponent mantissa low)) := by
  have power : (0 : ℚ) < 2 ^ low := by positivity
  rw [le_div_iff₀ power, div_lt_iff₀ power] at floor
  have total : totalExponent mantissa low = mantissa.log2 + 1 + low := rfl
  rw [targetExponent_eq]
  refine ⟨le_max_right _ _, ?_, ?_⟩
  · have next : (mantissa + 1 : ℚ) ≤ 2 ^ (mantissa.log2 + 1) := by
      exact_mod_cast Nat.lt_log2_self
    calc exact
      _ < (mantissa + 1) * 2 ^ low := floor.2
      _ ≤ 2 ^ (mantissa.log2 + 1) * 2 ^ low := mul_le_mul_of_nonneg_right next power.le
      _ = 2 ^ totalExponent mantissa low := by
        rw [total, ← zpow_natCast, ← zpow_add₀ (by norm_num)]
        push_cast
        rfl
      _ ≤ size (2 ^ 53) (max (totalExponent mantissa low - 53) (-1074)) := by
        rw [size_two_pow]
        exact zpow_le_zpow_right₀ (by norm_num) (by omega)
  · by_cases bottom : totalExponent mantissa low - 53 ≤ -1074
    · exact .inr (max_eq_right bottom)
    · have positive : 0 < mantissa := by
        by_contra nothing
        obtain rfl := Nat.eq_zero_of_not_pos nothing
        rw [Nat.log2_zero] at total
        omega
      left
      calc size (2 ^ 52) (max (totalExponent mantissa low - 53) (-1074))
        _ = 2 ^ (totalExponent mantissa low - 1) := by
          rw [size_two_pow]
          congr 1
          omega
        _ ≤ size mantissa low := (size_bounds positive low).1
        _ ≤ exact := floor.1

theorem shiftToTargetExponent_of_narrow {mantissa : Nat} {exponent : Int}
    (narrow : mantissa < 2 ^ 53) (least : -1074 ≤ exponent) :
    shiftToTargetExponent .binary64 mantissa exponent .exact =
      (.ofMantissaAndAccuracy mantissa .exact, exponent) := by
  have length : mantissa.log2 < 53 := by
    by_cases nothing : mantissa = 0
    · rw [nothing]
      decide
    · exact (Nat.log2_lt nothing).2 narrow
  have target : (Format.binary64.targetExponent (totalExponent mantissa exponent) -
      exponent).toNat = 0 := by
    rw [targetExponent_eq, totalExponent]
    omega
  simp only [shiftToTargetExponent, shiftToExponent, target, Nat.cast_zero, add_zero]
  rfl

theorem shiftToTargetExponent_of_wide {exponent : Int} (least : -1074 ≤ exponent) :
    shiftToTargetExponent .binary64 (2 ^ 53) exponent .exact =
      (.ofMantissaAndAccuracy (2 ^ 52) .exact, exponent + 1) := by
  have target : (Format.binary64.targetExponent (totalExponent (2 ^ 53) exponent) -
      exponent).toNat = 1 := by
    rw [targetExponent_eq, totalExponent, Nat.log2_two_pow]
    omega
  simp only [shiftToTargetExponent, shiftToExponent, target]
  rfl

/-- The first shift goes to the grid that spans the exact value. -/
theorem shiftToTargetExponent_rounds {mantissa : Nat} {low : Int} {accuracy : Accuracy} {exact : ℚ}
    (represents : Represents (.ofMantissaAndAccuracy mantissa accuracy) (exact / 2 ^ low))
    (precise : 2 ^ 52 ≤ mantissa ∨ low ≤ -1074) :
    ∃ held exponent, shiftToTargetExponent .binary64 mantissa low accuracy = (held, exponent) ∧
      Spans exact exponent ∧ RoundsTo (exact / 2 ^ exponent) held.roundedMantissa := by
  have keeps : (ExtendedMantissa.ofMantissaAndAccuracy mantissa accuracy).mantissa = mantissa := by
    rcases accuracy with _ | _ | _ | _ <;> rfl
  have floor := represents.floor
  rw [keeps] at floor
  have spans := spans_targetExponent floor precise
  have above : low ≤ Format.binary64.targetExponent (totalExponent mantissa low) := by
    rw [targetExponent_eq, totalExponent]
    rcases precise with full | bottom
    · have length : 52 ≤ mantissa.log2 := (Nat.le_log2 (by omega)).2 full
      omega
    · omega
  obtain ⟨shift, target⟩ := Int.le.dest above
  have amount : (Format.binary64.targetExponent (totalExponent mantissa low) - low).toNat =
      shift := by omega
  have shifted := represents.shiftRight shift
  rw [div_div, ← zpow_natCast, ← zpow_add₀ (by norm_num), target] at shifted
  refine ⟨_, _, ?_, spans, shifted.roundsTo⟩
  simp only [shiftToTargetExponent, shiftToExponent, amount, target]

theorem roundWithAccuracy_rounded {mantissa : Nat} {low : Int} {accuracy : Accuracy} {exact : ℚ}
    (represents : Represents (.ofMantissaAndAccuracy mantissa accuracy) (exact / 2 ^ low))
    (precise : 2 ^ 52 ≤ mantissa ∨ low ≤ -1074) (sign : Sign) :
    Rounded sign exact (roundWithAccuracy .binary64 sign mantissa low accuracy) := by
  obtain ⟨held, exponent, first, spans, rounds⟩ := shiftToTargetExponent_rounds represents precise
  have scaled : exact / 2 ^ exponent ≤ (2 ^ 53 : Nat) := by
    have power : (0 : ℚ) < 2 ^ exponent := by positivity
    rw [div_le_iff₀ power]
    exact spans.below.le
  have keeps (mantissa : Nat) :
      (ExtendedMantissa.ofMantissaAndAccuracy mantissa .exact).mantissa = mantissa := rfl
  rcases (rounds.le scaled).lt_or_eq with narrow | wide
  · have second := shiftToTargetExponent_of_narrow narrow spans.least
    simp only [roundWithAccuracy, first, second, keeps]
    exact .within spans rounds narrow
  · have second := shiftToTargetExponent_of_wide spans.least
    rw [wide] at rounds
    simp only [roundWithAccuracy, first, wide, second, keeps]
    exact .carried spans rounds

end Shifting

section Operations

variable {first second : Nat} (high low : Int)

theorem round_size (wide : 2 ^ 52 ≤ first) (sign : Sign) :
    Rounded sign (size first high) (roundWithAccuracy .binary64 sign first high .exact) := by
  have scaled : size first high / 2 ^ high = first := mul_div_cancel_right₀ _ (by positivity)
  have represents : Represents (.ofMantissaAndAccuracy first .exact) first := .exact first
  rw [← scaled] at represents
  exact roundWithAccuracy_rounded represents (.inl wide) sign

theorem mul_rounded (positive : 0 < first) (other : 0 < second) (wide : 2 ^ 52 ≤ first * second)
    (sign against : Sign) :
    Rounded (sign * against) (size first high * size second low)
      (UnpackedFloat.mul .binary64 (.finite sign first high positive)
        (.finite against second low other)) := by
  rw [← size_mul]
  exact round_size (high + low) wide (sign * against)

/-- The leading places of two numbers tell how far left their quotient begins. -/
theorem two_pow_le_quotient (positive : 0 < first) (other : 0 < second) :
    (2 : ℚ) ^ (totalExponent first high - totalExponent second low - 1) ≤
      size first high / size second low := by
  have dividend := (size_bounds positive high).1
  have divisor := (size_bounds other low).2
  rw [le_div_iff₀ (size_pos other low)]
  calc (2 : ℚ) ^ (totalExponent first high - totalExponent second low - 1) * size second low
    _ ≤ 2 ^ (totalExponent first high - totalExponent second low - 1) *
        2 ^ totalExponent second low := mul_le_mul_of_nonneg_left divisor.le (by positivity)
    _ = 2 ^ (totalExponent first high - 1) := by
      rw [← zpow_add₀ (by norm_num)]
      congr 1
      ring
    _ ≤ size first high := dividend

/-- A quotient in steps of a grid that is fine enough for the dividend. -/
theorem quotient_steps (first : Nat) (other : 0 < second) {grid : Int} (fine : grid ≤ high - low) :
    size first high / size second low / 2 ^ grid =
      (first * 2 ^ (high - low - grid).toNat : Nat) / second := by
  have whole := size_shift first (show grid + low ≤ high by omega)
  have shift : high - (grid + low) = high - low - grid := by ring
  rw [shift, size, zpow_add₀ (by norm_num)] at whole
  have divisor : (second : ℚ) ≠ 0 := by exact_mod_cast other.ne'
  rw [← whole, size]
  field_simp

theorem div_rounded (positive : 0 < first) (other : 0 < second) (sign against : Sign) :
    Rounded (sign / against) (size first high / size second low)
      (UnpackedFloat.div .binary64 (.finite sign first high positive)
        (.finite against second low other)) := by
  have leading := two_pow_le_quotient high low positive other
  have target := targetExponent_eq (totalExponent first high - totalExponent second low)
  simp only [UnpackedFloat.div, divCore, Nat.shiftLeft_eq]
  generalize least : min (high - low) (Format.binary64.targetExponent
    (totalExponent first high - totalExponent second low)) = grid
  have steps := quotient_steps high low first other (show grid ≤ high - low by omega)
  have represents := represents_quotient (first * 2 ^ (high - low - grid).toNat) other
  rw [← steps] at represents
  refine roundWithAccuracy_rounded represents ?_ _
  by_cases bottom : grid ≤ -1074
  · exact .inr bottom
  · have full : ((2 ^ 52 : Nat) : ℚ) ≤ size first high / size second low / 2 ^ grid := by
      rw [le_div_iff₀ (by positivity)]
      calc size (2 ^ 52) grid
        _ = 2 ^ (52 + grid) := size_two_pow 52 grid
        _ ≤ 2 ^ (totalExponent first high - totalExponent second low - 1) :=
          zpow_le_zpow_right₀ (by norm_num) (by omega)
        _ ≤ size first high / size second low := leading
    rw [steps, le_div_iff₀ (by exact_mod_cast other)] at full
    exact .inl ((Nat.le_div_iff_mul_le other).2 (by exact_mod_cast full))

end Operations

end Lox.Binary64
