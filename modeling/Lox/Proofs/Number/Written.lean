import Lox.Proofs.Number.Shortest
import Lox.Proofs.Scan.Written

/-!
Reading undoes writing. Whatever a number is written as, with an exponent or without one, its text
stands for the rational that the shortest decimal of the number stands for, and is read as the
number with its sign: `Number.read?_write`.
-/

set_option autoImplicit false

namespace Lox.Number

open Decimal

/-- Digits with a point between them, if any come after it. -/
def mantissa (whole fraction : List Char) : List Char :=
  match fraction with
  | [] => whole
  | first :: rest => whole ++ '.' :: first :: rest

section Split

variable {isMark : Char → Bool} {before : List Char} (unmarked : ∀ char ∈ before, ¬isMark char)

include unmarked

theorem splitAtFirst_of_unmarked : splitAtFirst isMark before = (before, none) := by
  have none : before.dropWhile (!isMark ·) = [] := by
    rw [List.dropWhile_eq_nil_iff]
    simpa using unmarked
  rw [splitAtFirst, none]

theorem splitAtFirst_of_mark {mark : Char} (isOne : isMark mark) (after : List Char) :
    splitAtFirst isMark (before ++ mark :: after) = (before, some after) := by
  have stays : ∀ char ∈ before, !isMark char := by simpa using unmarked
  have stops : ∀ next ∈ (mark :: after).head?, ¬(!isMark next) := by
    rintro next ⟨⟩
    simpa using isOne
  rw [splitAtFirst, dropWhile_run stays stops, takeWhile_run stays stops]

end Split

theorem ne_of_isDigit {char mark : Char} (digit : isDigit char) (other : ¬isDigit mark) :
    char ≠ mark := by
  rintro rfl
  exact other digit

theorem mantissa_cons (first : Char) (whole fraction : List Char) :
    mantissa (first :: whole) fraction = first :: mantissa whole fraction := by
  cases fraction with
  | nil => rfl
  | cons next rest => rfl

/-- A mantissa is made of digits and a point. -/
theorem mem_mantissa {whole fraction : List Char} {char : Char}
    (member : char ∈ mantissa whole fraction) : char ∈ whole ++ fraction ∨ char = '.' := by
  cases fraction with
  | nil => exact .inl (List.mem_append_left _ member)
  | cons first rest =>
      simp only [mantissa, List.mem_append, List.mem_cons] at member ⊢
      tauto

section Read

variable {whole fraction : List Char} (digits : ∀ char ∈ whole ++ fraction, isDigit char)

include digits

theorem not_mem_mantissa {mark : Char} (noDigit : ¬isDigit mark) (noPoint : mark ≠ '.') :
    mark ∉ mantissa whole fraction := by
  intro member
  rcases mem_mantissa member with inside | point
  · exact noDigit (digits mark inside)
  · exact noPoint point

/-- A mantissa has no letter in it, so an exponent begins at the first. -/
theorem mantissa_unmarked :
    ∀ char ∈ mantissa whole fraction, ¬(char == 'e' || char == 'E') := by
  intro char member
  have lower : char ≠ 'e' := fun same =>
    not_mem_mantissa digits (by decide) (by decide) (same ▸ member)
  have upper : char ≠ 'E' := fun same =>
    not_mem_mantissa digits (by decide) (by decide) (same ▸ member)
  simp [lower, upper]

theorem splitAtFirst_point :
    (splitAtFirst (· == '.') (mantissa whole fraction)).1 = whole ∧
      (splitAtFirst (· == '.') (mantissa whole fraction)).2.getD [] = fraction := by
  have unmarked : ∀ char ∈ whole, ¬(char == '.') = true := by
    intro char member
    have digit := digits char (List.mem_append_left _ member)
    simpa using ne_of_isDigit digit (by decide)
  cases fraction with
  | nil =>
      rw [mantissa, splitAtFirst_of_unmarked unmarked]
      exact ⟨rfl, rfl⟩
  | cons first rest =>
      rw [mantissa, splitAtFirst_of_mark unmarked (by decide)]
      exact ⟨rfl, rfl⟩

variable (inhabited : whole ≠ [])

include inhabited

/-- What is left to read after a mantissa is the exponent. -/
theorem readDecimal?_of_split {text : List Char} {exponentDigits : Option (List Char)}
    {exponent : Int}
    (split : splitAtFirst (fun char => char == 'e' || char == 'E') text =
      (mantissa whole fraction, exponentDigits))
    (read : exponentDigits.elim (some 0) readExponent? = some exponent) :
    readDecimal? text =
      some ⟨natOfDigits (whole ++ fraction), -(fraction.length : Int) + exponent⟩ := by
  obtain ⟨before, after⟩ := splitAtFirst_point digits
  have proper : ¬((whole ++ fraction).isEmpty || !(whole ++ fraction).all isDigit) = true := by
    rw [Bool.or_eq_true, Bool.not_eq_true', List.isEmpty_iff, List.append_eq_nil_iff,
      ← Bool.not_eq_true, List.all_eq_true]
    rintro (⟨empty, -⟩ | other)
    · exact inhabited empty
    · exact other digits
  rw [readDecimal?, split]
  simp only [before, after, if_neg proper]
  cases exponentDigits with
  | none =>
      obtain rfl := Option.some.inj read
      rfl
  | some text =>
      rw [Option.elim_some] at read
      simp only [read]
      rfl

theorem readDecimal?_mantissa :
    readDecimal? (mantissa whole fraction) = some (ofDigits whole fraction) := by
  have split := splitAtFirst_of_unmarked (mantissa_unmarked digits)
  rw [readDecimal?_of_split digits inhabited split rfl, Int.add_zero]
  rfl

theorem readDecimal?_exponent {text : List Char} {exponent : Int}
    (read : readExponent? text = some exponent) :
    readDecimal? (mantissa whole fraction ++ 'e' :: text) =
      some ⟨natOfDigits (whole ++ fraction), -(fraction.length : Int) + exponent⟩ := by
  have begins : ('e' == 'e' || 'e' == 'E') = true := by decide
  have split := splitAtFirst_of_mark (mantissa_unmarked digits) begins text
  exact readDecimal?_of_split digits inhabited split read

end Read

section LayOut

/-- The digits of an exponent, at least two of them. -/
def exponentDigits (exponent : Int) : List Char :=
  List.replicate (2 - (digitsOfNat exponent.natAbs).length) '0' ++ digitsOfNat exponent.natAbs

theorem natOfDigits_exponentDigits (exponent : Int) :
    natOfDigits (exponentDigits exponent) = exponent.natAbs := by
  rw [exponentDigits, natOfDigits_append, natOfDigits_zeros, natOfDigits_digitsOfNat, Nat.zero_mul,
    Nat.zero_add]

theorem isDigit_of_mem_exponentDigits {exponent : Int} {char : Char}
    (member : char ∈ exponentDigits exponent) : isDigit char := by
  rcases List.mem_append.1 member with zero | digit
  · rw [List.eq_of_mem_replicate zero]
    decide
  · exact isDigit_of_mem_digitsOfNat digit

theorem exponentDigits_proper (exponent : Int) :
    ¬((exponentDigits exponent).isEmpty || !(exponentDigits exponent).all isDigit) = true := by
  rw [Bool.or_eq_true, Bool.not_eq_true', List.isEmpty_iff, exponentDigits, List.append_eq_nil_iff,
    ← Bool.not_eq_true, List.all_eq_true]
  rintro (⟨-, empty⟩ | other)
  · exact digitsOfNat_ne_nil _ empty
  · exact other fun char member => isDigit_of_mem_exponentDigits member

theorem toList_exponentText (exponent : Int) :
    (exponentText exponent).toList =
      (if exponent < 0 then "e-" else "e+").toList ++ exponentDigits exponent := by
  rw [exponentText, String.toList_append, String.toList_ofList, exponentDigits]

/-- An exponent is read as the one that was written. -/
theorem exponentText_spec (exponent : Int) :
    ∃ text, (exponentText exponent).toList = 'e' :: text ∧ readExponent? text = some exponent := by
  have proper := exponentDigits_proper exponent
  have digits := natOfDigits_exponentDigits exponent
  have shown := toList_exponentText exponent
  by_cases negative : exponent < 0
  · have size : -(exponent.natAbs : Int) = exponent := by omega
    rw [if_pos negative] at shown
    refine ⟨'-' :: exponentDigits exponent, shown, ?_⟩
    simp only [readExponent?, if_neg proper, digits, if_true, size]
  · have size : (exponent.natAbs : Int) = exponent := by omega
    rw [if_neg negative] at shown
    refine ⟨'+' :: exponentDigits exponent, shown, ?_⟩
    simp only [readExponent?, if_neg proper, digits, Bool.false_eq_true, if_false, size]

/-- A point and a zero after a whole number change nothing. -/
theorem value_ofDigits_zero (whole : List Char) :
    (ofDigits whole ['0']).value = (ofDigits whole []).value := by
  have last : natOfDigits ['0'] = 0 := rfl
  have shifted := value_mul_pow (natOfDigits whole) 1 (-1)
  rw [ofDigits, natOfDigits_append, last, ofDigits, List.append_nil]
  exact shifted

/-- A style that ends whole numbers in nothing or in a point and a zero. -/
def Style.EndsInZeros (style : Style) : Prop :=
  style.wholeEnding = "" ∨ style.wholeEnding = ".0"

variable {style : Style} (ending : style.EndsInZeros) (decimal : Decimal)

include ending

/-- Without an exponent, a decimal is written as digits that stand for it. -/
theorem exists_mantissa (positional : style.isPositional decimal.magnitude) :
    ∃ whole fraction, whole ≠ [] ∧ (∀ char ∈ whole ++ fraction, isDigit char) ∧
      (style.layOut decimal).toList = mantissa whole fraction ∧
        (ofDigits whole fraction).value = decimal.value := by
  have digits := decimal.isDigit_of_mem_positional
  have inhabited := decimal.whole_ne_nil
  have same := decimal.value_positional
  rw [Style.layOut, if_pos positional]
  generalize decimal.positional = parts at *
  obtain ⟨whole, fraction⟩ := parts
  cases fraction with
  | cons first rest => exact ⟨whole, first :: rest, inhabited, digits, String.toList_ofList, same⟩
  | nil =>
      rcases ending with nothing | zero
      · refine ⟨whole, [], inhabited, digits, ?_, same⟩
        simp only [nothing, String.append_empty, String.toList_ofList, mantissa]
      · refine ⟨whole, ['0'], inhabited, ?_, ?_, ?_⟩
        · rw [List.append_nil] at digits
          rw [List.forall_mem_append, List.forall_mem_singleton]
          exact ⟨digits, by decide⟩
        · simp only [zero, String.toList_append, String.toList_ofList, mantissa]
          rfl
        · rw [value_ofDigits_zero]
          exact same

omit ending in
/-- With an exponent, a decimal is written as its digits and its magnitude. -/
theorem exists_exponent (scientific : ¬style.isPositional decimal.magnitude) :
    ∃ first rest, digitsOfNat decimal.digits = first :: rest ∧
      (style.layOut decimal).toList =
        mantissa [first] rest ++ (exponentText decimal.magnitude).toList := by
  obtain ⟨first, rest, shown⟩ := List.exists_cons_of_ne_nil (digitsOfNat_ne_nil decimal.digits)
  refine ⟨first, rest, shown, ?_⟩
  rw [Style.layOut, if_neg scientific, shown]
  cases rest with
  | nil => rw [String.toList_append, String.toList_ofList, mantissa]
  | cons second rest =>
      rw [String.toList_append, String.toList_ofList, mantissa]
      rfl

/-- A decimal laid out in a style is read as what it stands for. -/
theorem value_layOut :
    (readDecimal? (style.layOut decimal).toList).map Decimal.value = some decimal.value := by
  by_cases positional : style.isPositional decimal.magnitude
  · obtain ⟨whole, fraction, inhabited, digits, text, same⟩ :=
      exists_mantissa ending decimal positional
    rw [text, readDecimal?_mantissa digits inhabited, Option.map_some, same]
  · obtain ⟨first, rest, shown, text⟩ := exists_exponent decimal positional
    obtain ⟨exponent, begins, read⟩ := exponentText_spec decimal.magnitude
    have digits : ∀ char ∈ [first] ++ rest, isDigit char := by
      intro char member
      rw [List.singleton_append, ← shown] at member
      exact isDigit_of_mem_digitsOfNat member
    have number : natOfDigits ([first] ++ rest) = decimal.digits := by
      rw [List.singleton_append, ← shown, natOfDigits_digitsOfNat]
    have places : -(rest.length : Int) + decimal.magnitude = decimal.exponent := by
      rw [magnitude, shown, List.length_cons]
      omega
    rw [text, begins, readDecimal?_exponent digits (List.cons_ne_nil first []) read, number, places,
      Option.map_some]

/-- What is laid out begins with a digit. -/
theorem exists_digit_layOut :
    ∃ first rest, (style.layOut decimal).toList = first :: rest ∧ isDigit first := by
  by_cases positional : style.isPositional decimal.magnitude
  · obtain ⟨whole, fraction, inhabited, digits, text, -⟩ :=
      exists_mantissa ending decimal positional
    obtain ⟨first, rest, rfl⟩ := List.exists_cons_of_ne_nil inhabited
    exact ⟨first, mantissa rest fraction, by rw [text, mantissa_cons], digits first (by simp)⟩
  · obtain ⟨first, rest, shown, text⟩ := exists_exponent decimal positional
    refine ⟨first, mantissa [] rest ++ (exponentText decimal.magnitude).toList, ?_, ?_⟩
    · rw [text, mantissa_cons, List.cons_append]
    · exact isDigit_of_mem_digitsOfNat (shown ▸ List.mem_cons_self)

/-- The characters that are written besides digits. -/
def signs : List Char :=
  ['.', 'e', '+', '-']

omit ending in
theorem mem_exponentText {exponent : Int} {char : Char}
    (member : char ∈ (exponentText exponent).toList) : isDigit char ∨ char ∈ signs := by
  rw [toList_exponentText] at member
  rcases List.mem_append.1 member with sign | digit
  · right
    split at sign
    · have listed : ∀ char ∈ ['e', '-'], char ∈ signs := by simp [signs]
      exact listed char sign
    · have listed : ∀ char ∈ ['e', '+'], char ∈ signs := by simp [signs]
      exact listed char sign
  · exact .inl (isDigit_of_mem_exponentDigits digit)

theorem mem_layOut {char : Char} (member : char ∈ (style.layOut decimal).toList) :
    isDigit char ∨ char ∈ signs := by
  by_cases positional : style.isPositional decimal.magnitude
  · obtain ⟨whole, fraction, -, digits, text, -⟩ := exists_mantissa ending decimal positional
    rw [text] at member
    rcases mem_mantissa member with inside | rfl
    · exact .inl (digits char inside)
    · exact .inr (by decide)
  · obtain ⟨first, rest, shown, text⟩ := exists_exponent decimal positional
    rw [text] at member
    rcases List.mem_append.1 member with front | exponent
    · rcases mem_mantissa front with inside | rfl
      · rw [List.singleton_append, ← shown] at inside
        exact .inl (isDigit_of_mem_digitsOfNat inside)
      · exact .inr (by decide)
    · exact mem_exponentText exponent

end LayOut

section Write

/-- The rational that the text of a number writes. -/
def rational? (text : String) : Option ℚ :=
  match text.toList with
  | '-' :: size => (readDecimal? size).map fun decimal => -decimal.value
  | size => (readDecimal? size).map Decimal.value

/-- The rational that the shortest decimal of a number and its sign stand for. -/
def rational (number : Float) : ℚ :=
  if isNegative number then -(shortest number).value else (shortest number).value

variable {style : Style} {number : Float}

theorem write_of_finite (finite : number.isFinite) :
    (style.write number).toList =
      (if isNegative number then ['-'] else []) ++ (style.layOut (shortest number)).toList := by
  obtain ⟨sign, -, held⟩ := Binary64.exists_held finite
  have proper : number.isNaN = false ∧ number.isInf = false := held.not_isNaN_isInf
  simp only [Style.write, proper.1, proper.2, Bool.false_eq_true, if_false]
  split_ifs
  · rw [String.toList_append]
    rfl
  · rfl

variable (ending : style.EndsInZeros) (finite : number.isFinite)

include ending finite

/-- The text of a number is made of digits, points, exponents and signs. -/
theorem mem_write {char : Char} (member : char ∈ (style.write number).toList) :
    isDigit char ∨ char ∈ signs := by
  rw [write_of_finite finite] at member
  rcases List.mem_append.1 member with sign | size
  · right
    split at sign
    · rw [List.mem_singleton.1 sign]
      decide
    · cases sign
  · exact mem_layOut ending _ size

/-- The text of a number begins with a digit, after its sign. -/
theorem exists_first_write :
    ∃ first rest, (style.write number).toList = first :: rest ∧ (isDigit first ∨ first = '-') := by
  obtain ⟨first, rest, text, digit⟩ := exists_digit_layOut ending (shortest number)
  rw [write_of_finite finite, text]
  split
  · exact ⟨'-', first :: rest, rfl, .inr rfl⟩
  · exact ⟨first, rest, rfl, .inl digit⟩

/-- The text of a number stands for its shortest decimal, in any style. -/
theorem rational?_write : rational? (style.write number) = some (rational number) := by
  have same := value_layOut ending (shortest number)
  obtain ⟨decimal, read, value⟩ := Option.map_eq_some_iff.1 same
  rw [rational?, write_of_finite finite, rational]
  by_cases negative : isNegative number
  · rw [if_pos negative, if_pos negative, List.singleton_append]
    simp only [read, Option.map_some, value]
  · obtain ⟨first, rest, text, digit⟩ := exists_digit_layOut ending (shortest number)
    rw [if_neg negative, if_neg negative, List.nil_append]
    split
    · rename_i size begins
      rw [begins] at text
      obtain ⟨rfl, -⟩ := List.cons.inj text
      exact absurd digit (by decide)
    · exact same

omit ending finite in
/-- What begins with a digit is neither of the words for numbers that are not finite. -/
theorem not_word {first : Char} (digit : isDigit first) (rest : List Char) :
    String.ofList (first :: rest) ≠ "nan" ∧ String.ofList (first :: rest) ≠ "inf" := by
  have begins {word : String} (same : String.ofList (first :: rest) = word) :
      word.toList.head? = some first := by
    rw [← same, String.toList_ofList, List.head?_cons]
  constructor
  · intro same
    exact ne_of_isDigit digit (by decide) (Option.some.inj (begins same)).symm
  · intro same
    exact ne_of_isDigit digit (by decide) (Option.some.inj (begins same)).symm

/-- Reading a text gives the number that was written. -/
theorem read?_write : read? (style.write number) = some number := by
  have same := value_layOut ending (shortest number)
  obtain ⟨decimal, read, value⟩ := Option.map_eq_some_iff.1 same
  obtain ⟨first, rest, text, digit⟩ := exists_digit_layOut ending (shortest number)
  have abs : decimal.toFloat = number.abs :=
    (toFloat_eq_of_value value).trans (toFloat_shortest finite)
  have signed := Binary64.signed_abs finite
  -- No step names the two: they rule out the words in the matches below.
  obtain ⟨noNan, noInf⟩ := not_word digit rest
  rw [text] at read
  rw [read?, write_of_finite finite, text]
  by_cases negative : isNegative number
  · rw [if_pos negative] at signed
    rw [if_pos negative, List.singleton_append]
    simp only [read, Option.map_some, abs, signed, if_true]
  · rw [if_neg negative] at signed
    rw [if_neg negative, List.nil_append]
    split
    rename_i sign size parts
    split at parts
    · rename_i begins
      exact absurd (List.cons.inj begins).1 (ne_of_isDigit digit (by decide))
    · rename_i begins
      exact absurd (List.cons.inj begins).1 (ne_of_isDigit digit (by decide))
    · obtain ⟨rfl, rfl⟩ := Prod.mk.inj parts
      simp only [read, Option.map_some, abs, signed, Bool.false_eq_true, if_false]

end Write

end Lox.Number
