import Lox.Proofs.Number.Decimal
import Lox.Proofs.Scan.Written

/-!
Scanning undoes writing. What the token of a lexeme is can be said without the scan: its kind, its
text, and what it stands for, which for digits is the number nearest to the rational that they
write. It stands for nothing else: `Lexeme.Means.unique`. Lexemes with separators between them are
scanned as one such token each, and nothing is wrong: `Scan.tokenize_written`.
-/

set_option autoImplicit false

namespace Lox

open Binary64

namespace Lexeme

/-- The rational that digits before and after a point write. -/
def rational (whole fraction : List Char) : ℚ :=
  Nat.ofDigitChars 10 whole 0 + Nat.ofDigitChars 10 fraction 0 / 10 ^ fraction.length

/-- What a lexeme stands for. -/
inductive Means : Lexeme → Value → Prop where
  | symbol {text : List Char} {kind : Token.Kind} {listed} : Means (.symbol text kind listed) .nil
  | reserved {word : String} {kind : Token.Kind} {listed} :
      Means (.reserved word kind listed) .nil
  | identifier {first : Char} {rest : List Char} {starts goesOn free} :
      Means (.identifier first rest starts goesOn free) .nil
  | number {whole fraction : List Char} {inhabited digits} {number : Float}
      (nearest : IsNearest (rational whole fraction) number) :
      Means (.number whole fraction inhabited digits) (.number number)
  | string {body : List Char} {inside} : Means (.string body inside) (.text (.ofList body))

/-- Whether a token is that of a lexeme which ends on a line. -/
structure IsToken (lexeme : Lexeme) (line : Int) (token : Token) : Prop where
  kind : token.kind = lexeme.kind
  text : token.lexeme = .ofList lexeme.text
  means : lexeme.Means token.literal
  line : token.line = line

/-- A lexeme stands for one value. -/
theorem Means.unique {lexeme : Lexeme} {value other : Value} (means : lexeme.Means value)
    (alsoMeans : lexeme.Means other) : value = other := by
  cases means with
  | symbol => cases alsoMeans; rfl
  | reserved => cases alsoMeans; rfl
  | identifier => cases alsoMeans; rfl
  | string => cases alsoMeans; rfl
  | number nearest =>
      cases alsoMeans with
      | number alsoNearest => rw [nearest.unique alsoNearest]

theorem Means.exists_number {whole fraction : List Char} {inhabited digits} {value : Value}
    (means : (Lexeme.number whole fraction inhabited digits).Means value) :
    ∃ number, value = .number number ∧ IsNearest (rational whole fraction) number := by
  cases means with
  | number nearest => exact ⟨_, rfl, nearest⟩

theorem value_ofDigits (whole fraction : List Char) :
    (Decimal.ofDigits whole fraction).value = rational whole fraction := by
  have power : (10 : ℚ) ^ fraction.length ≠ 0 := by positivity
  rw [Decimal.ofDigits, Decimal.value, Decimal.natOfDigits_append, zpow_neg, zpow_natCast]
  push_cast
  rw [add_mul, mul_inv_cancel_right₀ power, ← div_eq_mul_inv]
  rfl

theorem means_literal (lexeme : Lexeme) : lexeme.Means lexeme.literal := by
  cases lexeme with
  | symbol text kind listed => exact .symbol
  | reserved word kind listed => exact .reserved
  | identifier first rest starts goesOn free => exact .identifier
  | string body inside => exact .string
  | number whole fraction inhabited digits =>
      have nearest := (Decimal.ofDigits whole fraction).toFloat_nearest
      rw [value_ofDigits] at nearest
      exact .number nearest

theorem isToken_token (lexeme : Lexeme) (line : Int) : lexeme.IsToken line (lexeme.token line) :=
  ⟨rfl, rfl, lexeme.means_literal, rfl⟩

end Lexeme

/-- A blank, a line comment and the newline that ends it. -/
def Separator.lineComment (body : List Char) (inside : '\n' ∉ body) : Separator where
  text := ' ' :: '/' :: '/' :: (body ++ ['\n'])
  trivia := .blank (by decide) (.lineComment inside .nil)
  inhabited := List.cons_ne_nil _ _
  parts := by
    rintro next ⟨⟩
    exact .inl (by decide)

namespace Scan

/-- Lexemes joined by separators are scanned as one token each, on the line where it ends, with no
error. -/
theorem tokenize_written (gap : Nat → Separator) (lexemes : List Lexeme) :
    ∃ tokens : List Token,
      Scan.tokenize (.ofList (Lexeme.join gap lexemes)) =
        .ok ⟨tokens ++ [⟨.endOfInput, "", .nil, 1 + (Lexeme.join gap lexemes).count '\n'⟩], []⟩ ∧
      tokens.length = lexemes.length ∧
      ∀ (place : Nat) (lexeme : Lexeme), lexemes[place]? = some lexeme →
        ∃ token, tokens[place]? = some token ∧
          lexeme.IsToken (1 + (Lexeme.join gap (lexemes.take (place + 1))).count '\n') token := by
  refine ⟨lexemes.mapIdx fun place lexeme =>
    lexeme.token (1 + (Lexeme.join gap (lexemes.take (place + 1))).count '\n'), ?_,
    List.length_mapIdx, ?_⟩
  · rw [tokenize, String.toList_ofList]
    exact ofSegments_join gap lexemes 1
  · intro place lexeme found
    rw [List.getElem?_mapIdx, found, Option.map_some]
    exact ⟨_, rfl, lexeme.isToken_token _⟩

/-- A word, digits and a text, with a comment after each but the last. -/
theorem tokenize_written_lineComment :
    ∃ (tokens : List Token) (token : Token) (number : Float),
      Scan.tokenize "while // a\n12.50 // a\n\"b\"" =
        .ok ⟨tokens ++ [⟨.endOfInput, "", .nil, 3⟩], []⟩ ∧
      tokens.length = 3 ∧ tokens[1]? = some token ∧ token.kind = .number ∧
      token.lexeme = "12.50" ∧ token.literal = .number number ∧ IsNearest (25 / 2) number ∧
      token.line = 2 := by
  have comment : '\n' ∉ [' ', 'a'] := by decide
  have keyword : ("while", .whileWord) ∈ Segment.keywords := by decide
  have digits : ∀ char ∈ ['1', '2'] ++ ['5', '0'], Decimal.isDigit char :=
    List.all_eq_true.1 (by decide)
  have quoted : '"' ∉ ['b'] := by decide
  obtain ⟨tokens, scanned, length, each⟩ := tokenize_written (fun _ => .lineComment _ comment)
    [.reserved _ _ keyword, .number _ _ (by decide) digits, .string _ quoted]
  obtain ⟨token, found, isToken⟩ := each 1 _ rfl
  have value : Lexeme.rational ['1', '2'] ['5', '0'] = 25 / 2 := by
    have whole : Nat.ofDigitChars 10 ['1', '2'] 0 = 12 := rfl
    have fraction : Nat.ofDigitChars 10 ['5', '0'] 0 = 50 := rfl
    rw [Lexeme.rational, whole, fraction]
    norm_num
  obtain ⟨number, literal, nearest⟩ := isToken.means.exists_number
  rw [value] at nearest
  exact ⟨tokens, token, number, scanned, length, found, isToken.kind, isToken.text, literal,
    nearest, isToken.line⟩

end Scan

end Lox
