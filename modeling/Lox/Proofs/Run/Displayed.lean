import Lox.Proofs.Number.Written
import Lox.Proofs.Run.Totality

/-!
A number that is printed is an expression for that number. Its text is scanned as one number, after
a minus sign if the number is negative, and comes to the number itself when it is evaluated, so a
program that prints the text prints it again: `Run.displayed_reads_back`.
-/

set_option autoImplicit false

namespace Lox

open Segment Decimal

namespace Lexeme

def minus : Lexeme :=
  .symbol ['-'] .minus (by decide)

def semicolon : Lexeme :=
  .symbol [';'] .semicolon (by decide)

def print : Lexeme :=
  .reserved "print" .printWord (by decide)

/-- No longer symbol begins with a minus sign, whatever comes after it. -/
theorem ofText_minus (after : List Char) :
    ofText ('-' :: after) = minus.segment :: ofText after := by
  apply ofText_of_split _ rfl
  cases after with
  | nil => rfl
  | cons next rest => rfl

theorem ofText_semicolon (after : List Char) :
    ofText (';' :: after) = semicolon.segment :: ofText after := by
  apply ofText_of_split _ rfl
  cases after with
  | nil => rfl
  | cons next rest => rfl

/-- The text of a number is a mantissa. -/
theorem text_number {whole fraction : List Char} (inhabited : whole ≠ [])
    (digits : ∀ char ∈ whole ++ fraction, isDigit char) :
    (number whole fraction inhabited digits).text = Number.mantissa whole fraction := by
  cases fraction with
  | nil => rfl
  | cons first rest => rfl

end Lexeme

namespace Number

/-- The number that the text of a finite number has after its sign. -/
def lexeme (number : Float) : Lexeme :=
  .number (shortest number).positional.1 (shortest number).positional.2
    (shortest number).whole_ne_nil (shortest number).isDigit_of_mem_positional

/-- The tokens of the text of a finite number. -/
def tokens (number : Float) (line : Int) : List Token :=
  (if isNegative number then [Lexeme.minus.token line] else []) ++ [(lexeme number).token line]

theorem text_lexeme (number : Float) :
    (lexeme number).text =
      mantissa (shortest number).positional.1 (shortest number).positional.2 :=
  Lexeme.text_number _ _

theorem layOut_shown (decimal : Decimal) :
    (Style.shown.layOut decimal).toList =
      mantissa decimal.positional.1 decimal.positional.2 := by
  have positional : Style.shown.isPositional decimal.magnitude = true := rfl
  rw [Style.layOut, if_pos positional]
  generalize decimal.positional = parts
  obtain ⟨whole, fraction⟩ := parts
  cases fraction with
  | nil =>
      change (String.ofList whole ++ "").toList = whole
      rw [String.append_empty, String.toList_ofList]
  | cons first rest => rw [mantissa, String.toList_ofList]

theorem count_newline_lexeme (number : Float) : (lexeme number).text.count '\n' = 0 := by
  rw [List.count_eq_zero, text_lexeme]
  exact not_mem_mantissa (shortest number).isDigit_of_mem_positional (by decide) (by decide)

theorem eq_minus_of_mem {number : Float} {mark : Char}
    (member : mark ∈ if isNegative number then ['-'] else []) : mark = '-' := by
  split_ifs at member
  · exact List.mem_singleton.1 member
  · cases member

section Display

variable {number : Float} (finite : number.isFinite)

include finite

theorem toList_display :
    (Value.number number).display.toList =
      (if isNegative number then ['-'] else []) ++ (lexeme number).text := by
  have written : (Style.shown.write number).toList = _ := write_of_finite finite
  rw [layOut_shown, ← text_lexeme] at written
  exact written

theorem literal_lexeme : (lexeme number).literal = .number number.abs := by
  have read := toFloat_eq_of_value (value_positional (shortest number))
  rw [toFloat_shortest finite] at read
  rw [lexeme, Lexeme.literal, read]

/-- A digit, a point or a minus sign is all that the text has in it. -/
theorem not_mem_display {mark : Char} (noDigit : ¬isDigit mark) (noPoint : mark ≠ '.')
    (noMinus : mark ≠ '-') : mark ∉ (Value.number number).display.toList := by
  rw [toList_display finite, text_lexeme, List.mem_append]
  rintro (sign | inside)
  · exact noMinus (eq_minus_of_mem sign)
  · exact not_mem_mantissa (shortest number).isDigit_of_mem_positional noDigit noPoint inside

/-- No number is shown with a fraction that is zero. -/
theorem not_zero_suffix_display : ¬['.', '0'] <:+ (Value.number number).display.toList := by
  have last := (isReduced_shortest number).getLast?_fraction
  have digits := (shortest number).isDigit_of_mem_positional
  rw [toList_display finite, text_lexeme]
  generalize (shortest number).positional = parts at last digits
  obtain ⟨whole, fraction⟩ := parts
  rintro ⟨before, same⟩
  cases fraction with
  | nil =>
      have point : '.' ∈ (if isNegative number then ['-'] else []) ++ whole := by
        rw [mantissa] at same
        rw [← same]
        simp
      rcases List.mem_append.1 point with sign | inside
      · exact absurd (eq_minus_of_mem sign) (by decide)
      · exact absurd (digits '.' (List.mem_append_left _ inside)) (by decide)
  | cons first rest =>
      have ends : (first :: rest).getLast? = some '0' := by
        have both := congrArg List.getLast? same.symm
        simpa [mantissa, List.getLast?_cons] using both
      exact last ends

/-- The text of a number is scanned as its tokens, whatever ends it. -/
theorem ofSegments_display {after : List Char} (ends : EndsNumber after) (line : Int) :
    Scan.ofSegments line (ofText ((Value.number number).display.toList ++ after)) =
      (Scan.ofSegments line (ofText after)).map (Scan.prepend (tokens number line)) := by
  have segment : ofText ((lexeme number).text ++ after) = (lexeme number).segment :: ofText after :=
    Lexeme.ofText_number_append _ _ ends
  have scanned := Scan.ofSegments_segment (lexeme number) line (ofText after)
  rw [count_newline_lexeme, Int.natCast_zero, Int.add_zero, ← segment] at scanned
  rw [toList_display finite, tokens]
  by_cases negative : isNegative number
  · have signed := Scan.ofSegments_segment .minus line (ofText ((lexeme number).text ++ after))
    have sameLine : line + (Lexeme.minus.text.count '\n' : Int) = line := by
      rw [show Lexeme.minus.text.count '\n' = 0 from rfl]
      omega
    rw [sameLine, scanned] at signed
    rw [if_pos negative, if_pos negative, List.singleton_append, List.cons_append,
      Lexeme.ofText_minus, signed]
    cases Scan.ofSegments line (ofText after) with
    | error unknown => rfl
    | ok scan => rfl
  · rw [if_neg negative, if_neg negative, List.nil_append, List.nil_append, scanned]

end Display

end Number

namespace Scan

variable {number : Float} (finite : number.isFinite)

include finite

/-- The text of a number alone. -/
theorem ofSource_display :
    ofSource (Value.number number).display =
      ⟨Number.tokens number 1 ++ [⟨.endOfInput, "", .nil, 1⟩], []⟩ := by
  have ends : EndsNumber [] := by
    intro next member
    cases member
  have scanned := Number.ofSegments_display finite ends 1
  rw [List.append_nil] at scanned
  apply ofSource_of_tokenize
  rw [tokenize, scanned, ofText]
  rfl

/-- The statement that prints the text of a number. -/
theorem ofSource_print_display :
    ofSource ("print " ++ (Value.number number).display ++ ";") =
      ⟨Lexeme.print.token 1 :: (Number.tokens number 1 ++
        [Lexeme.semicolon.token 1, ⟨.endOfInput, "", .nil, 1⟩]), []⟩ := by
  have ends : EndsNumber [';'] := by
    rintro next ⟨⟩
    decide
  have text : ("print " ++ (Value.number number).display ++ ";").toList =
      Lexeme.print.text ++ ' ' :: ((Value.number number).display.toList ++ [';']) := by
    rw [String.toList_append, String.toList_append, List.append_assoc]
    rfl
  have parts (more : List Char) : Parts (' ' :: more) := by
    rintro next ⟨⟩
    exact .inl (by decide)
  have noNewline : Lexeme.print.text.count '\n' = 0 ∧ Lexeme.semicolon.text.count '\n' = 0 := by
    decide
  apply ofSource_of_tokenize
  rw [tokenize, text, ofSegments_lexeme _ (parts _), ofSegments_blank (by decide),
    Number.ofSegments_display finite ends, Lexeme.ofText_semicolon, ofSegments_segment,
    noNewline.1, noNewline.2, ofText]
  rfl

end Scan

namespace Grammar

/-- An operand as an expression with no binary operator in it. -/
def Derivation.ofUnary (operand : Derivation .unary) : Derivation .assignment :=
  .equality (.binary (.tighter (.binary (.tighter (.binary (.tighter (.binary (.tightest operand)
    .chainEnd) .products) .chainEnd) .sums) .chainEnd) .comparisons) .chainEnd)

theorem Derivation.tokens_ofUnary (operand : Derivation .unary) :
    (ofUnary operand).tokens = operand.tokens := by
  simp only [ofUnary, tokens, List.append_nil]

theorem Derivation.tree_ofUnary (operand : Derivation .unary) :
    (ofUnary operand).tree = operand.tree := rfl

/-- The text of a number is a number, with a minus sign in front of it if the number is negative. -/
def Derivation.ofNumber (number : Float) (line : Int) : Derivation .unary :=
  let size : Derivation .unary := .primary (.atom ((Number.lexeme number).token line)
    (.literal (Number.lexeme number).literal) (.number rfl))
  if Number.isNegative number then .unary (Lexeme.minus.token line) size .minus else size

theorem Derivation.tokens_ofNumber (number : Float) (line : Int) :
    (ofNumber number line).tokens = Number.tokens number line := by
  rw [ofNumber, Number.tokens]
  split_ifs
  · rfl
  · rfl

end Grammar

theorem Expr.eval_ofNumber {number : Float} (finite : number.isFinite) (line : Int)
    (environment : Environment) :
    Expr.eval (Grammar.Derivation.ofNumber number line).tree environment =
      .ok (.number number) environment := by
  have signed := Binary64.signed_abs finite
  have literal := Number.literal_lexeme finite
  rw [Grammar.Derivation.ofNumber]
  split_ifs at signed ⊢
  · change (Expr.unary (Lexeme.minus.token line) (.literal (Number.lexeme number).literal)).eval
      environment = _
    rw [literal]
    exact congrArg (fun value => EStateM.Result.ok (Value.number value) environment) signed
  · change (Expr.literal (Number.lexeme number).literal).eval environment = _
    rw [literal, signed]
    rfl

section Print

variable {number : Float} (finite : number.isFinite)

include finite

/-- An expression that is the text of a number is read to its end. -/
theorem Cursor.perform_display :
    let scan := Scan.ofSource (Value.number number).display
    (Cursor.start scan.tokens).perform .assignment =
      (.ok (.expression (Grammar.Derivation.ofNumber number 1).tree),
        ⟨scan.tokens, (Number.tokens number 1).length, []⟩) := by
  let value := Grammar.Derivation.ofUnary (.ofNumber number 1)
  let last : Token := ⟨.endOfInput, "", .nil, 1⟩
  have ends : Grammar.Symbol.assignment.EndsBefore [last] :=
    Grammar.Symbol.assignment_endsBefore_of_bounds [] (by decide)
  have read : (Grammar.assignment (value.tokens ++ [last])).val = ⟨.ok value.tree, [], [last]⟩ :=
    (value.readsAs [last] ends).answer_eq
  rw [Grammar.Derivation.tokens_ofUnary, Grammar.Derivation.tokens_ofNumber,
    Grammar.Derivation.tree_ofUnary] at read
  simp only [Scan.ofSource_display finite, perform, answer, apply_start]
  rw [read]
  simp only [List.length_append, List.length_singleton, Nat.add_sub_cancel]
  rfl

/-- What printing the text of a number is read as. -/
theorem Reading.ofSource_print_display :
    Reading.ofSource ("print " ++ (Value.number number).display ++ ";") =
      .ok ⟨Lexeme.print.token 1 :: (Number.tokens number 1 ++
          [Lexeme.semicolon.token 1, ⟨.endOfInput, "", .nil, 1⟩]),
        [.print (Grammar.Derivation.ofNumber number 1).tree], [], []⟩ := by
  let value := Grammar.Derivation.ofUnary (.ofNumber number 1)
  let program : Grammar.Derivation .declarations :=
    .next (.print (Lexeme.print.token 1) value (Lexeme.semicolon.token 1) rfl rfl) .nothing
  have ended : Token.isEnd ⟨.endOfInput, "", .nil, 1⟩ := by decide
  have parsed := Grammar.program_of_derivation program ended
  have tokens : program.tokens ++ [⟨.endOfInput, "", .nil, 1⟩] = Lexeme.print.token 1 ::
      (Number.tokens number 1 ++ [Lexeme.semicolon.token 1, ⟨.endOfInput, "", .nil, 1⟩]) := by
    simp only [program, value, Grammar.Derivation.tokens, Grammar.Derivation.tokens_ofUnary,
      Grammar.Derivation.tokens_ofNumber, List.append_nil, List.cons_append, List.append_assoc,
      List.nil_append]
  rw [tokens] at parsed
  exact ofSource_of_program (Scan.ofSource_print_display finite) parsed

/-- Printing the text of a number prints it again. -/
theorem Run.ofSource_print_display (settings : Settings) (environment : Environment)
    (reporter : Reporter) :
    ∃ reading dump,
      Reading.ofSource ("print " ++ (Value.number number).display ++ ";") = .ok reading ∧
        reading.preamble settings = .ok dump ∧
          Run.ofSource settings ("print " ++ (Value.number number).display ++ ";") environment
              reporter =
            .ok ⟨dump ++ (Value.number number).display ++ "\n", "", environment, reporter⟩ := by
  have read := Reading.ofSource_print_display finite
  obtain ⟨dump, written⟩ := Reading.exists_preamble settings read
  refine ⟨_, dump, read, written, ?_⟩
  rw [ofSource_of_clean read written environment reporter rfl, ofStatements]
  have executed : Stmt.execAll environment [.print (Grammar.Derivation.ofNumber number 1).tree] =
      ⟨[(Value.number number).display], environment, none⟩ := by
    have value := Expr.eval_ofNumber finite 1 environment
    simp only [Stmt.execAll, Stmt.exec, Execution.ofValue, value]
    rfl
  have output : Execution.output ⟨[(Value.number number).display], environment, none⟩ =
      (Value.number number).display ++ "\n" := by
    simp [Execution.output, String.join]
  rw [String.append_assoc, ← output, executed]
  rfl

end Print

/-- The text of a finite number is its sign and digits, with at most a point among them, no exponent
and no fraction that is zero, and stands for what the dumped text stands for. It is an expression
that comes to the number, a program that prints it prints it again, and no other finite number has
it. -/
theorem Run.displayed_reads_back (number : Float) (finite : number.isFinite) :
    let text := (Value.number number).display
    (∃ whole fraction, ∃ (inhabited : whole ≠ [])
        (digits : ∀ char ∈ whole ++ fraction, isDigit char),
      text.toList = (if Number.isNegative number then ['-'] else []) ++
        (Lexeme.number whole fraction inhabited digits).text) ∧
    'e' ∉ text.toList ∧ 'E' ∉ text.toList ∧ ¬['.', '0'] <:+ text.toList ∧
    (∃ rational, Number.rational? text = some rational ∧
      Number.rational? (Number.Style.dumped.write number) = some rational) ∧
    (∃ tokens last tree, Scan.ofSource text = ⟨tokens ++ [last], []⟩ ∧ last.isEnd ∧
      (Cursor.start (tokens ++ [last])).perform .assignment =
        (.ok (.expression tree), ⟨tokens ++ [last], tokens.length, []⟩) ∧
      ∀ environment, tree.eval environment = .ok (.number number) environment) ∧
    (∀ settings environment reporter, ∃ reading dump,
      Reading.ofSource ("print " ++ text ++ ";") = .ok reading ∧
      reading.preamble settings = .ok dump ∧
      Run.ofSource settings ("print " ++ text ++ ";") environment reporter =
        .ok ⟨dump ++ text ++ "\n", "", environment, reporter⟩) ∧
    ∀ other : Float, other.isFinite → (Value.number other).display = text → other = number := by
  have scanned := Scan.ofSource_display finite
  have read := Cursor.perform_display finite
  rw [scanned] at read
  refine ⟨⟨_, _, _, _, Number.toList_display finite⟩,
    Number.not_mem_display finite (by decide) (by decide) (by decide),
    Number.not_mem_display finite (by decide) (by decide) (by decide),
    Number.not_zero_suffix_display finite,
    ⟨_, Number.rational?_write (.inl rfl) finite, Number.rational?_write (.inr rfl) finite⟩,
    ⟨_, _, _, scanned, by decide, read, Expr.eval_ofNumber finite 1⟩,
    Run.ofSource_print_display finite, ?_⟩
  intro other otherFinite same
  have first : Number.read? (Value.number other).display = some other :=
    Number.read?_write (.inl rfl) otherFinite
  have second : Number.read? (Value.number number).display = some number :=
    Number.read?_write (.inl rfl) finite
  rw [same, second] at first
  exact (Option.some.inj first).symm

/-- The negative zero keeps its sign. -/
theorem Run.displayed_reads_back_negativeZero :
    (-0.0 : Float).isFinite ∧ (Value.number (-0.0)).display = "-0" ∧
      ∃ tokens last tree, Scan.ofSource "-0" = ⟨tokens ++ [last], []⟩ ∧ last.isEnd ∧
        (Cursor.start (tokens ++ [last])).perform .assignment =
          (.ok (.expression tree), ⟨tokens ++ [last], tokens.length, []⟩) ∧
        ∀ environment, tree.eval environment = .ok (.number (-0.0)) environment := by
  have finite : (-0.0 : Float).isFinite := by decide
  have shown : (Value.number (-0.0)).display = "-0" := by decide
  obtain ⟨-, -, -, -, -, comes, -, -⟩ := Run.displayed_reads_back (-0.0) finite
  rw [shown] at comes
  exact ⟨finite, shown, comes⟩

end Lox
