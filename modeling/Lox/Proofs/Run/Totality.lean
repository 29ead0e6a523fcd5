import Lox.Proofs.Run.Outcome
import Lox.Proofs.Tree.PrefixForm

/-!
Every run comes to an end that it can report: `ofSource_total`. No source text, no variables and no
settings lead to a fault: every symbol has a kind of token, there are always tokens to read, what is
read of them has no gap, and what is executed stops for ordinary reasons only.
-/

set_option autoImplicit false

namespace Lox

/-- An ordinary error does not call an operator unknown. -/
theorem RuntimeError.IsOrdinary.message {error : RuntimeError} (ordinary : error.IsOrdinary) :
    ¬"Unknown".toList <+: error.diagnostic.message.toList := by
  cases error with
  | operation operator cause =>
      cases cause with
      | operandNotNumber =>
          show ¬"Unknown".toList <+: "Operand must be a number".toList
          decide +kernel
      | operandsNotNumbers =>
          show ¬"Unknown".toList <+: "Operands must be numbers.".toList
          decide +kernel
      | operandsNotAddable =>
          show ¬"Unknown".toList <+: "Operands must be two numbers or two strings".toList
          decide +kernel
      | unknownUnary => exact absurd rfl ordinary.1
      | unknownBinary => exact absurd rfl ordinary.2
  | undefinedVariable name =>
      intro begins
      have spelled : (undefinedVariable name).diagnostic.message.toList =
          "Undefined variable '".toList ++ (name.lexeme.toList ++ "'.".toList) := by
        change ("Undefined variable '" ++ name.lexeme ++ "'.").toList = _
        rw [String.toList_append, String.toList_append, List.append_assoc]
      rw [spelled] at begins
      have inside : "Unknown".toList <+: "Undefined variable '".toList :=
        List.prefix_of_prefix_length_le begins (List.prefix_append _ _) (by decide +kernel)
      revert inside
      decide +kernel

/-- Numbers are divided by any number. -/
theorem Operation.binary_slash {operator : Token} (slash : operator.kind = .slash)
    (left right : Float) :
    binary operator (.number left) (.number right) = .ok (.number (divide left right)) := by
  simp only [binary, slash, onNumbers]

/-- A quotient by zero is not computed. -/
theorem Operation.divide_zero {right : Float} (zero : right == 0.0) (left : Float) :
    divide left right = Number.nan ∨ divide left right = Number.infinity ∨
      divide left right = -Number.infinity := by
  rw [divide, dif_pos zero]
  split
  · exact Or.inl rfl
  · split
    · exact Or.inr (Or.inl rfl)
    · exact Or.inr (Or.inr rfl)

namespace Reading

theorem exists_dump {source : String} {reading : Reading}
    (read : ofSource source = .ok reading) : ∃ text, reading.dump = .ok text := by
  obtain ⟨text, written⟩ := Stmt.exists_programForm (statements_proper read)
  rw [dump, written]
  exact ⟨_, rfl⟩

theorem exists_preamble (settings : Settings) {source : String} {reading : Reading}
    (read : ofSource source = .ok reading) : ∃ text, reading.preamble settings = .ok text := by
  rw [preamble]
  split
  · exact exists_dump read
  · exact ⟨"", rfl⟩

end Reading

namespace Run

theorem exists_ofSource (settings : Settings) (source : String) (environment : Environment)
    (reporter : Reporter) : ∃ run, ofSource settings source environment reporter = .ok run := by
  obtain ⟨reading, body, last, read, -⟩ := Reading.exists_ofSource source
  obtain ⟨dump, written⟩ := Reading.exists_preamble settings read
  by_cases clean : reading.diagnostics = []
  · obtain ⟨failure, -, -, run⟩ := exists_ofSource_of_clean read written environment clean
    exact ⟨_, run reporter⟩
  · exact ⟨_, ofSource_of_wrong read written environment reporter clean⟩

/-- A run of any text on any variables comes to its end. The names of all symbols in the text are
those of kinds of token, so the text has a scan, the parser stays inside the tokens of it, the
trees that it makes can be written out and executed, and an execution that stops has an error to
report, which is never that an operator is unknown. -/
theorem ofSource_total (settings : Settings) (source : String) (environment : Environment)
    (reporter : Reporter) :
    ∃ scan reading run, Scan.tokenize source = .ok scan ∧ Reading.ofSource source = .ok reading ∧
      ofSource settings source environment reporter = .ok run ∧
        (∃ text, reading.dump = .ok text) ∧
          (∀ segment ∈ Segment.ofText source.toList, ∀ name, segment.kind = .symbol name →
            ∃ kind, Token.Kind.ofName? name = some kind) ∧
            reading.tokens = scan.tokens ∧
            (∃ cursor, (Cursor.start reading.tokens).apply Grammar.program =
              (.ok reading.statements, cursor) ∧ cursor.position < reading.tokens.length) ∧
              (∀ statement ∈ reading.statements, statement.Proper) ∧
                (∀ stop ∈ (Stmt.execAll environment reading.statements).stop,
                  ∃ error, stop = .failed error ∧
                    ¬"Unknown".toList <+: error.diagnostic.message.toList) ∧
                  ∀ slash left right, slash.kind = .slash → ∃ quotient,
                    Operation.binary slash (.number left) (.number right) =
                      .ok (.number quotient) ∧
                      (right == 0.0 → quotient = Number.nan ∨ quotient = Number.infinity ∨
                        quotient = -Number.infinity) := by
  obtain ⟨reading, body, last, read, scanned, tokens, ended, inside, parsed⟩ :=
    Reading.exists_ofSource source
  obtain ⟨run, ran⟩ := exists_ofSource settings source environment reporter
  have proper := Reading.statements_proper read
  refine ⟨Scan.ofSource source, reading, run, Scan.tokenize_eq source, read, ran,
    Reading.exists_dump read, Segment.ofText_isKnown source.toList, ?_, ?_, proper, ?_, ?_⟩
  · rw [tokens, scanned]
  · rw [Cursor.apply_start, tokens, parsed]
    refine ⟨_, rfl, ?_⟩
    simp only [List.length_append, List.length_singleton]
    omega
  · intro stop stopped
    have ordinary := Stmt.execAll_isOrdinary proper environment stop stopped
    cases stop with
    | failed error => exact ⟨error, rfl, RuntimeError.IsOrdinary.message ordinary⟩
    | notExpression found => exact ordinary.elim
    | notStatement found => exact ordinary.elim
  · intro slash left right isSlash
    exact ⟨_, Operation.binary_slash isSlash left right,
      fun zero => Operation.divide_zero zero left⟩

end Run

end Lox
