import Lox.Proofs.Execution.Safety
import Lox.Proofs.Grammar.Exactness
import Lox.Proofs.Grammar.ProperTree
import Lox.Proofs.Scan.Ending

/-!
Reading a source text. Every text has a reading, with proper statements whatever is wrong with the
text, and proper statements run to an end that can be reported.
-/

set_option autoImplicit false

namespace Lox

namespace Reading

/-- What a text is read as, from what its tokens are read as. -/
theorem ofSource_of_program {source : String} {tokens : List Token} {errors : List ScanError}
    (scanned : Scan.ofSource source = ⟨tokens, errors⟩) {statements : List Stmt}
    {syntaxErrors : List SyntaxError} {rest : List Token}
    (parsed : (Grammar.program tokens).val = ⟨.ok statements, syntaxErrors, rest⟩) :
    ofSource source = .ok ⟨tokens, statements, errors, syntaxErrors⟩ := by
  rw [ofSource, Scan.tokenize_eq, scanned]
  dsimp only [Except.mapError, bind, Except.bind]
  rw [Cursor.apply_start, parsed]

/-- The parts of the reading of a source text. -/
theorem exists_ofSource (source : String) :
    ∃ reading body last, ofSource source = .ok reading ∧
      Scan.ofSource source = ⟨body ++ [last], reading.scanErrors⟩ ∧
        reading.tokens = body ++ [last] ∧ last.isEnd ∧ (∀ token ∈ body, ¬token.isEnd) ∧
          (Grammar.program (body ++ [last])).val =
            ⟨.ok reading.statements, reading.syntaxErrors, [last]⟩ := by
  obtain ⟨body, last, tokens, ended, inside⟩ := Scan.ofSource_ends source
  obtain ⟨statements, errors, parsed⟩ := Grammar.program_reaches_end body inside ended
  have found : ofSource source =
      .ok ⟨(Scan.ofSource source).tokens, statements, (Scan.ofSource source).errors, errors⟩ :=
    ofSource_of_program rfl (tokens ▸ parsed)
  exact ⟨_, body, last, found, by rw [← tokens], tokens, ended, inside, parsed⟩

/-- The parts of a reading that is given. -/
theorem parts_of_ofSource {source : String} {reading : Reading}
    (read : ofSource source = .ok reading) :
    ∃ body last, Scan.ofSource source = ⟨body ++ [last], reading.scanErrors⟩ ∧
      reading.tokens = body ++ [last] ∧ last.isEnd ∧ (∀ token ∈ body, ¬token.isEnd) ∧
        (Grammar.program (body ++ [last])).val =
          ⟨.ok reading.statements, reading.syntaxErrors, [last]⟩ := by
  obtain ⟨found, body, last, same, parts⟩ := exists_ofSource source
  have unique : found = reading := Except.ok.inj (same.symm.trans read)
  rw [unique] at parts
  exact ⟨body, last, parts⟩

theorem statements_proper {source : String} {reading : Reading}
    (read : ofSource source = .ok reading) :
    ∀ statement ∈ reading.statements, statement.Proper := by
  obtain ⟨body, last, -, -, -, -, parsed⟩ := parts_of_ofSource read
  exact Grammar.program_proper (congrArg Grammar.Reply.outcome parsed)

/-- The statements of a text are those that the parser makes of its tokens. -/
theorem parse_eq {source : String} {reading : Reading} (read : ofSource source = .ok reading) :
    ((Cursor.start (Scan.ofSource source).tokens).apply Grammar.program).1 =
      .ok reading.statements := by
  obtain ⟨body, last, scan, -, -, -, parsed⟩ := parts_of_ofSource read
  rw [Cursor.apply_start, scan, parsed]

/-- What is wrong with a text, found in its scan and then by the parser. -/
theorem diagnostics_eq {source : String} {reading : Reading}
    (read : ofSource source = .ok reading) :
    let scan := Scan.ofSource source
    let parse := (Cursor.start scan.tokens).apply Grammar.program
    reading.diagnostics = scan.errors.map (·.diagnostic) ++ parse.2.errors.map (·.diagnostic) := by
  obtain ⟨body, last, scan, -, -, -, parsed⟩ := parts_of_ofSource read
  dsimp only
  rw [Cursor.apply_start, scan, parsed]
  rfl

theorem errors_eq_nil {reading : Reading} (clean : reading.diagnostics = []) :
    reading.scanErrors = [] ∧ reading.syntaxErrors = [] := by
  rw [diagnostics, List.append_eq_nil_iff, List.map_eq_nil_iff, List.map_eq_nil_iff] at clean
  exact clean

theorem preamble_of_noDump {settings : Settings} (noDump : settings.dump = false)
    (reading : Reading) : reading.preamble settings = .ok "" := by
  rw [preamble, noDump]
  rfl

/-- A text without errors is a derivation and an end of input. -/
theorem exists_derivation {source : String} {reading : Reading}
    (read : ofSource source = .ok reading) (clean : reading.diagnostics = []) :
    ∃ (derivation : Grammar.Derivation .declarations) (last : Token),
      Scan.ofSource source = ⟨derivation.tokens ++ [last], []⟩ ∧
        reading.tokens = derivation.tokens ++ [last] ∧ reading.statements = derivation.tree := by
  obtain ⟨body, last, scan, tokens, ended, inside, parsed⟩ := parts_of_ofSource read
  obtain ⟨noScanErrors, noSyntaxErrors⟩ := errors_eq_nil clean
  rw [noScanErrors] at scan
  rw [noSyntaxErrors] at parsed
  obtain ⟨derivation, rfl⟩ :=
    Grammar.exists_derivation_of_program inside ended (by rw [parsed])
  refine ⟨derivation, last, scan, tokens, ?_⟩
  rw [Grammar.program_of_derivation derivation ended] at parsed
  injection parsed with outcome
  injection outcome with tree
  exact tree.symm

end Reading

end Lox
