import Lox.Proofs.Execution.Sequence
import Lox.Proofs.Lines.Execution
import Lox.Proofs.Lines.Grammar
import Lox.Proofs.Run.Outcome
import Lox.Proofs.Scan.Lines

/-!
A text in two parts. Where the first part is without errors and ends what it begins, the two parts
with a newline between them are read as each of them is, the second on later lines, and run as one
after the other: `ofSource_joined`.
-/

set_option autoImplicit false

namespace Lox

namespace Scan

/-- A scan without errors has no string without an end. -/
theorem terminated_of_errors {line : Int} {segments : List Segment} {scan : Scan}
    (scanned : ofSegments line segments = .ok scan) (clean : scan.errors = []) :
    ∀ segment ∈ segments, segment.kind ≠ .unterminated := by
  induction segments generalizing line scan with
  | nil => exact nofun
  | cons segment rest ih =>
      obtain ⟨made, later, -, scannedRest, rfl⟩ := ofSegments_cons_inv scanned
      rw [List.append_eq_nil_iff] at clean
      rw [List.forall_mem_cons]
      refine ⟨?_, ih scannedRest clean.2⟩
      intro unterminated
      have error := clean.1
      rw [Segment.error?, unterminated] at error
      cases error

end Scan

namespace Reading

/-- How far a text moves the lines of what is put on the line after it. -/
def below (text : String) (line : Int) : Int :=
  line + (1 + text.toList.count '\n' : Nat)

/-- Tokens that are derived, and others on other lines after them, are read as both are. -/
theorem program_join (derivation : Grammar.Derivation .declarations) (move : Int → Int)
    {tokens rest : List Token} {statements : List Stmt} {errors : List SyntaxError}
    (parsed : (Grammar.program tokens).val = ⟨.ok statements, errors, rest⟩) :
    (Grammar.program (derivation.tokens ++ tokens.map (Token.moved move))).val =
      ⟨.ok (derivation.tree ++ statements.map (Stmt.moved move)),
        errors.map (SyntaxError.moved move), rest.map (Token.moved move)⟩ := by
  have reads := Grammar.StatementRule.reads_answer .program tokens
  have moved := reads.moved move
  have joined := (derivation.readsAs (tokens.map (Token.moved move))).2 _ moved
  have same : Grammar.StatementRule.answer .program tokens = ⟨.ok statements, errors, rest⟩ :=
    parsed
  rw [same] at joined
  exact joined.answer_eq

/-- The reading of a text in two parts, the first of which is without errors. -/
theorem ofSource_join {first second : String} {before later : Reading}
    (read : ofSource first = .ok before) (clean : before.diagnostics = [])
    (closed : ∀ segment ∈ (Segment.ofText first.toList).getLast?, ¬segment.IsOpenComment)
    (readLater : ofSource second = .ok later) :
    ofSource (first ++ "\n" ++ second) =
      .ok ⟨before.tokens.dropLast ++ later.tokens.map (Token.moved (below first)),
        before.statements ++ later.statements.map (Stmt.moved (below first)),
        later.scanErrors.map (ScanError.moved (below first)),
        later.syntaxErrors.map (SyntaxError.moved (below first))⟩ := by
  obtain ⟨derivation, last, scan, tokens, statements⟩ := exists_derivation read clean
  obtain ⟨more, final, scanLater, tokensLater, -, -, parsedLater⟩ := parts_of_ofSource readLater
  have ends : ∀ segment ∈ (Segment.ofText first.toList).getLast?, ¬segment.IsOpen := by
    rintro segment member (unterminated | isOpen)
    · have errors : (Scan.ofSource first).errors = [] := congrArg Scan.errors scan
      exact Scan.terminated_of_errors (Scan.tokenize_eq first) errors segment
        (List.mem_of_getLast? member) unterminated
    · exact closed segment member isOpen
  have scanned : Scan.ofSource (first ++ "\n" ++ second) =
      ⟨derivation.tokens ++ (more ++ [final]).map (Token.moved (below first)),
        later.scanErrors.map (ScanError.moved (below first))⟩ := by
    rw [Scan.ofSource_newline first second ends, scan, scanLater]
    unfold Scan.andThen Scan.moved
    rw [List.dropLast_concat, List.nil_append]
    rfl
  rw [ofSource_of_program scanned (program_join derivation (below first) parsedLater), tokens,
    tokensLater, statements, List.dropLast_concat]

end Reading

theorem failed_injective {first second : Option RuntimeError}
    (same : first.map Stop.failed = second.map Stop.failed) : first = second := by
  cases first <;> cases second <;> simp_all

namespace Run

variable {first second : String} {before later : Reading} {settings : Settings}

/-- The run of a text in two parts is that of its statements, one part after the other. -/
theorem exists_ofSource_join (read : Reading.ofSource first = .ok before)
    (clean : before.diagnostics = [])
    (closed : ∀ segment ∈ (Segment.ofText first.toList).getLast?, ¬segment.IsOpenComment)
    (readLater : Reading.ofSource second = .ok later) (cleanLater : later.diagnostics = [])
    (noDump : settings.dump = false) (environment : Environment) :
    ∃ failure : Option RuntimeError,
      let execution := (Stmt.execAll environment before.statements).andThen fun reached =>
        (Stmt.execAll reached later.statements).moved (Reading.below first)
      execution.stop = failure.map .failed ∧
        ∀ reporter, ofSource settings (first ++ "\n" ++ second) environment reporter =
          .ok (telling settings reporter (failure.toList.map (·.diagnostic)) execution.output
            execution.environment) := by
  have readJoined := Reading.ofSource_join read clean closed readLater
  obtain ⟨noScanErrors, noSyntaxErrors⟩ := Reading.errors_eq_nil cleanLater
  rw [noScanErrors, noSyntaxErrors] at readJoined
  have written := Reading.preamble_of_noDump noDump
  obtain ⟨failure, stopped, -, run⟩ :=
    exists_ofSource_of_clean readJoined (written _) environment rfl
  rw [Stmt.execAll_append] at stopped run
  simp only [Stmt.execAll_moved] at stopped run
  refine ⟨failure, stopped, ?_⟩
  intro reporter
  rw [run, String.empty_append]

/-- Two texts without errors, run as one: if the first stops, the run is that of the first, and if
it comes to its end, the run goes on with that of the second. An error of the second is on a later
line, by as many lines as there are before it. -/
theorem ofSource_joined (read : Reading.ofSource first = .ok before)
    (clean : before.diagnostics = [])
    (closed : ∀ segment ∈ (Segment.ofText first.toList).getLast?, ¬segment.IsOpenComment)
    (readLater : Reading.ofSource second = .ok later) (cleanLater : later.diagnostics = [])
    (noDump : settings.dump = false) (environment : Environment) (reporter : Reporter) :
    ∃ alone joined, ofSource settings first environment reporter = .ok alone ∧
      ofSource settings (first ++ "\n" ++ second) environment reporter = .ok joined ∧
        ((Stmt.execAll environment before.statements).stop ≠ none → joined = alone) ∧
          ((Stmt.execAll environment before.statements).stop = none →
            alone.reporter = reporter ∧ alone.errorOutput = "" ∧
              ∃ after failure,
                ofSource settings second alone.environment alone.reporter = .ok after ∧
                  (Stmt.execAll alone.environment later.statements).stop =
                    Option.map .failed failure ∧
                  joined.output = alone.output ++ after.output ∧
                  joined.environment = after.environment ∧
                  (after.reporter, after.errorOutput) = reporter.report settings.color
                    (failure.toList.map RuntimeError.diagnostic) ∧
                  (joined.reporter, joined.errorOutput) = reporter.report settings.color
                    (failure.toList.map fun error =>
                      error.diagnostic.moved (Reading.below first))) := by
  have written := Reading.preamble_of_noDump noDump
  obtain ⟨failure, stopped, -, run⟩ :=
    exists_ofSource_of_clean read (written _) environment clean
  obtain ⟨failed, ended, both⟩ :=
    exists_ofSource_join read clean closed readLater cleanLater noDump environment
  refine ⟨_, _, run reporter, both reporter, ?_, ?_⟩
  · intro stops
    obtain ⟨stop, found⟩ := Option.ne_none_iff_exists'.1 stops
    rw [Execution.andThen_of_some found] at ended ⊢
    obtain rfl := failed_injective (ended.symm.trans stopped)
    rw [String.empty_append]
  · intro finished
    rw [finished] at stopped
    obtain rfl : failure = none := (Option.map_eq_none_iff.1 stopped.symm)
    obtain ⟨fault, stops, -, after⟩ := exists_ofSource_of_clean readLater (written _)
      (Stmt.execAll environment before.statements).environment cleanLater
    rw [Execution.andThen_of_none finished] at ended ⊢
    have same : failed = fault.map (RuntimeError.moved (Reading.below first)) := by
      apply failed_injective
      rw [← ended, Option.map_map]
      change Option.map _ (Stmt.execAll _ later.statements).stop = _
      rw [stops, Option.map_map]
      rfl
    refine ⟨rfl, rfl, _, fault, after reporter, stops, ?_, rfl, rfl, ?_⟩
    · rw [String.empty_append, String.empty_append]
      exact Execution.output_precededBy _ _
    · have moved : (failed.toList.map (·.diagnostic)) =
          fault.toList.map fun error => error.diagnostic.moved (Reading.below first) := by
        rw [same]
        cases fault with
        | none => rfl
        | some error => simp
      rw [moved]
      rfl

/-- `print -a;` fails after `var a;` as it does without it, two lines further down. -/
theorem ofSource_joined_negation :
    let settings : Settings := ⟨false, false⟩
    let name : Token := ⟨.identifier, "a", .nil, 1⟩
    let minus : Token := ⟨.minus, "-", .nil, 1⟩
    let semicolon : Token := ⟨.semicolon, ";", .nil, 1⟩
    let before : Reading := ⟨[⟨.varWord, "var", .nil, 1⟩, name, semicolon,
      ⟨.endOfInput, "", .nil, 2⟩], [.declare name none], [], []⟩
    let later : Reading := ⟨[⟨.printWord, "print", .nil, 1⟩, minus, name, semicolon,
      ⟨.endOfInput, "", .nil, 1⟩], [.print (.unary minus (.var name))], [], []⟩
    Reading.ofSource "var a;\n" = .ok before ∧ Reading.ofSource "print -a;" = .ok later ∧
      (∀ segment ∈ (Segment.ofText "var a;\n".toList).getLast?, ¬segment.IsOpenComment) ∧
        (Stmt.execAll .empty before.statements).stop = none ∧
          ∃ alone after joined failure,
            ofSource settings "var a;\n" .empty (.new true) = .ok alone ∧
              ofSource settings "print -a;" alone.environment alone.reporter = .ok after ∧
                ofSource settings ("var a;\n" ++ "\n" ++ "print -a;") .empty (.new true) =
                  .ok joined ∧
                  (Stmt.execAll alone.environment later.statements).stop =
                    Option.map .failed failure ∧
                  joined.output = alone.output ++ after.output ∧
                  joined.environment = after.environment ∧
                  (after.reporter, after.errorOutput) = Reporter.report (.new true) false
                    (failure.toList.map RuntimeError.diagnostic) ∧
                  (joined.reporter, joined.errorOutput) = Reporter.report (.new true) false
                    (failure.toList.map fun error => error.diagnostic.moved (· + 2)) := by
  intro settings name minus semicolon before later
  have read : Reading.ofSource "var a;\n" = .ok before := by
    have scanned : Scan.ofSource "var a;\n" = ⟨before.tokens, []⟩ := by decide +kernel
    exact Reading.ofSource_of_program scanned (by cbv)
  have readLater : Reading.ofSource "print -a;" = .ok later := by
    have scanned : Scan.ofSource "print -a;" = ⟨later.tokens, []⟩ := by decide +kernel
    exact Reading.ofSource_of_program scanned (by cbv)
  have closed : ∀ segment ∈ (Segment.ofText "var a;\n".toList).getLast?,
      ¬segment.IsOpenComment := by decide +kernel
  have finished : (Stmt.execAll .empty before.statements).stop = none := rfl
  obtain ⟨alone, joined, run, both, -, goesOn⟩ :=
    ofSource_joined read rfl closed readLater rfl (show settings.dump = false from rfl) .empty
      (.new true)
  obtain ⟨-, -, after, failure, runLater, stopped, printed, reached, told, toldBelow⟩ :=
    goesOn finished
  exact ⟨read, readLater, closed, finished, alone, after, joined, failure, run, runLater, both,
    stopped, printed, reached, told, toldBelow⟩

end Run

end Lox
