import Mathlib.Data.List.Forall2
import Lox.Proofs.Lines.Execution
import Lox.Proofs.Lines.Grammar
import Lox.Proofs.Run.Diagnostics

/-!
The layout of a text. Two texts with the same tokens, each on lines of its own, do the same when
they are run, and what they report is the same but for the numbers of the lines:
`Run.ofSource_layout`. Each of the two is compared with the text that has all tokens on one line.
-/

set_option autoImplicit false

namespace Lox

/-- Two tokens that are the same, on lines of their own. -/
structure Token.Alike (first second : Token) : Prop where
  kind : first.kind = second.kind
  lexeme : first.lexeme = second.lexeme
  literal : first.literal = second.literal

/-- Two diagnostics of one class that say the same of tokens that are alike. -/
inductive Diagnostic.Alike : Diagnostic → Diagnostic → Prop where
  | scan (line other : Int) (message : String) :
      Alike (.scan line message) (.scan other message)
  | parse {token other : Token} (alike : token.Alike other) (message : String) :
      Alike (.parse token message) (.parse other message)
  | runtime {token other : Token} (alike : token.Alike other) (message : String) :
      Alike (.runtime token message) (.runtime other message)
  | undefinedVariable {name other : Token} (alike : name.Alike other) :
      Alike (.undefinedVariable name) (.undefinedVariable other)

/-- Two reports that are the same text around the marks of two lines. -/
def Diagnostic.SameButForLine (first second : Diagnostic) : Prop :=
  ∃ before after, first.report = before ++ lineMark first.line ++ after ∧
    second.report = before ++ lineMark second.line ++ after

namespace Diagnostic.Alike

variable {first second : Diagnostic}

theorem isRuntime_eq (alike : first.Alike second) : first.isRuntime = second.isRuntime := by
  cases alike <;> rfl

theorem message_eq (alike : first.Alike second) : first.message = second.message := by
  cases alike with
  | scan line other message => rfl
  | parse alike message => rfl
  | runtime alike message => rfl
  | @undefinedVariable name other alike =>
      show "Undefined variable '" ++ name.lexeme ++ "'." =
        "Undefined variable '" ++ other.lexeme ++ "'."
      rw [alike.lexeme]

theorem place_eq {token other : Token} (alike : token.Alike other) : place token = place other := by
  rw [place, place, Token.isEnd, Token.isEnd, alike.kind, alike.lexeme]

theorem sameButForLine (alike : first.Alike second) : first.SameButForLine second := by
  cases alike with
  | scan line other message =>
      refine ⟨"", " Error: " ++ message, ?_, ?_⟩
      · rw [String.empty_append, ← String.append_assoc]
        rfl
      · rw [String.empty_append, ← String.append_assoc]
        rfl
  | @parse token other alike message =>
      refine ⟨"", " Error" ++ place token ++ ": " ++ message, ?_, ?_⟩
      · simp only [report, line, String.empty_append, String.append_assoc]
      · simp only [report, line, String.empty_append, String.append_assoc, place_eq alike]
  | @runtime token other alike message =>
      refine ⟨message ++ "\n", "", ?_, ?_⟩
      · rw [String.append_empty]
        rfl
      · rw [String.append_empty]
        rfl
  | @undefinedVariable name other alike =>
      refine ⟨(Diagnostic.undefinedVariable name).message ++ "\n", "", ?_, ?_⟩
      · rw [String.append_empty]
        rfl
      · rw [String.append_empty, message_eq (.undefinedVariable alike)]
        rfl

end Diagnostic.Alike

/-- The one line that all is put on. -/
def noLine (_ : Int) : Int := 0

theorem forall₂_iff_map_eq {α β : Type} {place : α → β} {first second : List α} :
    List.Forall₂ (fun one other => place one = place other) first second ↔
      first.map place = second.map place := by
  rw [← List.forall₂_eq_eq_eq, List.forall₂_map_left_iff, List.forall₂_map_right_iff]

theorem Token.alike_iff (first second : Token) :
    first.Alike second ↔ first.moved noLine = second.moved noLine := by
  constructor
  · rintro ⟨kind, lexeme, literal⟩
    rw [moved, moved, kind, lexeme, literal, noLine, noLine]
  · intro same
    injection same with kind lexeme literal
    exact ⟨kind, lexeme, literal⟩

theorem Token.map_noLine {first second : List Token}
    (alike : List.Forall₂ Token.Alike first second) :
    first.map (Token.moved noLine) = second.map (Token.moved noLine) :=
  forall₂_iff_map_eq.1 (alike.imp fun one other => (Token.alike_iff one other).1)

theorem SyntaxError.alike_of_noLine {first second : SyntaxError}
    (same : first.moved noLine = second.moved noLine) :
    first.diagnostic.Alike second.diagnostic := by
  obtain ⟨cause, token, remaining⟩ := first
  obtain ⟨otherCause, other, otherRemaining⟩ := second
  injection same with sameCause sameToken sameRemaining
  subst sameCause
  exact .parse ((Token.alike_iff token other).2 sameToken) cause.message

theorem RuntimeError.alike_of_noLine {first second : RuntimeError}
    (same : first.moved noLine = second.moved noLine) :
    first.diagnostic.Alike second.diagnostic := by
  cases first with
  | operation operator cause =>
      cases second with
      | operation other otherCause =>
          injection same with sameOperator sameCause
          subst sameCause
          have alike := (Token.alike_iff operator other).2 sameOperator
          have message : cause.message operator = cause.message other := by
            unfold Cause.message
            rw [alike.lexeme]
          rw [diagnostic, diagnostic, message]
          exact .runtime alike _
      | undefinedVariable name => cases same
  | undefinedVariable name =>
      cases second with
      | operation other otherCause => cases same
      | undefinedVariable other =>
          injection same with sameName
          exact .undefinedVariable ((Token.alike_iff name other).2 sameName)

theorem Stop.alike_of_noLine {first second : Stop}
    (same : first.moved noLine = second.moved noLine) :
    List.Forall₂ Diagnostic.Alike first.diagnostic?.toList second.diagnostic?.toList := by
  cases first with
  | failed error =>
      cases second with
      | failed other =>
          injection same with sameError
          exact .cons (RuntimeError.alike_of_noLine sameError) .nil
      | notExpression found => cases same
      | notStatement found => cases same
  | notExpression found =>
      cases second with
      | failed other => cases same
      | notExpression other => exact .nil
      | notStatement other => exact .nil
  | notStatement found =>
      cases second with
      | failed other => cases same
      | notExpression other => exact .nil
      | notStatement other => exact .nil

theorem Execution.diagnostics_alike {first second : Execution}
    (same : first.moved noLine = second.moved noLine) :
    List.Forall₂ Diagnostic.Alike first.diagnostics second.diagnostics := by
  obtain ⟨printed, environment, stop⟩ := first
  obtain ⟨otherPrinted, otherEnvironment, otherStop⟩ := second
  injection same with samePrinted sameEnvironment sameStop
  rw [diagnostics, diagnostics]
  cases stop with
  | none =>
      cases otherStop with
      | none => exact .nil
      | some other => cases sameStop
  | some stop =>
      cases otherStop with
      | none => cases sameStop
      | some other =>
          injection sameStop with same
          exact Stop.alike_of_noLine same

namespace Reading

variable {first second : String} {one other : Reading} (read : ofSource first = .ok one)
  (readOther : ofSource second = .ok other)
  (alike : List.Forall₂ Token.Alike one.tokens other.tokens)

include read readOther alike

/-- Tokens that are alike are read as statements and errors that are. -/
theorem moved_of_alike :
    one.statements.map (Stmt.moved noLine) = other.statements.map (Stmt.moved noLine) ∧
      one.syntaxErrors.map (SyntaxError.moved noLine) =
        other.syntaxErrors.map (SyntaxError.moved noLine) := by
  obtain ⟨body, last, -, tokens, -, -, parsed⟩ := parts_of_ofSource read
  obtain ⟨bodyOther, lastOther, -, tokensOther, -, -, parsedOther⟩ := parts_of_ofSource readOther
  have moved := Grammar.program_moved noLine one.tokens
  rw [Token.map_noLine alike, Grammar.program_moved, tokensOther, parsedOther, tokens, parsed]
    at moved
  injection moved with outcome errors
  injection outcome with statements
  exact ⟨statements.symm, errors.symm⟩

theorem diagnostics_alike (scanned : one.scanErrors = []) (scannedOther : other.scanErrors = []) :
    List.Forall₂ Diagnostic.Alike one.diagnostics other.diagnostics := by
  have errors := (moved_of_alike read readOther alike).2
  rw [diagnostics, diagnostics, scanned, scannedOther, List.map_nil, List.nil_append,
    List.nil_append, List.forall₂_map_left_iff, List.forall₂_map_right_iff]
  exact (forall₂_iff_map_eq.2 errors).imp fun _ _ => SyntaxError.alike_of_noLine

end Reading

theorem Reporter.exitCode_of_alike (reporter : Reporter) (color : Bool)
    {first second : List Diagnostic} (alike : List.Forall₂ Diagnostic.Alike first second) :
    (reporter.report color first).1.exitCode = (reporter.report color second).1.exitCode := by
  have classes : first.map (·.isRuntime) = second.map (·.isRuntime) :=
    forall₂_iff_map_eq.1 (alike.imp fun _ _ => Diagnostic.Alike.isRuntime_eq)
  have ofText : first.any (!·.isRuntime) = second.any (!·.isRuntime) := by
    simpa only [List.any_map, Function.comp_def] using congrArg (List.any · (!·)) classes
  have ofRun : first.any (·.isRuntime) = second.any (·.isRuntime) := by
    simpa only [List.any_map, Function.comp_def] using congrArg (List.any · (·)) classes
  rw [exitCode, exitCode, report_hadError, report_hadError, report_hadRuntimeError,
    report_hadRuntimeError, ofText, ofRun]

namespace Run

variable {first second : String} {one other : Reading} (read : Reading.ofSource first = .ok one)
  (readOther : Reading.ofSource second = .ok other) (scanned : one.scanErrors = [])
  (scannedOther : other.scanErrors = [])
  (alike : List.Forall₂ Token.Alike one.tokens other.tokens) (environment : Environment)

include read readOther scanned scannedOther alike

/-- The two executions are the same but for the line of the error that stops them. -/
theorem execution_alike :
    (execution first environment).moved noLine = (execution second environment).moved noLine := by
  have told := Reading.diagnostics_alike read readOther alike scanned scannedOther
  by_cases clean : one.diagnostics = []
  · have cleanOther : other.diagnostics = [] := by
      rw [clean] at told
      exact List.forall₂_nil_left_iff.1 told
    rw [execution_of_clean read environment clean,
      execution_of_clean readOther environment cleanOther, ← Stmt.execAll_moved,
      ← Stmt.execAll_moved, (Reading.moved_of_alike read readOther alike).1]
  · have wrongOther : other.diagnostics ≠ [] := by
      intro cleanOther
      rw [cleanOther] at told
      exact clean (List.forall₂_nil_right_iff.1 told)
    rw [execution_of_wrong read environment clean,
      execution_of_wrong readOther environment wrongOther]

theorem diagnostics_alike :
    List.Forall₂ Diagnostic.Alike (diagnostics first environment)
      (diagnostics second environment) := by
  have executions := execution_alike read readOther scanned scannedOther alike environment
  rw [diagnostics_of_read read, diagnostics_of_read readOther]
  exact List.rel_append (Reading.diagnostics_alike read readOther alike scanned scannedOther)
    (Execution.diagnostics_alike executions)

end Run

/-- Two texts without lexical errors that have the same tokens, each on lines of its own, print the
same, leave the same variables and end with the same exit code. What they report is alike, one
diagnostic for one, and each pair of reports is the same text around the marks of their lines. -/
theorem Run.ofSource_layout {first second : String} (scanned : (Scan.ofSource first).errors = [])
    (scannedOther : (Scan.ofSource second).errors = [])
    (alike : List.Forall₂ Token.Alike (Scan.ofSource first).tokens (Scan.ofSource second).tokens)
    (color : Bool) (environment : Environment) (reporter : Reporter) :
    ∃ one other, ofSource ⟨false, color⟩ first environment reporter = .ok one ∧
      ofSource ⟨false, color⟩ second environment reporter = .ok other ∧
        one.output = other.output ∧ one.environment = other.environment ∧
          one.reporter.exitCode = other.reporter.exitCode ∧
            (one.reporter, one.errorOutput) =
              reporter.report color (diagnostics first environment) ∧
            (other.reporter, other.errorOutput) =
              reporter.report color (diagnostics second environment) ∧
            List.Forall₂ (fun told also => told.Alike also ∧ told.message = also.message ∧
                told.SameButForLine also)
              (diagnostics first environment) (diagnostics second environment) := by
  obtain ⟨one, body, last, read, scan, tokens, -⟩ := Reading.exists_ofSource first
  obtain ⟨other, bodyOther, lastOther, readOther, scanOther, tokensOther, -⟩ :=
    Reading.exists_ofSource second
  rw [scan, scanOther, ← tokens, ← tokensOther] at alike
  rw [scan] at scanned
  rw [scanOther] at scannedOther
  have executions := execution_alike read readOther scanned scannedOther alike environment
  have told := diagnostics_alike read readOther scanned scannedOther alike environment
  have noDump : (⟨false, color⟩ : Settings).dump = false := rfl
  refine ⟨_, _, ofSource_eq_telling noDump first environment reporter,
    ofSource_eq_telling noDump second environment reporter, ?_, ?_, ?_,
    telling_reported _ reporter _ _ _, telling_reported _ reporter _ _ _, ?_⟩
  · exact congrArg (fun execution => String.join (execution.printed.map (· ++ "\n"))) executions
  · exact congrArg (fun execution => execution.environment) executions
  · exact reporter.exitCode_of_alike color told
  · exact told.imp fun _ _ both => ⟨both, both.message_eq, both.sameButForLine⟩

/-- `print -nil;` on two lines, cut after `print` or before the semicolon: the minus that is blamed
is on line 2 in the first text and on line 1 in the second. -/
theorem Run.ofSource_layout_cut :
    let first := "print // nothing\n-nil;"
    let second := "print -nil\n;"
    (Scan.ofSource first).errors = [] ∧ (Scan.ofSource second).errors = [] ∧
      List.Forall₂ Token.Alike (Scan.ofSource first).tokens (Scan.ofSource second).tokens ∧
        (Scan.ofSource first).tokens.map (·.line) = [1, 2, 2, 2, 2] ∧
        (Scan.ofSource second).tokens.map (·.line) = [1, 1, 1, 2, 2] ∧
          ∃ one other, ofSource ⟨false, true⟩ first .empty (.new true) = .ok one ∧
            ofSource ⟨false, true⟩ second .empty (.new true) = .ok other ∧
              one.output = other.output ∧ one.environment = other.environment ∧
                one.reporter.exitCode = other.reporter.exitCode ∧
                  (one.reporter, one.errorOutput) =
                    Reporter.report (.new true) true (diagnostics first .empty) ∧
                  (other.reporter, other.errorOutput) =
                    Reporter.report (.new true) true (diagnostics second .empty) ∧
                  List.Forall₂ (fun told also => told.Alike also ∧ told.message = also.message ∧
                      told.SameButForLine also)
                    (diagnostics first .empty) (diagnostics second .empty) := by
  intro first second
  have scan : Scan.ofSource first = ⟨[⟨.printWord, "print", .nil, 1⟩, ⟨.minus, "-", .nil, 2⟩,
      ⟨.nilWord, "nil", .nil, 2⟩, ⟨.semicolon, ";", .nil, 2⟩, ⟨.endOfInput, "", .nil, 2⟩], []⟩ := by
    decide +kernel
  have scanOther : Scan.ofSource second = ⟨[⟨.printWord, "print", .nil, 1⟩,
      ⟨.minus, "-", .nil, 1⟩, ⟨.nilWord, "nil", .nil, 1⟩, ⟨.semicolon, ";", .nil, 2⟩,
      ⟨.endOfInput, "", .nil, 2⟩], []⟩ := by
    decide +kernel
  have scanned : (Scan.ofSource first).errors = [] := by rw [scan]
  have scannedOther : (Scan.ofSource second).errors = [] := by rw [scanOther]
  have alike : List.Forall₂ Token.Alike (Scan.ofSource first).tokens
      (Scan.ofSource second).tokens := by
    rw [scan, scanOther]
    exact .cons ⟨rfl, rfl, rfl⟩ (.cons ⟨rfl, rfl, rfl⟩ (.cons ⟨rfl, rfl, rfl⟩
      (.cons ⟨rfl, rfl, rfl⟩ (.cons ⟨rfl, rfl, rfl⟩ .nil))))
  refine ⟨scanned, scannedOther, alike, by rw [scan]; rfl, by rw [scanOther]; rfl, ?_⟩
  exact ofSource_layout scanned scannedOther alike true .empty (.new true)

end Lox
