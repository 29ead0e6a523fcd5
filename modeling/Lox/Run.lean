import Lox.Cursor
import Lox.Execution
import Lox.Reporter
import Lox.Scan
import Lox.Settings
import Lox.Tree.PrefixForm

/-!
A run of a source text: it is scanned and parsed, what is wrong with it is reported, and only if
nothing is, the program is executed. A run is a value: the texts it writes, the environment and
the reporter it leaves.
-/

set_option autoImplicit false

namespace Lox

/-- What would keep a run from coming to an end. No source text leads to any of these. -/
inductive Fault where
  /-- A symbol has the name of no kind of token. -/
  | unknownKind (unknown : UnknownKind)
  /-- The tokens have no end. -/
  | overrun
  /-- The tree has a gap. -/
  | gap
  /-- The tree is no program. -/
  | stopped (stop : Stop)

def Fault.message : Fault → String
  | .unknownKind unknown => unknown.message
  | .overrun => "The tokens have no end."
  | .gap => "The tree has a gap."
  | .stopped stop => stop.message

/-- A source text, read: its tokens, its statements without those that have a syntax error, and
all that is wrong with it. -/
structure Reading where
  tokens : List Token
  statements : List Stmt
  scanErrors : List ScanError
  syntaxErrors : List SyntaxError

namespace Reading

def ofSource (source : String) : Except Fault Reading := do
  let scan ← (Scan.tokenize source).mapError .unknownKind
  match (Cursor.start scan.tokens).apply Grammar.program with
  | (.ok statements, cursor) => .ok ⟨scan.tokens, statements, scan.errors, cursor.errors⟩
  | (.error _, _) => .error .overrun

/-- The diagnostics of a source text: lexical errors come first. -/
def diagnostics (reading : Reading) : List Diagnostic :=
  reading.scanErrors.map (·.diagnostic) ++ reading.syntaxErrors.map (·.diagnostic)

/-- The tokens, and the prefix form of the program. -/
def dump (reading : Reading) : Except Fault String :=
  match Node.programForm? (Stmt.toNodes reading.statements) with
  | some program =>
    let tokens := String.join (reading.tokens.map fun token => token.dump ++ "\n")
    .ok ("\nTokens:\n\n" ++ tokens ++ "\nAST:\n\n" ++ program ++ "\n \n")
  | none => .error .gap

/-- What is written out before anything that a run does. -/
def preamble (settings : Settings) (reading : Reading) : Except Fault String :=
  if settings.dump then reading.dump else .ok ""

end Reading

namespace Execution

/-- The error that a program stopped with, if it did. -/
def failure? (execution : Execution) : Except Fault (Option RuntimeError) :=
  match execution.stop with
  | none => .ok none
  | some (.failed error) => .ok (some error)
  | some stop => .error (.stopped stop)

/-- The printed texts, each on a line of its own. -/
def output (execution : Execution) : String :=
  .join (execution.printed.map (· ++ "\n"))

end Execution

/-- What comes of a run. -/
structure Run where
  output : String
  errorOutput : String
  environment : Environment
  reporter : Reporter

namespace Run

/-- Runs statements and reports the error that stops them, if one does. -/
def ofStatements (settings : Settings) (statements : List Stmt) (environment : Environment)
    (reporter : Reporter) : Except Fault Run := do
  let execution := Stmt.execAll environment statements
  let failure ← execution.failure?
  let (reporter, errorOutput) :=
    reporter.report settings.color (failure.toList.map (·.diagnostic))
  return ⟨execution.output, errorOutput, execution.environment, reporter⟩

/-- Runs a source text. -/
def ofSource (settings : Settings) (source : String) (environment : Environment)
    (reporter : Reporter) : Except Fault Run := do
  let reading ← Reading.ofSource source
  let dump ← reading.preamble settings
  if reading.diagnostics.isEmpty then
    let run ← ofStatements settings reading.statements environment reporter
    return { run with output := dump ++ run.output }
  else
    let (reporter, errorOutput) := reporter.report settings.color reading.diagnostics
    return ⟨dump, errorOutput, environment, reporter⟩

end Run

end Lox
