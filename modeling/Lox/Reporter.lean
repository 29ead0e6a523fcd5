import Lox.Diagnostic

/-!
A reporter collects diagnostics: their reports in order, whether there was any error before or
during a run, and the exit code that follows. It may also write each of them out, in which case
the part that names the error can be in color.
-/

set_option autoImplicit false

namespace Lox

/-- The diagnostics collected since the last reset. -/
structure Reporter where
  /-- Whether diagnostics are written out. -/
  echo : Bool
  messages : List String
  /-- An error before a run was reported. -/
  hadError : Bool
  /-- An error of a run was reported. -/
  hadRuntimeError : Bool
  deriving DecidableEq

namespace Reporter

/-- A reporter with nothing collected. -/
def new (echo : Bool) : Reporter :=
  ⟨echo, [], false, false⟩

/-- Forgets all that was collected. -/
def reset (reporter : Reporter) : Reporter :=
  .new reporter.echo

/-- Collects a diagnostic. -/
def collect (reporter : Reporter) (diagnostic : Diagnostic) : Reporter :=
  { reporter with
    messages := reporter.messages ++ [diagnostic.report]
    hadError := reporter.hadError || !diagnostic.isRuntime
    hadRuntimeError := reporter.hadRuntimeError || diagnostic.isRuntime }

/-- The exit code for what was collected. Errors before a run come first. -/
def exitCode (reporter : Reporter) : Nat :=
  if reporter.hadError then 65 else if reporter.hadRuntimeError then 70 else 0

/-- A text in bold red. -/
def emphasized (text : List Char) : List Char :=
  "\x1b[1m\x1b[31m".toList ++ text ++ "\x1b[0m".toList

/-- The parts of a text before and after the first place where a mark is found in it. -/
def splitAtMark? (mark : List Char) : List Char → Option (List Char × List Char)
  | [] => if mark.isEmpty then some ([], []) else none
  | first :: rest =>
    if mark.isPrefixOf (first :: rest) then some ([], (first :: rest).drop mark.length)
    else (splitAtMark? mark rest).map fun (before, after) => (first :: before, after)

/-- The mark that ends the line number and begins the label of an error before a run. -/
def labelMark : List Char :=
  "] Error".toList

/-- A report with its label emphasized in some way: the word `Error` after the line number, or else
the first line. -/
def highlightWith (emphasize : List Char → List Char) (report : List Char) : List Char :=
  match "[line ".toList.isPrefixOf report, splitAtMark? labelMark report with
  | true, some (before, after) =>
    before ++ "] ".toList ++ emphasize "Error".toList ++ after
  | _, _ => emphasize (report.takeWhile (· != '\n')) ++ report.dropWhile (· != '\n')

/-- A report with its label in bold red. -/
def highlight : List Char → List Char :=
  highlightWith emphasized

/-- What is written out for a diagnostic. -/
def written (reporter : Reporter) (color : Bool) (diagnostic : Diagnostic) : String :=
  if reporter.echo then
    let report := diagnostic.report
    (if color then .ofList (highlight report.toList) else report) ++ "\n"
  else ""

/-- Collects diagnostics in order, and gives what is written out for them. -/
def report (reporter : Reporter) (color : Bool) (diagnostics : List Diagnostic) :
    Reporter × String :=
  (diagnostics.foldl collect reporter, .join (diagnostics.map (reporter.written color)))

end Reporter

end Lox
