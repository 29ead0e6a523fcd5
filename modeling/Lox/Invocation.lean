import Lox.CommandLine
import Lox.Files
import Lox.Run
import Lox.Text.Lines
import Lox.Text.Utf8

/-!
What invoking the program comes to: the texts it writes and how it ends. Files are read through a
function, and the lines typed at the prompt are given as a list.
-/

set_option autoImplicit false

namespace Lox

/-- How an invocation ends. -/
inductive Exit where
  | code (code : Nat)
  /-- The script is not in UTF-8. -/
  | undecodable (error : Text.Utf8.Error)
  /-- The path of the script has a character that no path can have. -/
  | badPath

structure Invocation where
  exit : Exit
  output : String
  errorOutput : String

namespace Invocation

def help : Invocation :=
  ⟨.code 0, Command.helpText, ""⟩

/-- Refuses arguments. -/
def ofMisuse (cause : Command.Misuse) : Invocation :=
  ⟨.code 64, "", Command.usage ++ "lox: error: " ++ cause.message ++ "\n"⟩

/-- Runs a script, given what reading its file came to. -/
def ofContent (settings : Settings) (path : String) :
    Except ReadError (List UInt8) → Except Fault Invocation
  | .error error => return ⟨.code 66, "", error.message path ++ "\n"⟩
  | .ok octets =>
    match Text.Utf8.decode octets with
    | .error error => return ⟨.undecodable error, "", ""⟩
    | .ok text => do
      let run ← Run.ofSource settings (Text.unifyLineEnds text) .empty (.new true)
      return ⟨.code run.reporter.exitCode, run.output, run.errorOutput⟩

/-- Runs the script at a path. -/
def ofScript (settings : Settings) (read : String → Except ReadError (List UInt8))
    (path : String) : Except Fault Invocation :=
  if path.toList.contains '\x00' then return ⟨.badPath, "", ""⟩
  else ofContent settings path (read path)

end Invocation

/-- What stays from one line typed at the prompt to the next. -/
structure Prompt where
  environment : Environment
  reporter : Reporter

namespace Prompt

/-- What is written when the prompt starts. -/
def banner : String :=
  "Lox Language Interpreter - REPL\nPress Ctrl-D to leave.\n"

/-- What is written before each line. -/
def mark : String :=
  "> "

/-- How the lines come to an end. -/
inductive Ending where
  | endOfInput
  | interrupt
  deriving DecidableEq

def Ending.text : Ending → String
  | .endOfInput => "\n"
  | .interrupt => "\nInterrupted.\n"

def start : Prompt :=
  ⟨.empty, .new true⟩

/-- Runs one line. -/
def runLine (prompt : Prompt) (settings : Settings) (line : String) : Except Fault Run :=
  Run.ofSource settings line prompt.environment prompt.reporter

/-- What stays of a run: its variables, and its reporter with all forgotten, so that what was wrong
with one line is not held against the next. -/
def after (run : Run) : Prompt :=
  ⟨run.environment, run.reporter.reset⟩

/-- Runs lines one after the other, with what stays of them all. -/
def runLines (prompt : Prompt) (settings : Settings) :
    List String → Except Fault (List Run × Prompt)
  | [] => return ([], prompt)
  | line :: rest => do
    let run ← prompt.runLine settings line
    let (runs, left) ← (after run).runLines settings rest
    return (run :: runs, left)

/-- What the runs of lines come to together. -/
def invocation (ending : Ending) (runs : List Run) : Invocation where
  exit := .code 0
  output := banner ++ .join (runs.map (mark ++ ·.output)) ++ mark ++ ending.text
  errorOutput := .join (runs.map (·.errorOutput))

/-- Runs the lines typed at the prompt. -/
def run (settings : Settings) (ending : Ending) (lines : List String) :
    Except Fault Invocation := do
  let (runs, _) ← start.runLines settings lines
  return invocation ending runs

end Prompt

namespace Invocation

/-- Invokes the program with arguments, and a text to read lines from. -/
def ofArguments (settings : Settings) (read : String → Except ReadError (List UInt8))
    (typed : String) (ending : Prompt.Ending) (arguments : List String) :
    Except Fault Invocation :=
  match Command.ofArguments arguments with
  | .help => return .help
  | .misuse cause => return .ofMisuse cause
  | .script path => ofScript settings read path
  | .prompt => Prompt.run settings ending (Text.lines (Text.unifyLineEnds typed))

end Invocation

end Lox
