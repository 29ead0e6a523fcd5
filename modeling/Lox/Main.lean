import Lox.Invocation

/-!
The program: it reads files, environment variables and typed lines, and writes what an invocation
comes to. All that is decided is decided elsewhere.
-/

set_option autoImplicit false

namespace Lox.Terminal

/-- The settings that the surroundings of the program give. -/
def readSettings : IO Settings := do
  let dump ← IO.getEnv "LOXDEBUG"
  let noColor ← IO.getEnv "NO_COLOR"
  let colorsDisabled ← IO.getEnv "ANSI_COLORS_DISABLED"
  let terminal ← (← IO.getStderr).isTty
  let lookUp (name : String) : Option String :=
    if name = "LOXDEBUG" then dump
    else if name = "NO_COLOR" then noColor
    else if name = "ANSI_COLORS_DISABLED" then colorsDisabled
    else none
  return .ofVariables lookUp terminal

/-- The number of a system error. Some numbers come with their sign turned. -/
def errorNumber (code : UInt32) : Nat :=
  min code.toNat (-code).toNat

/-- Why a path cannot be read, as the system tells it. -/
def readErrorOf : IO.Error → ReadError
  | .noFileOrDirectory _ _ _ => .notFound
  | .inappropriateType _ code text =>
    match errorNumber code with
    | 20 => .notFolder
    | 21 => .isFolder
    | number => .other "OSError" number text
  | .permissionDenied _ code _ => .other "PermissionError" (errorNumber code) "Permission denied"
  | .invalidArgument _ code text =>
    match errorNumber code with
    | 36 => .tooLong
    | number => .other "OSError" number text
  | error => .other "OSError" 5 (toString error)

/-- What reading the file at a path comes to. -/
def readOctets (path : String) : IO (Except ReadError (List UInt8)) := do
  match ← (IO.FS.readBinFile path).toBaseIO with
  | .ok octets => return .ok octets.toList
  | .error error => return .error (readErrorOf error)

/-- Writes to standard output and to standard error. -/
def write (output errorOutput : String) : IO Unit := do
  let stdout ← IO.getStdout
  stdout.putStr output
  stdout.flush
  let stderr ← IO.getStderr
  stderr.putStr errorOutput
  stderr.flush

/-- Writes what an invocation comes to, and ends with its exit code. -/
def finish : Except Fault Invocation → IO UInt32
  | .error fault => do
    write "" (fault.message ++ "\n")
    return 1
  | .ok invocation => do
    write invocation.output invocation.errorOutput
    match invocation.exit with
    | .code code => return code.toUInt32
    | .undecodable error =>
      write "" (error.message ++ "\n")
      return 1
    | .badPath =>
      write "" "embedded null byte\n"
      return 1

/-- Reads lines and runs them one by one. `typed` holds lines that are read but have not run. -/
partial def converse (settings : Settings) (prompt : Prompt) (typed : List String) :
    IO UInt32 := do
  match typed with
  | [] =>
    let text ← (← IO.getStdin).getLine
    if text.isEmpty then
      write Prompt.Ending.endOfInput.text ""
      return 0
    else converse settings prompt (Text.lines (Text.unifyLineEnds text))
  | line :: rest =>
    match prompt.runLine settings line with
    | .error fault => finish (.error fault)
    | .ok run =>
      write run.output run.errorOutput
      write Prompt.mark ""
      converse settings (.after run) rest

/-- Invokes the program with arguments. -/
def invoke (arguments : List String) : IO UInt32 := do
  let settings ← readSettings
  match Command.ofArguments arguments with
  | .help => finish (.ok .help)
  | .misuse cause => finish (.ok (.ofMisuse cause))
  | .script path => finish (Invocation.ofContent settings path (← readOctets path))
  | .prompt =>
    write (Prompt.banner ++ Prompt.mark) ""
    converse settings .start []

end Lox.Terminal

def main (arguments : List String) : IO UInt32 :=
  Lox.Terminal.invoke arguments
