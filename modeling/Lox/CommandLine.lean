import Lox.Text.Digit
import Lox.Text.Quoted

/-!
The command line: one optional script, and an option that asks for help, which may be shortened
and repeated. What is left over is an error. After `--` every argument is a path.
-/

set_option autoImplicit false

namespace Lox

/-- Why arguments make no sense. -/
inductive Command.Misuse where
  /-- Arguments that nothing is done with. -/
  | leftOver (arguments : List String)
  /-- The help option takes nothing, and something is attached to it. -/
  | attached (text : String)
  deriving DecidableEq

/-- What the arguments ask for. -/
inductive Command where
  | help
  /-- Lines are read and run one by one. -/
  | prompt
  | script (path : String)
  | misuse (cause : Command.Misuse)
  deriving DecidableEq

namespace Command

def usage : String :=
  "usage: lox [-h] [script]\n"

def Misuse.message : Misuse → String
  | .leftOver arguments => "unrecognized arguments: " ++ " ".intercalate arguments
  | .attached text => "argument -h/--help: ignored explicit argument " ++ Text.quoted text

def helpText : String :=
  usage ++ "\nRun a Lox script, or start an interactive prompt when no script is given.\n"
    ++ "\npositional arguments:\n"
    ++ "  script      Path to a Lox source file to execute.\n"
    ++ "\noptions:\n"
    ++ "  -h, --help  show this help message and exit\n"

/-- What an argument is, when it does not come after `--`. -/
inductive Argument where
  | path
  | help
  /-- The help option with something attached that does not belong to it. -/
  | helpWith (attached : String)
  | unknown
  deriving DecidableEq

/-- Whether an argument looks like a negative number: a minus sign, then digits of any script, or
a point with digits after it and maybe before it. One newline may follow. -/
def isNegativeNumber (argument : List Char) : Bool :=
  let line := if argument.getLast? = some '\n' then argument.dropLast else argument
  match line with
  | '-' :: number =>
    match number.dropWhile Text.isDecimalDigit with
    | [] => !number.isEmpty
    | '.' :: fraction => !fraction.isEmpty && fraction.all Text.isDecimalDigit
    | _ => false
  | _ => false

/-- The short option with characters attached, each of which has to be the option again. -/
def shortHelp (attached : List Char) : Argument :=
  match attached.dropWhile (· == 'h') with
  | [] => if attached.isEmpty then .helpWith "" else .help
  | rest => .helpWith (.ofList rest)

/-- What is left to say of an argument that begins with a minus sign and is no help option. -/
def otherArgument (argument : List Char) : Argument :=
  if isNegativeNumber argument || argument.contains ' ' then .path else .unknown

/-- An argument that begins with two minus signs. The long option may be cut short. -/
def longArgument (argument : List Char) : Argument :=
  let name := argument.takeWhile (· != '=')
  if name.isPrefixOf "--help".toList then
    match argument.dropWhile (· != '=') with
    | [] => .help
    | _ :: attached => .helpWith (.ofList attached)
  else otherArgument argument

/-- Tells what an argument is. -/
def classify (argument : String) : Argument :=
  match argument.toList with
  | '-' :: '-' :: rest => longArgument ('-' :: '-' :: rest)
  | ['-', 'h'] => .help
  | '-' :: 'h' :: '=' :: attached => shortHelp attached
  | '-' :: 'h' :: attached => shortHelp attached
  | '-' :: next :: rest => otherArgument ('-' :: next :: rest)
  | _ => .path

/-- The command once all arguments are read. -/
def conclude (script : Option String) (leftOver : List String) : Command :=
  match leftOver, script with
  | [], none => .prompt
  | [], some path => .script path
  | leftOver, _ => .misuse (.leftOver leftOver)

/-- Reads arguments from left to right. The first path is the script, and a `--` right after it
has no further effect. -/
def readArguments (script : Option String) (leftOver : List String) : List String → Command
  | [] => conclude script leftOver
  | "--" :: rest =>
    match script with
    | none => conclude rest.head? (leftOver ++ rest.tail)
    | some _ => conclude script (leftOver ++ "--" :: rest)
  | argument :: rest =>
    match classify argument, script with
    | .help, _ => .help
    | .helpWith attached, _ => .misuse (.attached attached)
    | .unknown, _ => readArguments script (leftOver ++ [argument]) rest
    | .path, some _ => readArguments script (leftOver ++ [argument]) rest
    | .path, none =>
      match rest with
      | "--" :: paths => conclude (some argument) (leftOver ++ paths)
      | rest => readArguments (some argument) leftOver rest

def ofArguments (arguments : List String) : Command :=
  readArguments none [] arguments

end Command

end Lox
