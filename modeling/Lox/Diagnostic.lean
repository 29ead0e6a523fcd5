import Lox.Token

/-!
Diagnostics: what can go wrong with a source text or a run of it, and the report of each.
-/

set_option autoImplicit false

namespace Lox

/-- An error as it is reported. -/
inductive Diagnostic where
  /-- Characters that make no token. -/
  | scan (line : Int) (message : String)
  /-- Tokens that do not follow the grammar, blamed on one of them. -/
  | parse (token : Token) (message : String)
  /-- An operation that fails, blamed on its operator. -/
  | runtime (token : Token) (message : String)
  /-- A variable that no scope defines. -/
  | undefinedVariable (name : Token)
  /-- Any other error, with a report of its own. -/
  | other (line : Int) (message report : String)
  deriving DecidableEq

namespace Diagnostic

def message : Diagnostic → String
  | .scan _ message => message
  | .parse _ message => message
  | .runtime _ message => message
  | .undefinedVariable name => "Undefined variable '" ++ name.lexeme ++ "'."
  | .other _ message _ => message

def line : Diagnostic → Int
  | .scan line _ => line
  | .parse token _ => token.line
  | .runtime token _ => token.line
  | .undefinedVariable name => name.line
  | .other line _ _ => line

/-- A line number in decimal. It may be negative, as a token may be given any line. -/
def lineText (line : Int) : String :=
  let digits := String.ofList (Nat.toDigits 10 line.natAbs)
  if line < 0 then "-" ++ digits else digits

/-- The mark that names a line in a report. -/
def lineMark (line : Int) : String :=
  "[line " ++ lineText line ++ "]"

/-- Where a syntax error is blamed: on the end of the input or on a lexeme. -/
def place (token : Token) : String :=
  if token.isEnd then " at end" else " at '" ++ token.lexeme ++ "'"

/-- The text of a diagnostic. Errors found before a run begin with the line, those of a run end
with it, on a line of its own. -/
def report (diagnostic : Diagnostic) : String :=
  match diagnostic with
  | .scan line message => lineMark line ++ " Error: " ++ message
  | .parse token message => lineMark token.line ++ " Error" ++ place token ++ ": " ++ message
  | .runtime token message => message ++ "\n" ++ lineMark token.line
  | .undefinedVariable name => diagnostic.message ++ "\n" ++ lineMark name.line
  | .other _ _ report => report

/-- Whether the error arose while a program ran. -/
def isRuntime : Diagnostic → Bool
  | .runtime _ _ => true
  | .undefinedVariable _ => true
  | _ => false

end Diagnostic

end Lox
