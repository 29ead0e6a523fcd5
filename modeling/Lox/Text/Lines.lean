/-!
Lines of text, whichever of the three common line ends they have.
-/

set_option autoImplicit false

namespace Lox.Text

/-- Characters with a newline for every line end: a carriage return, a newline, or both in that
order. -/
def unified : List Char → List Char
  | [] => []
  | '\r' :: '\n' :: rest => '\n' :: unified rest
  | '\r' :: rest => '\n' :: unified rest
  | char :: rest => char :: unified rest

/-- A text with a newline for every line end. -/
def unifyLineEnds (text : String) : String :=
  .ofList (unified text.toList)

/-- The lines of a text, where the first line begins with `begun`, read backwards. -/
def linesAfter (begun : List Char) : List Char → List (List Char)
  | [] => if begun.isEmpty then [] else [begun.reverse]
  | '\n' :: rest => begun.reverse :: linesAfter [] rest
  | char :: rest => linesAfter (char :: begun) rest

/-- The lines of a text without their newlines. What follows the last newline is a line only if
it is not empty. -/
def lines (text : String) : List String :=
  (linesAfter [] text.toList).map .ofList

end Lox.Text
