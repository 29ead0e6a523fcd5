import Lox.Number
import Lox.Tree

/-!
The prefix form of a tree: each operation in parentheses, its operator before its operands. A
program takes one line per statement. Only a gap in the tree has no prefix form.
-/

set_option autoImplicit false

namespace Lox

/-- A literal value as a prefix form shows it: a text stands in double quotes as it is. -/
def Value.prefixForm : Value → String
  | .nil => "nil"
  | .boolean true => "true"
  | .boolean false => "false"
  | .number value => Number.Style.dumped.write value
  | .text value => "\"" ++ value ++ "\""

namespace Node

/-- A head and its parts, in parentheses and with single spaces between. -/
def parenthesized (head : String) (parts : List String) : String :=
  "(" ++ " ".intercalate (head :: parts) ++ ")"

mutual

/-- The prefix form of a node, unless there is a gap in it. -/
def prefixForm? : Node → Option String
  | .missing => none
  | .literal value => some value.prefixForm
  | .group inner => return parenthesized "group" [← inner.prefixForm?]
  | .unary operator operand => return parenthesized operator.lexeme [← operand.prefixForm?]
  | .binary left operator right =>
    return parenthesized operator.lexeme [← left.prefixForm?, ← right.prefixForm?]
  | .assign name value => return parenthesized ("= " ++ name.lexeme) [← value.prefixForm?]
  | .var name => some name.lexeme
  | .expression inner => return parenthesized ";" [← inner.prefixForm?]
  | .print inner => return parenthesized "print" [← inner.prefixForm?]
  | .declare name .missing => some (parenthesized ("var " ++ name.lexeme) [])
  | .declare name initial =>
    return parenthesized ("var " ++ name.lexeme) [← initial.prefixForm?]
  | .block body => return parenthesized "block" (← prefixForms? body)

/-- The prefix forms of nodes, unless there is a gap in one. -/
def prefixForms? : List Node → Option (List String)
  | [] => some []
  | node :: rest => return (← node.prefixForm?) :: (← prefixForms? rest)

end

/-- The prefix form of a program: a line for each of its statements. -/
def programForm? (nodes : List Node) : Option String :=
  return "\n".intercalate (← prefixForms? nodes)

end Node

end Lox
