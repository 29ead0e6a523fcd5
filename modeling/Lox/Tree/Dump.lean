import Lox.Diagnostic
import Lox.Number
import Lox.Text.Quoted
import Lox.Tree

/-!
Dumps: values, tokens and trees written out with all they hold, field by field.
-/

set_option autoImplicit false

namespace Lox

/-- A value as a dump shows it. -/
def Value.dump : Value → String
  | .nil => "None"
  | .boolean true => "True"
  | .boolean false => "False"
  | .number value => Number.Style.dumped.write value
  | .text value => Text.quoted value

/-- A token as a dump shows it. -/
def Token.dump (token : Token) : String :=
  "Token(" ++ token.kind.name ++ ", " ++ Text.quoted token.lexeme ++ ", " ++ token.literal.dump
    ++ ", line=" ++ Diagnostic.lineText token.line ++ ")"

namespace Node

/-- The name of a node's kind. -/
def kindName : Node → String
  | .missing => "NoneType"
  | .literal _ => "Literal"
  | .group _ => "Grouping"
  | .unary _ _ => "Unary"
  | .binary _ _ _ => "Binary"
  | .assign _ _ => "Assign"
  | .var _ => "Variable"
  | .expression _ => "Expression"
  | .print _ => "Print"
  | .declare _ _ => "Var"
  | .block _ => "Block"

/-- A record: the name of its kind, and its fields with their names. -/
def record (kind : String) (fields : List (String × String)) : String :=
  let shown := fields.map fun (name, value) => name ++ "=" ++ value
  kind ++ "(" ++ ", ".intercalate shown ++ ")"

/-- A sequence in parentheses; a single element is followed by a comma. -/
def sequence : List String → String
  | [single] => "(" ++ single ++ ",)"
  | elements => "(" ++ ", ".intercalate elements ++ ")"

mutual

/-- A node as a dump shows it. -/
def dump : Node → String
  | .missing => "None"
  | .literal value => record "Literal" [("value", value.dump)]
  | .group inner => record "Grouping" [("expression", inner.dump)]
  | .unary operator operand =>
    record "Unary" [("operator", operator.dump), ("right", operand.dump)]
  | .binary left operator right =>
    record "Binary" [("left", left.dump), ("operator", operator.dump), ("right", right.dump)]
  | .assign name value => record "Assign" [("name", name.dump), ("value", value.dump)]
  | .var name => record "Variable" [("name", name.dump)]
  | .expression inner => record "Expression" [("expression", inner.dump)]
  | .print inner => record "Print" [("expression", inner.dump)]
  | .declare name initial =>
    record "Var" [("name", name.dump), ("initializer", initial.dump)]
  | .block body => record "Block" [("statements", sequence (dumps body))]

/-- Nodes as a dump shows them. -/
def dumps : List Node → List String
  | [] => []
  | node :: rest => node.dump :: dumps rest

end

end Node

end Lox
