import Lox.Value

/-!
Tokens: the kinds a scan can produce, the reserved words among them, and a token with the
text, literal value and line it was found with.
-/

set_option autoImplicit false

namespace Lox

/-- The kinds of token. Every reserved word has a kind of its own, also where the grammar has
no use for it. -/
inductive Token.Kind where
  | leftParen | rightParen | leftBrace | rightBrace
  | comma | dot | minus | plus | semicolon | slash | star
  | bang | bangEqual | equal | equalEqual
  | greater | greaterEqual | less | lessEqual
  | identifier | string | number
  | andWord | classWord | elseWord | falseWord | funWord | forWord | ifWord | nilWord
  | orWord | printWord | returnWord | superWord | thisWord | trueWord | varWord | whileWord
  | endOfInput
  deriving DecidableEq, Inhabited

/-- A token. Only `kind` decides how a parse goes; `lexeme` names a variable and appears in
messages, and `literal` is what a number or string token stands for. -/
structure Token where
  kind : Token.Kind
  lexeme : String
  literal : Value
  line : Int
  deriving DecidableEq, Inhabited

namespace Token.Kind

/-- The name a kind goes by in a dump of tokens. -/
def name : Kind → String
  | .leftParen => "LEFT_PAREN"
  | .rightParen => "RIGHT_PAREN"
  | .leftBrace => "LEFT_BRACE"
  | .rightBrace => "RIGHT_BRACE"
  | .comma => "COMMA"
  | .dot => "DOT"
  | .minus => "MINUS"
  | .plus => "PLUS"
  | .semicolon => "SEMICOLON"
  | .slash => "SLASH"
  | .star => "STAR"
  | .bang => "BANG"
  | .bangEqual => "BANG_EQUAL"
  | .equal => "EQUAL"
  | .equalEqual => "EQUAL_EQUAL"
  | .greater => "GREATER"
  | .greaterEqual => "GREATER_EQUAL"
  | .less => "LESS"
  | .lessEqual => "LESS_EQUAL"
  | .identifier => "IDENTIFIER"
  | .string => "STRING"
  | .number => "NUMBER"
  | .andWord => "AND"
  | .classWord => "CLASS"
  | .elseWord => "ELSE"
  | .falseWord => "FALSE"
  | .funWord => "FUN"
  | .forWord => "FOR"
  | .ifWord => "IF"
  | .nilWord => "NIL"
  | .orWord => "OR"
  | .printWord => "PRINT"
  | .returnWord => "RETURN"
  | .superWord => "SUPER"
  | .thisWord => "THIS"
  | .trueWord => "TRUE"
  | .varWord => "VAR"
  | .whileWord => "WHILE"
  | .endOfInput => "EOF"

/-- Every kind, in the order of their declaration. -/
def all : List Kind :=
  [.leftParen, .rightParen, .leftBrace, .rightBrace, .comma, .dot, .minus, .plus, .semicolon,
    .slash, .star, .bang, .bangEqual, .equal, .equalEqual, .greater, .greaterEqual, .less,
    .lessEqual, .identifier, .string, .number, .andWord, .classWord, .elseWord, .falseWord,
    .funWord, .forWord, .ifWord, .nilWord, .orWord, .printWord, .returnWord, .superWord,
    .thisWord, .trueWord, .varWord, .whileWord, .endOfInput]

/-- The kind that goes by a name. -/
def ofName? (text : String) : Option Kind :=
  all.find? fun kind => kind.name == text

theorem ofName?_name (kind : Kind) : ofName? kind.name = some kind := by
  cases kind <;> decide +kernel

theorem name_of_ofName? {text : String} {kind : Kind} (found : ofName? text = some kind) :
    kind.name = text := by
  have same := List.find?_some found
  exact beq_iff_eq.1 same

/-- The reserved words. -/
def reserved : List (String × Kind) :=
  [("and", .andWord), ("class", .classWord), ("else", .elseWord), ("false", .falseWord),
    ("for", .forWord), ("fun", .funWord), ("if", .ifWord), ("nil", .nilWord), ("or", .orWord),
    ("print", .printWord), ("return", .returnWord), ("super", .superWord), ("this", .thisWord),
    ("true", .trueWord), ("var", .varWord), ("while", .whileWord)]

/-- The kind of a word: its own if the whole word is reserved, otherwise an identifier. -/
def ofWord (word : String) : Kind :=
  (reserved.lookup word).getD .identifier

end Token.Kind

/-- The end of the input. -/
def Token.isEnd (token : Token) : Bool :=
  token.kind == .endOfInput

end Lox
