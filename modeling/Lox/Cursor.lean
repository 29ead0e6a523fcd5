import Lox.Grammar.Statement

/-!
A cursor over a list of tokens, with the errors recorded so far. It can be moved token by token,
and every grammar rule can be applied where it stands; whatever a step comes to, the next one
goes on from there.
-/

set_option autoImplicit false

namespace Lox

structure Cursor where
  tokens : List Token
  position : Nat
  errors : List SyntaxError

namespace Cursor

open Grammar

/-- What can be done with a cursor. -/
inductive Step where
  | peek
  | previous
  | isAtEnd
  | advance
  | synchronize
  | check (kind : Token.Kind)
  /-- Uses up the token ahead if it is of one of the kinds. -/
  | use (kinds : List Token.Kind)
  | expect (kind : Token.Kind) (message : String)
  /-- Records an error at the token ahead. -/
  | complain (message : String)
  | assignment
  | binary (tier : Tier)
  | unary
  | primary
  | declaration
  | varDeclaration
  | statement
  | printStatement
  | expressionStatement
  | block
  | program

/-- What a step may come to. -/
inductive Answer where
  | nothing
  | flag (value : Bool)
  | token (token : Token)
  | error (error : SyntaxError)
  | expression (expression : Expr)
  | statement (statement : Stmt)
  | statements (statements : List Stmt)

/-- A cursor in front of the first token. -/
def start (tokens : List Token) : Cursor :=
  ⟨tokens, 0, []⟩

/-- The tokens from the cursor on. -/
def rest (cursor : Cursor) : List Token :=
  cursor.tokens.drop cursor.position

/-- The token right before the cursor. The last token of the list counts as the one before the
first. -/
def previous? (cursor : Cursor) : Option Token :=
  if cursor.position = 0 then cursor.tokens.getLast? else cursor.tokens[cursor.position - 1]?

/-- Applies a rule where the cursor stands. -/
def apply {α : Type} (cursor : Cursor) (rule : (tokens : List Token) → ReplyTo tokens α) :
    Except Halt α × Cursor :=
  let reply := (rule cursor.rest).val
  (reply.outcome,
    { cursor with
      position := cursor.tokens.length - reply.rest.length
      errors := cursor.errors ++ reply.errors })

theorem apply_start {α : Type} (tokens : List Token)
    (rule : (tokens : List Token) → ReplyTo tokens α) :
    (start tokens).apply rule =
      ((rule tokens).val.outcome,
        { tokens := tokens
          position := tokens.length - (rule tokens).val.rest.length
          errors := (rule tokens).val.errors }) := rfl

/-- The token ahead. -/
def peekRule (tokens : List Token) : ReplyTo tokens Token :=
  match tokens with
  | [] => .overrun []
  | token :: rest => .accept token (token :: rest)

/-- Whether the token ahead is of one of the kinds, and uses it up if so. The end of the input is
of none. -/
def useRule (kinds : List Token.Kind) (tokens : List Token) : ReplyTo tokens Bool :=
  match kinds, tokens with
  | [], tokens => .accept false tokens
  | _ :: _, [] => .overrun []
  | kinds, token :: rest =>
    if token.kind ∈ kinds ∧ ¬token.isEnd then (ReplyTo.accept true rest).after token
    else .accept false (token :: rest)

/-- Moves past the token ahead, but not past the end of the input. -/
def advanceRule (tokens : List Token) : ReplyTo tokens Unit :=
  match tokens with
  | [] => .overrun []
  | token :: rest =>
    if token.isEnd then .accept () (token :: rest) else (ReplyTo.accept () rest).after token

/-- Records an error at the token ahead and goes on. -/
def complainRule (message : String) (tokens : List Token) : ReplyTo tokens SyntaxError :=
  match tokens with
  | [] => .overrun []
  | token :: rest =>
    let error := ⟨.stated message, token, rest.length + 1⟩
    (ReplyTo.accept error (token :: rest)).record error

/-- The token before the cursor, if there is one. -/
def previous (cursor : Cursor) : Except Halt Answer × Cursor :=
  match cursor.previous? with
  | some token => (.ok (.token token), cursor)
  | none => (.error .overrun, cursor)

/-- Applies a rule and names its result as an answer. -/
def answer {α : Type} (cursor : Cursor) (rule : (tokens : List Token) → ReplyTo tokens α)
    (name : α → Answer) : Except Halt Answer × Cursor :=
  let (outcome, cursor) := cursor.apply rule
  (outcome.map name, cursor)

/-- Takes a step. -/
def perform (cursor : Cursor) : Step → Except Halt Answer × Cursor
  | .peek => cursor.answer peekRule .token
  | .previous => cursor.previous
  | .isAtEnd => cursor.answer peekRule (.flag ·.isEnd)
  | .advance =>
    match cursor.apply advanceRule with
    | (.ok (), moved) => moved.previous
    | (.error halt, stopped) => (.error halt, stopped)
  | .synchronize => cursor.answer Grammar.synchronize fun _ => .nothing
  | .check kind => cursor.answer peekRule fun token => .flag (token.kind == kind && !token.isEnd)
  | .use kinds => cursor.answer (useRule kinds) .flag
  | .expect kind message =>
    cursor.answer (fun tokens => (Grammar.expect kind (.stated message) tokens).val) .token
  | .complain message => cursor.answer (complainRule message) .error
  | .assignment => cursor.answer Grammar.assignment .expression
  | .binary tier => cursor.answer (Grammar.binary tier) .expression
  | .unary => cursor.answer Grammar.unary .expression
  | .primary => cursor.answer Grammar.primary .expression
  | .declaration =>
    cursor.answer (fun tokens => (Grammar.declaration tokens).val) fun
      | some statement => .statement statement
      | none => .nothing
  | .varDeclaration => cursor.answer Grammar.varDeclaration .statement
  | .statement => cursor.answer (fun tokens => (Grammar.statement tokens).val) .statement
  | .printStatement => cursor.answer Grammar.printStatement .statement
  | .expressionStatement =>
    cursor.answer (fun tokens => (Grammar.expressionStatement tokens).val) .statement
  | .block => cursor.answer Grammar.block .statements
  | .program => cursor.answer Grammar.program .statements

end Cursor

end Lox
