import Lox.Grammar.Expression

/-!
The rules for statements and whole programs, and the recovery from a syntax error: a declaration
that fails is left out, and reading goes on where the next statement seems to begin.

    declaration → "var" name ( "=" expression )? ";" | statement
    statement   → "print" expression ";" | "{" block | expression ";"
    block       → declaration* "}"
    program     → declaration* end of input
-/

set_option autoImplicit false

namespace Lox.Grammar

/-- The kinds that begin a statement. Several of them have no rule yet. -/
def statementStarters : List Token.Kind :=
  [.classWord, .funWord, .varWord, .forWord, .ifWord, .whileWord, .printWord, .returnWord]

/-- Whether no token is ahead but the end of the input. -/
def AtEnd : List Token → Prop
  | [] => True
  | token :: _ => token.isEnd

/-- Skips tokens up to the end of the statement that `skipped` is part of: until the token just
skipped is a semicolon, or the one ahead begins a statement or is the end of the input. -/
def skipStatement (skipped : Token) (tokens : List Token) : ReplyTo tokens Unit :=
  match tokens with
  | [] => .overrun []
  | token :: rest =>
    if token.isEnd ∨ skipped.kind = .semicolon ∨ token.kind ∈ statementStarters then
      .accept () (token :: rest)
    else (skipStatement token rest).after token

/-- Skips at least one token, unless the end of the input is ahead, and then the rest of the
statement. -/
def synchronize (tokens : List Token) : ReplyTo tokens Unit :=
  match tokens with
  | [] => .overrun []
  | token :: rest =>
    if token.isEnd then .accept () (token :: rest)
    else (skipStatement token rest).after token

theorem synchronize_advances {tokens : List Token} (ahead : ¬AtEnd tokens) :
    (synchronize tokens).val.rest.length < tokens.length := by
  match tokens, ahead with
  | [], ahead => exact absurd trivial ahead
  | token :: rest, ahead =>
    change ¬token.isEnd at ahead
    rw [synchronize, if_neg ahead]
    exact Nat.lt_succ_of_le (skipStatement token rest).property.length_le

/-- An answer to `tokens` that uses up at least one of them if it has a result and the input is
not at its end. -/
abbrev Progressing (tokens : List Token) (α : Type) : Type :=
  { reply : ReplyTo tokens α // ¬AtEnd tokens →
    ∀ result, reply.val.outcome = .ok result → reply.val.rest.length < tokens.length }

/-- Goes on with a result, knowing that there are fewer tokens left. -/
def Progressing.andThen {α β : Type} {tokens : List Token} (first : Progressing tokens α)
    (ahead : ¬AtEnd tokens)
    (next : α → (rest : List Token) → rest.length < tokens.length → ReplyTo rest β) :
    ReplyTo tokens β :=
  match first with
  | ⟨⟨⟨.ok result, errors, rest⟩, left⟩, progress⟩ =>
    let last := next result rest (progress ahead result rfl)
    ⟨{ last.val with errors := errors ++ last.val.errors }, last.property.trans left⟩
  | ⟨⟨⟨.error halt, errors, rest⟩, left⟩, _⟩ => ⟨⟨.error halt, errors, rest⟩, left⟩

/-- Leaves out a statement that is refused, and skips to where the next one seems to begin. -/
def recover {tokens : List Token} (reply : Advancing tokens Stmt) :
    Progressing tokens (Option Stmt) :=
  match reply with
  | ⟨⟨⟨.ok statement, errors, rest⟩, left⟩, advances⟩ =>
    ⟨⟨⟨.ok (some statement), errors, rest⟩, left⟩, fun _ _ _ => advances statement rfl⟩
  | ⟨⟨⟨.error .overrun, errors, rest⟩, left⟩, _⟩ =>
    ⟨⟨⟨.error .overrun, errors, rest⟩, left⟩, by simp⟩
  | ⟨⟨⟨.error (.refused _), errors, rest⟩, left⟩, _⟩ =>
    let resumed := (synchronize rest).map fun _ => none
    ⟨⟨{ resumed.val with errors := errors ++ resumed.val.errors }, resumed.property.trans left⟩,
      fun ahead _ _ => by
        by_cases shorter : rest.length < tokens.length
        · exact Nat.lt_of_le_of_lt resumed.property.length_le shorter
        · have same := left.eq_of_length_le (Nat.le_of_not_lt shorter)
          subst same
          exact synchronize_advances ahead⟩

/-- What follows `var`. -/
def varDeclaration (tokens : List Token) : ReplyTo tokens Stmt :=
  (expect .identifier .nameExpected tokens).val.andThen fun name rest _ =>
    match rest with
    | [] => .overrun []
    | token :: rest =>
      if token.kind = .equal then
        ((assignment rest).andThen fun initial after _ =>
          (expect .semicolon .declarationEndExpected after).val.map fun _ =>
            .declare name (some initial)).after token
      else
        (expect .semicolon .declarationEndExpected (token :: rest)).val.map fun _ =>
          .declare name none

/-- What follows `print`. -/
def printStatement (tokens : List Token) : ReplyTo tokens Stmt :=
  (assignment tokens).andThen fun value rest _ =>
    (expect .semicolon .printEndExpected rest).val.map fun _ => .print value

/-- An expression with a semicolon. -/
def expressionStatement (tokens : List Token) : Advancing tokens Stmt :=
  (assignment tokens).thenAdvance fun value rest _ =>
    (expect .semicolon .expressionEndExpected rest).map fun _ => .expression value

mutual

/-- A declaration or any other statement; none if it has a syntax error. -/
def declaration (tokens : List Token) : Progressing tokens (Option Stmt) :=
  match tokens with
  | [] => recover (.overrun [])
  | token :: rest =>
    if token.kind = .varWord then recover (.after token (varDeclaration rest))
    else recover (statement (token :: rest))
termination_by 3 * tokens.length + 1
decreasing_by exact Nat.lt_succ_self _

/-- A statement other than a declaration. -/
def statement (tokens : List Token) : Advancing tokens Stmt :=
  match tokens with
  | [] => .overrun []
  | token :: rest =>
    if token.kind = .printWord then .after token (printStatement rest)
    else if token.kind = .leftBrace then .after token ((block rest).map .block)
    else expressionStatement (token :: rest)
termination_by 3 * tokens.length
decreasing_by
  rw [List.length_cons]
  omega

/-- The declarations up to a closing brace, without those that have a syntax error. -/
def block (tokens : List Token) : ReplyTo tokens (List Stmt) :=
  match tokens with
  | [] => .overrun []
  | token :: rest =>
    if token.kind = .rightBrace then (ReplyTo.accept [] rest).after token
    else if ended : token.isEnd then .refuse .closingBraceExpected token rest
    else
      (declaration (token :: rest)).andThen ended fun first after _shorter =>
        (block after).map (first.toList ++ ·)
termination_by 3 * tokens.length + 2
decreasing_by
  · exact Nat.lt_succ_self _
  · omega

end

/-- The declarations up to the end of the input, without those that have a syntax error. -/
def program (tokens : List Token) : ReplyTo tokens (List Stmt) :=
  match tokens with
  | [] => .overrun []
  | token :: rest =>
    if ended : token.isEnd then .accept [] (token :: rest)
    else
      (declaration (token :: rest)).andThen ended fun first after _shorter =>
        (program after).map (first.toList ++ ·)
termination_by tokens.length
decreasing_by exact _shorter

end Lox.Grammar
