import Lox.Diagnostic

/-!
What a grammar rule answers. A rule is given the tokens that are left and answers with a result
or a reason to stop, with the errors it recorded, and with the tokens it leaves, which are always
an end piece of those it was given.
-/

set_option autoImplicit false

namespace Lox

/-- What is wrong with a token. -/
inductive SyntaxError.Cause where
  | expressionExpected
  | closingParenExpected
  | nameExpected
  | declarationEndExpected
  | printEndExpected
  | expressionEndExpected
  | closingBraceExpected
  /-- What stands before an equals sign is no variable. -/
  | invalidTarget
  /-- A cause in the words of whoever states it. -/
  | stated (message : String)
  deriving DecidableEq

/-- A syntax error, blamed on a token. `remaining` counts the tokens from the blamed one to the
end of the list, which tells where it stands. -/
structure SyntaxError where
  cause : SyntaxError.Cause
  token : Token
  remaining : Nat
  deriving DecidableEq

def SyntaxError.Cause.message : Cause → String
  | .expressionExpected => "Expect expression."
  | .closingParenExpected => "Expect ')' after expression."
  | .nameExpected => "Expect variable name."
  | .declarationEndExpected => "Expect ';' after variable declaration."
  | .printEndExpected => "Expect ';' after value."
  | .expressionEndExpected => "Expect ';' after expression."
  | .closingBraceExpected => "Expect '\x7d' after block."
  | .invalidTarget => "Invalid assignment target."
  | .stated message => message

def SyntaxError.diagnostic (error : SyntaxError) : Diagnostic :=
  .parse error.token error.cause.message

namespace Grammar

/-- Why a rule stops without a result. -/
inductive Halt where
  /-- The tokens do not follow the rule; the error is the last one recorded. -/
  | refused (error : SyntaxError)
  /-- A token is needed and the list is at its end. -/
  | overrun
  deriving DecidableEq

/-- The answer of a rule. -/
structure Reply (α : Type) where
  outcome : Except Halt α
  errors : List SyntaxError
  rest : List Token

/-- An answer to `tokens`: what it leaves is an end piece of them. -/
abbrev ReplyTo (tokens : List Token) (α : Type) : Type :=
  { reply : Reply α // reply.rest <:+ tokens }

namespace ReplyTo

variable {α β : Type} {tokens : List Token}

/-- A result, with no token used. -/
def accept (result : α) (tokens : List Token) : ReplyTo tokens α :=
  ⟨⟨.ok result, [], tokens⟩, List.suffix_rfl⟩

/-- The list is at its end. -/
def overrun (tokens : List Token) : ReplyTo tokens α :=
  ⟨⟨.error .overrun, [], []⟩, List.nil_suffix⟩

/-- The token ahead is refused. -/
def refuse (cause : SyntaxError.Cause) (token : Token) (rest : List Token) :
    ReplyTo (token :: rest) α :=
  let error := ⟨cause, token, rest.length + 1⟩
  ⟨⟨.error (.refused error), [error], token :: rest⟩, List.suffix_rfl⟩

/-- An answer for what follows a token, as an answer from that token on. -/
def after (token : Token) (reply : ReplyTo tokens α) : ReplyTo (token :: tokens) α :=
  ⟨reply.val, reply.property.trans (List.suffix_cons token tokens)⟩

/-- Records an error and goes on. -/
def record (error : SyntaxError) (reply : ReplyTo tokens α) : ReplyTo tokens α :=
  ⟨{ reply.val with errors := error :: reply.val.errors }, reply.property⟩

/-- Goes on with a result and the tokens that are left, or stops where the first answer does. -/
def andThen (first : ReplyTo tokens α)
    (next : α → (rest : List Token) → rest <:+ tokens → ReplyTo rest β) : ReplyTo tokens β :=
  match first with
  | ⟨⟨.ok result, errors, rest⟩, left⟩ =>
    let last := next result rest left
    ⟨{ last.val with errors := errors ++ last.val.errors }, last.property.trans left⟩
  | ⟨⟨.error halt, errors, rest⟩, left⟩ => ⟨⟨.error halt, errors, rest⟩, left⟩

def map (f : α → β) (reply : ReplyTo tokens α) : ReplyTo tokens β :=
  ⟨{ reply.val with outcome := reply.val.outcome.map f }, reply.property⟩

end ReplyTo

/-- An answer to `tokens` that uses up at least one of them if it has a result. -/
abbrev Advancing (tokens : List Token) (α : Type) : Type :=
  { reply : ReplyTo tokens α //
    ∀ result, reply.val.outcome = .ok result → reply.val.rest.length < tokens.length }

namespace Advancing

variable {α β : Type} {tokens : List Token}

def overrun (tokens : List Token) : Advancing tokens α :=
  ⟨.overrun tokens, by simp [ReplyTo.overrun]⟩

def refuse (cause : SyntaxError.Cause) (token : Token) (rest : List Token) :
    Advancing (token :: rest) α :=
  ⟨.refuse cause token rest, by simp [ReplyTo.refuse]⟩

/-- An answer for what follows a token, which is used up by then. -/
def after (token : Token) (reply : ReplyTo tokens α) : Advancing (token :: tokens) α :=
  ⟨reply.after token, fun _ _ => Nat.lt_succ_of_le reply.property.length_le⟩

def map (f : α → β) (reply : Advancing tokens α) : Advancing tokens β :=
  ⟨reply.val.map f, by
    obtain ⟨⟨⟨outcome, errors, rest⟩, left⟩, advances⟩ := reply
    cases outcome <;> simp_all [ReplyTo.map, Except.map]⟩

end Advancing

/-- Goes on as `ReplyTo.andThen` does; the result advances as the second answer does. -/
def ReplyTo.thenAdvance {α β : Type} {tokens : List Token} (first : ReplyTo tokens α)
    (next : α → (rest : List Token) → rest <:+ tokens → Advancing rest β) : Advancing tokens β :=
  ⟨first.andThen fun result rest left => (next result rest left).val, by
    obtain ⟨⟨outcome, errors, rest⟩, left⟩ := first
    cases outcome with
    | error => simp [ReplyTo.andThen]
    | ok result =>
      intro final found
      exact Nat.lt_of_lt_of_le ((next result rest left).property final found) left.length_le⟩

end Grammar

end Lox
