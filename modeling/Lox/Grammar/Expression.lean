import Lox.Grammar.Reply
import Lox.Tree

/-!
The rules for expressions. Binary operators come in four tiers, each of which binds tighter than
the one before it and nests to the left; assignment and the operators in front of an operand nest
to the right.

    assignment → binary ( "=" assignment )?      when what stands before "=" is a variable
    binary     → operand ( operator operand )*   an operand is the next tier, at last unary
    unary      → ( "!" | "-" ) unary | primary
    primary    → literal | name | "(" assignment ")"
-/

set_option autoImplicit false

namespace Lox.Grammar

/-- A tier of binary operators. -/
inductive Tier where
  | equality
  | comparison
  | addition
  | multiplication
  deriving DecidableEq

namespace Tier

def operators : Tier → List Token.Kind
  | .equality => [.bangEqual, .equalEqual]
  | .comparison => [.greater, .greaterEqual, .less, .lessEqual]
  | .addition => [.minus, .plus]
  | .multiplication => [.slash, .star]

/-- The tier that binds next tighter. -/
def tighter? : Tier → Option Tier
  | .equality => some .comparison
  | .comparison => some .addition
  | .addition => some .multiplication
  | .multiplication => none

/-- How many tiers bind at least as tight. -/
def rank : Tier → Nat
  | .equality => 4
  | .comparison => 3
  | .addition => 2
  | .multiplication => 1

theorem rank_tighter {tier next : Tier} (tighter : tier.tighter? = some next) :
    next.rank < tier.rank := by
  cases tier <;> simp_all [tighter?] <;> subst tighter <;> decide

theorem rank_pos (tier : Tier) : 0 < tier.rank := by
  cases tier <;> decide

theorem rank_le (tier : Tier) : tier.rank ≤ 4 := by
  cases tier <;> decide

end Tier

/-- The operators that stand in front of their operand. -/
def unaryOperators : List Token.Kind :=
  [.bang, .minus]

/-- What a token stands for that makes an expression by itself. -/
def atom? (token : Token) : Option Expr :=
  match token.kind with
  | .falseWord => some (.literal (.boolean false))
  | .trueWord => some (.literal (.boolean true))
  | .nilWord => some (.literal .nil)
  | .number | .string => some (.literal token.literal)
  | .identifier => some (.var token)
  | _ => none

/-- Uses up the token ahead if it is of a kind, and refuses it otherwise. The end of the input is
never used up. -/
def expect (kind : Token.Kind) (cause : SyntaxError.Cause) (tokens : List Token) :
    Advancing tokens Token :=
  match tokens with
  | [] => .overrun []
  | token :: rest =>
    if token.kind = kind ∧ ¬token.isEnd then .after token (.accept token rest)
    else .refuse cause token rest

mutual

/-- An expression, with or without an assignment. A target that is no variable is an error that
does not stop the rule: the target alone is the result. -/
def assignment (tokens : List Token) : ReplyTo tokens Expr :=
  (binary .equality tokens).andThen fun target rest _left =>
    match rest, _left with
    | [], _ => .overrun []
    | token :: rest, _left =>
      if token.kind = .equal then
        ((assignment rest).andThen fun value after _ =>
          match target with
          | .var name => .accept (.assign name value) after
          | target =>
            (ReplyTo.accept target after).record ⟨.invalidTarget, token, rest.length + 1⟩).after
          token
      else .accept target (token :: rest)
termination_by 12 * tokens.length + 11
decreasing_by
  · have most := Tier.equality.rank_le
    omega
  · have shorter := _left.length_le
    rw [List.length_cons] at shorter
    omega

/-- Operands with the operators of a tier between them. -/
def binary (tier : Tier) (tokens : List Token) : ReplyTo tokens Expr :=
  (operand tier tokens).andThen fun first rest _left => binaryRest tier first rest
termination_by 12 * tokens.length + 2 * tier.rank + 2
decreasing_by
  · exact Nat.lt_succ_self _
  · have shorter := _left.length_le
    omega

/-- An operand of a tier. -/
def operand (tier : Tier) (tokens : List Token) : ReplyTo tokens Expr :=
  match _tighter : tier.tighter? with
  | some next => binary next tokens
  | none => unary tokens
termination_by 12 * tokens.length + 2 * tier.rank + 1
decreasing_by
  · have lower := Tier.rank_tighter _tighter
    omega
  · have positive := tier.rank_pos
    omega

/-- What may follow the operands of a tier that are read so far. -/
def binaryRest (tier : Tier) (soFar : Expr) (tokens : List Token) : ReplyTo tokens Expr :=
  match tokens with
  | [] => .overrun []
  | token :: rest =>
    if token.kind ∈ tier.operators then
      ((operand tier rest).andThen fun right after _left =>
        binaryRest tier (.binary soFar token right) after).after token
    else .accept soFar (token :: rest)
termination_by 12 * tokens.length
decreasing_by
  · have least := tier.rank_le
    rw [List.length_cons]
    omega
  · have shorter := _left.length_le
    rw [List.length_cons]
    omega

/-- An operand with any number of operators in front of it. -/
def unary (tokens : List Token) : ReplyTo tokens Expr :=
  match tokens with
  | [] => .overrun []
  | token :: rest =>
    if token.kind ∈ unaryOperators then ((unary rest).map (.unary token)).after token
    else primary (token :: rest)
termination_by 12 * tokens.length + 1
decreasing_by
  · rw [List.length_cons]
    omega
  · exact Nat.lt_succ_self _

/-- A literal, a variable or an expression in parentheses. -/
def primary (tokens : List Token) : ReplyTo tokens Expr :=
  match tokens with
  | [] => .overrun []
  | token :: rest =>
    match atom? token with
    | some atom => (ReplyTo.accept atom rest).after token
    | none =>
      if token.kind = .leftParen then
        ((assignment rest).andThen fun inner after _ =>
          (expect .rightParen .closingParenExpected after).val.map fun _ => .group inner).after
          token
      else .refuse .expressionExpected token rest
termination_by 12 * tokens.length
decreasing_by
  rw [List.length_cons]
  omega

end

end Lox.Grammar
