import Lox.Proofs.Grammar.StatementRule
import Lox.Proofs.Lines.Moved

/-!
Grammar rules look at the kinds of tokens and at nothing else, so a rule reads the same from tokens
that are on other lines: `ExpressionRule.Reads.moved`, `StatementRule.Reads.moved`.
-/

set_option autoImplicit false

namespace Lox.Grammar

variable (move : Int → Int)

theorem moved_atom? (token : Token) :
    atom? (token.moved move) = (atom? token).map (Expr.moved move) := by
  unfold atom?
  rw [Token.moved_kind]
  cases token.kind <;> rfl

theorem moved_expect (kind : Token.Kind) (cause : SyntaxError.Cause) (tokens : List Token) :
    (expect kind cause (tokens.map (Token.moved move))).val.val =
      (expect kind cause tokens).val.val.moved move (Token.moved move) := by
  cases tokens with
  | nil => rfl
  | cons token rest =>
      rw [List.map_cons, expect, expect, Token.moved_kind, Token.moved_isEnd]
      split
      · rfl
      · simp [Advancing.refuse, ReplyTo.refuse, Reply.moved, Halt.moved, SyntaxError.moved]

theorem moved_skipStatement (skipped : Token) (tokens : List Token) :
    (skipStatement (skipped.moved move) (tokens.map (Token.moved move))).val =
      (skipStatement skipped tokens).val.moved move id := by
  induction tokens generalizing skipped with
  | nil => rfl
  | cons token rest ih =>
      rw [List.map_cons, skipStatement, skipStatement, Token.moved_kind, Token.moved_kind,
        Token.moved_isEnd]
      split
      · rfl
      · exact ih token

theorem moved_synchronize (tokens : List Token) :
    (synchronize (tokens.map (Token.moved move))).val =
      (synchronize tokens).val.moved move id := by
  cases tokens with
  | nil => rfl
  | cons token rest =>
      rw [List.map_cons, synchronize, synchronize, Token.moved_isEnd]
      split
      · rfl
      · exact moved_skipStatement move token rest

namespace ExpressionRule

def moved : ExpressionRule → ExpressionRule
  | .chain tier soFar => .chain tier (soFar.moved move)
  | rule => rule

theorem moved_ne_var {target : Expr} (invalid : ∀ name, target ≠ .var name) (name : Token) :
    target.moved move ≠ .var name := by
  cases target with
  | var found => exact absurd rfl (invalid found)
  | _ => simp [Expr.moved]

theorem Reads.moved {rule : ExpressionRule} {tokens : List Token} {reply : Reply Expr}
    (reads : rule.Reads tokens reply) :
    (rule.moved move).Reads (tokens.map (Token.moved move))
      (reply.moved move (Expr.moved move)) := by
  induction reads with
  | overrun => exact .overrun
  | targetStopped stopped ih => exact .targetStopped ih
  | targetLast read ih => exact .targetLast ih
  | noTarget read other ih => exact .noTarget ih other
  | valueStopped read equal stopped first second =>
      have reads := Reads.valueStopped first equal second
      rw [← List.map_append] at reads
      exact reads
  | assigned read equal assigned first second =>
      have reads := Reads.assigned first equal second
      rw [← List.map_append] at reads
      exact reads
  | invalidTarget read equal invalid assigned first second =>
      have reads := Reads.invalidTarget first equal (moved_ne_var move invalid) second
      simpa [Reply.moved, SyntaxError.moved, ExpressionRule.moved] using reads
  | operandStopped stopped ih => exact .operandStopped ih
  | operands read more first second =>
      rw [Reply.moved_follow]
      exact .operands first second
  | tighter tighter read ih => exact .tighter tighter ih
  | tightest tightest read ih => exact .tightest tightest ih
  | chainEnd other => exact .chainEnd other
  | chainStopped operator stopped ih => exact .chainStopped operator ih
  | chainNext operator read more first second =>
      rw [Reply.moved_follow]
      exact .chainNext operator first second
  | @operator token rest reply operator read ih =>
      have same := Reply.moved_map move (Expr.moved move) (Expr.moved move) (.unary token)
        (.unary (token.moved move)) (fun _ => rfl) reply
      rw [same]
      exact .operator operator ih
  | noOperator other read ih => exact .noOperator other ih
  | @atom token rest atom stands =>
      have same : atom? (token.moved move) = some (atom.moved move) := by
        rw [moved_atom?, stands, Option.map_some]
      exact .atom same
  | innerStopped opens stopped ih => exact .innerStopped opens ih
  | @group token rest after inner errors opens read ih =>
      have same := Reply.moved_map move (Token.moved move) (Expr.moved move)
        (fun _ => .group inner) (fun _ => .group (inner.moved move)) (fun _ => rfl)
        (expect .rightParen .closingParenExpected after).val.val
      rw [Reply.moved_follow, same, ← moved_expect]
      exact .group opens ih
  | @refused token rest noAtom other =>
      have none : atom? (token.moved move) = none := by
        rw [moved_atom?, noAtom, Option.map_none]
      have reads : primary.Reads (token.moved move :: rest.map (Token.moved move)) _ :=
        .refused none other
      simpa [Reply.moved, Halt.moved, SyntaxError.moved, ExpressionRule.moved] using reads

end ExpressionRule

theorem ReadsTerminated.moved {cause : SyntaxError.Cause} {build built : Expr → Stmt}
    (same : ∀ value, (build value).moved move = built (value.moved move)) {tokens : List Token}
    {reply : Reply Stmt} (reads : ReadsTerminated cause build tokens reply) :
    ReadsTerminated cause built (tokens.map (Token.moved move))
      (reply.moved move (Stmt.moved move)) := by
  cases reads with
  | stopped stopped => exact .stopped (stopped.moved move)
  | @read rest value errors read =>
      have ended := Reply.moved_map move (Token.moved move) (Stmt.moved move)
        (fun _ => build value) (fun _ => built (value.moved move)) (fun _ => same value)
        (expect .semicolon cause rest).val.val
      rw [Reply.moved_follow, ended, ← moved_expect]
      exact .read (read.moved move)

theorem ReadsVariable.moved {tokens : List Token} {reply : Reply Stmt}
    (reads : ReadsVariable tokens reply) :
    ReadsVariable (tokens.map (Token.moved move)) (reply.moved move (Stmt.moved move)) := by
  cases reads with
  | overrun => exact .overrun
  | @noName token rest other =>
      have reads : ReadsVariable (token.moved move :: rest.map (Token.moved move)) _ :=
        .noName other
      simpa [ReplyTo.refuse, Reply.moved, Halt.moved, SyntaxError.moved] using reads
  | nameLast named => exact .nameLast named
  | initial named equal read =>
      have same : ∀ name value, (Stmt.declare name (some value)).moved move =
          .declare (name.moved move) (some (value.moved move)) := by
        intro name value
        rw [Stmt.moved]
      exact .initial named equal (read.moved move (same _))
  | @noInitial name token rest named other =>
      have same := Reply.moved_map move (Token.moved move) (Stmt.moved move)
        (fun _ => .declare name none) (fun _ => .declare (name.moved move) none)
        (fun _ => by rw [Stmt.moved])
        (expect .semicolon .declarationEndExpected (token :: rest)).val.val
      rw [same, ← moved_expect]
      exact .noInitial named other

namespace StatementRule

/-- What a rule has for a result, on other lines. -/
def movedResult : (rule : StatementRule) → rule.Result → rule.Result
  | .attempt => Stmt.moved move
  | .declaration => Option.map (Stmt.moved move)
  | .statement => Stmt.moved move
  | .block => List.map (Stmt.moved move)
  | .program => List.map (Stmt.moved move)

/-- A declaration and those after it, on other lines. -/
theorem moved_first (first : Option Stmt) (reply : Reply (List Stmt)) :
    (reply.map (first.toList ++ ·)).moved move (List.map (Stmt.moved move)) =
      (reply.moved move (List.map (Stmt.moved move))).map
        ((first.map (Stmt.moved move)).toList ++ ·) := by
  apply Reply.moved_map
  intro found
  cases first with
  | none => rfl
  | some statement => rfl

theorem Reads.moved {rule : StatementRule} {tokens : List Token} {reply : Reply rule.Result}
    (reads : rule.Reads tokens reply) :
    rule.Reads (tokens.map (Token.moved move)) (reply.moved move (rule.movedResult move)) := by
  induction reads with
  | overrun => exact .overrun
  | variableWord word read => exact .variableWord word (read.moved move)
  | otherWord other read ih => exact .otherWord other ih
  | declared read ih => exact .declared ih
  | attemptOverrun stopped ih => exact .attemptOverrun ih
  | @recovered tokens rest error errors stopped ih =>
      have same := Reply.moved_map move id (Option.map (Stmt.moved move)) (fun _ => none)
        (fun _ => none) (fun _ => rfl) (synchronize rest).val
      rw [Reply.moved_follow, movedResult, same, ← moved_synchronize]
      exact .recovered ih
  | print word read =>
      exact .print word (read.moved move fun value => by rw [Stmt.moved])
  | @braces token rest reply opens read ih =>
      have same : ∀ body, (Stmt.block body).moved move = .block (body.map (Stmt.moved move)) := by
        intro body
        rw [Stmt.moved, Stmt.allMoved_eq_map]
      rw [movedResult, Reply.moved_map move (List.map (Stmt.moved move)) _ _ _ same]
      exact .braces opens ih
  | expression noPrint noBlock read =>
      exact .expression noPrint noBlock (read.moved move fun value => by rw [Stmt.moved])
  | blockEnd closes => exact .blockEnd closes
  | @unclosed token rest ended =>
      have reads : StatementRule.block.Reads (token.moved move :: rest.map (Token.moved move)) _ :=
        .unclosed ended
      simpa [Reply.moved, Halt.moved, SyntaxError.moved] using reads
  | blockStopped stillOpen ahead stopped ih => exact .blockStopped stillOpen ahead ih
  | blockNext stillOpen ahead read more first second =>
      rw [Reply.moved_follow, movedResult, moved_first]
      exact .blockNext stillOpen ahead first second
  | programEnd ended => exact .programEnd ended
  | programStopped ahead stopped ih => exact .programStopped ahead ih
  | programNext ahead read more first second =>
      rw [Reply.moved_follow, movedResult, moved_first]
      exact .programNext ahead first second

end StatementRule

/-- A program reads the same from tokens that are on other lines. -/
theorem program_moved (tokens : List Token) :
    (program (tokens.map (Token.moved move))).val =
      (program tokens).val.moved move (List.map (Stmt.moved move)) :=
  ((StatementRule.reads_answer .program tokens).moved move).answer_eq

end Lox.Grammar
