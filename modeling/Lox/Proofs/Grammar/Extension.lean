import Lox.Proofs.Grammar.Halting

/-!
More tokens at the end. A rule that comes no farther than some token answers alike whatever comes
after that token; only what it leaves is longer, and with it the distance of its errors from the
end. For an expression this token can be any that no expression has, for other rules it is an end
of input: `ExpressionRule.Reads.extended`, `StatementRule.Reads.extended`.
-/

set_option autoImplicit false

namespace Lox

/-- An error that is as many tokens farther from the end. -/
def SyntaxError.extended (count : Nat) (error : SyntaxError) : SyntaxError :=
  { error with remaining := error.remaining + count }

@[simp] theorem SyntaxError.extended_diagnostic (count : Nat) (error : SyntaxError) :
    (error.extended count).diagnostic = error.diagnostic := rfl

theorem SyntaxError.extended_extended (first second : Nat) (error : SyntaxError) :
    (error.extended first).extended second = error.extended (first + second) := by
  simp only [extended, Nat.add_assoc]

namespace Grammar

def Halt.extended (count : Nat) : Halt → Halt
  | .refused error => .refused (error.extended count)
  | .overrun => .overrun

namespace Reply

variable {α β : Type}

/-- An answer to tokens with more tokens at their end. -/
def extended (more : List Token) (reply : Reply α) : Reply α where
  outcome := reply.outcome.mapError (Halt.extended more.length)
  errors := reply.errors.map (SyntaxError.extended more.length)
  rest := reply.rest ++ more

theorem extended_ok (more : List Token) (result : α) (errors : List SyntaxError)
    (rest : List Token) :
    (⟨.ok result, errors, rest⟩ : Reply α).extended more =
      ⟨.ok result, errors.map (SyntaxError.extended more.length), rest ++ more⟩ := rfl

theorem extended_error (more : List Token) (halt : Halt) (errors : List SyntaxError)
    (rest : List Token) :
    (⟨.error halt, errors, rest⟩ : Reply α).extended more =
      ⟨.error (halt.extended more.length), errors.map (SyntaxError.extended more.length),
        rest ++ more⟩ := rfl

theorem extended_follow (more : List Token) (errors : List SyntaxError) (reply : Reply α) :
    (reply.follow errors).extended more =
      (reply.extended more).follow (errors.map (SyntaxError.extended more.length)) := by
  simp only [extended, follow, List.map_append]

theorem extended_map (more : List Token) (f : α → β) (reply : Reply α) :
    (reply.map f).extended more = (reply.extended more).map f := by
  obtain ⟨outcome, errors, rest⟩ := reply
  cases outcome with
  | ok result => rfl
  | error halt => rfl

end Reply

variable (more : List Token)

theorem refuse_extended {α : Type} (cause : SyntaxError.Cause) (token : Token)
    (rest : List Token) :
    (ReplyTo.refuse cause token (rest ++ more) : ReplyTo _ α).val =
      (ReplyTo.refuse cause token rest : ReplyTo _ α).val.extended more := by
  have farther : (rest ++ more).length + 1 = rest.length + 1 + more.length := by
    rw [List.length_append]
    omega
  simp only [ReplyTo.refuse, farther]
  rfl

theorem expect_extended (kind : Token.Kind) (cause : SyntaxError.Cause) {tokens : List Token}
    (inhabited : tokens ≠ []) :
    (expect kind cause (tokens ++ more)).val.val =
      (expect kind cause tokens).val.val.extended more := by
  obtain ⟨token, rest, rfl⟩ := List.exists_cons_of_ne_nil inhabited
  rw [List.cons_append, expect, expect]
  split
  · rfl
  · exact refuse_extended more cause token rest

section Boundary

variable {last : Token}

namespace ExpressionRule

/-- The induction is on the way through the rule. Where a first answer is gone on from, the boundary
is still ahead of what it leaves. -/
theorem Reads.extended {rule : ExpressionRule} {tokens : List Token} {reply : Reply Expr}
    (reads : rule.Reads tokens reply) (bounds : last.kind ∉ expressionKinds)
    (ahead : [last] <:+ tokens) : rule.Reads (tokens ++ more) (reply.extended more) := by
  induction reads with
  | overrun => exact absurd rfl (ne_nil_of_ahead ahead)
  | targetStopped stopped ih => exact .targetStopped (ih ahead)
  | targetLast read ih => exact absurd rfl (ne_nil_of_ahead (read.staysBefore bounds ahead).left)
  | noTarget read other ih => exact .noTarget (ih ahead) other
  | valueStopped read equal stopped first second =>
      have used := mem_expressionKinds_of_kind equal (by decide)
      have beyond := boundary_of_cons bounds used (read.staysBefore bounds ahead).left
      rw [Reply.extended_error, List.map_append]
      exact .valueStopped (first ahead) equal (second beyond)
  | assigned read equal assigned first second =>
      have used := mem_expressionKinds_of_kind equal (by decide)
      have beyond := boundary_of_cons bounds used (read.staysBefore bounds ahead).left
      rw [Reply.extended_ok, List.map_append]
      exact .assigned (first ahead) equal (second beyond)
  | @invalidTarget tokens rest after token target value errors later read equal invalid assigned
      first second =>
      have used := mem_expressionKinds_of_kind equal (by decide)
      have beyond := boundary_of_cons bounds used (read.staysBefore bounds ahead).left
      have farther : rest.length + 1 + more.length = (rest ++ more).length + 1 := by
        rw [List.length_append]
        omega
      rw [Reply.extended_ok, List.map_append, List.map_append, List.map_singleton,
        SyntaxError.extended, farther]
      exact .invalidTarget (first ahead) equal invalid (second beyond)
  | operandStopped stopped ih => exact .operandStopped (ih ahead)
  | operands read goesOn first second =>
      rw [Reply.extended_follow]
      exact .operands (first ahead) (second (read.staysBefore bounds ahead).left)
  | tighter tighter read ih => exact .tighter tighter (ih ahead)
  | tightest tightest read ih => exact .tightest tightest (ih ahead)
  | chainEnd other => exact .chainEnd other
  | chainStopped operator stopped ih =>
      have beyond := boundary_of_cons bounds (mem_expressionKinds_of_operator operator) ahead
      exact .chainStopped operator (ih beyond)
  | chainNext operator read goesOn first second =>
      have beyond := boundary_of_cons bounds (mem_expressionKinds_of_operator operator) ahead
      rw [Reply.extended_follow]
      exact .chainNext operator (first beyond) (second (read.staysBefore bounds beyond).left)
  | operator operator read ih =>
      have beyond := boundary_of_cons bounds (mem_expressionKinds_of_unary operator) ahead
      rw [Reply.extended_map]
      exact .operator operator (ih beyond)
  | noOperator other read ih => exact .noOperator other (ih ahead)
  | atom stands => exact .atom stands
  | innerStopped opens stopped ih =>
      have used := mem_expressionKinds_of_kind opens (by decide)
      exact .innerStopped opens (ih (boundary_of_cons bounds used ahead))
  | group opens read ih =>
      have used := mem_expressionKinds_of_kind opens (by decide)
      have beyond := boundary_of_cons bounds used ahead
      have inhabited := ne_nil_of_ahead (read.staysBefore bounds beyond).left
      rw [Reply.extended_follow, Reply.extended_map, ← expect_extended more _ _ inhabited]
      exact .group opens (ih beyond)
  | @refused token rest none other =>
      have refusal := refuse_extended (α := Expr) more .expressionExpected token rest
      have reads : primary.Reads (token :: rest ++ more) _ := .refused none other
      exact refusal ▸ reads

end ExpressionRule

theorem ReadsTerminated.extended {cause : SyntaxError.Cause} {build : Expr → Stmt}
    {tokens : List Token} {reply : Reply Stmt} (reads : ReadsTerminated cause build tokens reply)
    (bounds : last.kind ∉ expressionKinds) (ahead : [last] <:+ tokens) :
    ReadsTerminated cause build (tokens ++ more) (reply.extended more) := by
  cases reads with
  | stopped stopped => exact .stopped (stopped.extended more bounds ahead)
  | read read =>
      have inhabited := ne_nil_of_ahead (read.staysBefore bounds ahead).left
      rw [Reply.extended_follow, Reply.extended_map, ← expect_extended more _ _ inhabited]
      exact .read (read.extended more bounds ahead)

theorem ReadsVariable.extended {tokens : List Token} {reply : Reply Stmt}
    (reads : ReadsVariable tokens reply) (bounds : last.kind ∉ expressionKinds)
    (ahead : [last] <:+ tokens) : ReadsVariable (tokens ++ more) (reply.extended more) := by
  cases reads with
  | overrun => exact absurd rfl (ne_nil_of_ahead ahead)
  | @noName token rest other =>
      rw [← refuse_extended]
      exact .noName other
  | nameLast named =>
      have used := mem_expressionKinds_of_kind named (by decide)
      exact absurd rfl (ne_nil_of_ahead (boundary_of_cons bounds used ahead))
  | initial named equal read =>
      have afterName :=
        boundary_of_cons bounds (mem_expressionKinds_of_kind named (by decide)) ahead
      have afterEqual :=
        boundary_of_cons bounds (mem_expressionKinds_of_kind equal (by decide)) afterName
      exact .initial named equal (read.extended more bounds afterEqual)
  | @noInitial name token rest named other =>
      rw [Reply.extended_map, ← expect_extended more _ _ (List.cons_ne_nil token rest)]
      exact .noInitial named other

theorem skipStatement_extended (ended : last.isEnd) (skipped : Token) (tokens : List Token)
    (ahead : [last] <:+ tokens) :
    (skipStatement skipped (tokens ++ more)).val =
      (skipStatement skipped tokens).val.extended more := by
  induction tokens generalizing skipped with
  | nil => exact absurd rfl (ne_nil_of_ahead ahead)
  | cons token rest ih =>
      rw [List.cons_append, skipStatement, skipStatement]
      split
      · rfl
      · rename_i goesOn
        have other : ¬token.isEnd := fun isEnd => goesOn (Or.inl isEnd)
        exact ih token (ending_of_cons ended other ahead)

theorem synchronize_extended (ended : last.isEnd) (tokens : List Token)
    (ahead : [last] <:+ tokens) :
    (synchronize (tokens ++ more)).val = (synchronize tokens).val.extended more := by
  obtain ⟨token, rest, rfl⟩ := List.exists_cons_of_ne_nil (ne_nil_of_ahead ahead)
  rw [List.cons_append, synchronize, synchronize]
  by_cases isEnd : token.isEnd
  · rw [if_pos isEnd, if_pos isEnd]
    rfl
  · rw [if_neg isEnd, if_neg isEnd]
    exact skipStatement_extended more ended token rest (ending_of_cons ended isEnd ahead)

namespace StatementRule

theorem Reads.extended {rule : StatementRule} {tokens : List Token} {reply : Reply rule.Result}
    (reads : rule.Reads tokens reply) (ended : last.isEnd) (ahead : [last] <:+ tokens) :
    rule.Reads (tokens ++ more) (reply.extended more) := by
  have bounds := bounds_of_isEnd ended
  induction reads with
  | overrun => exact absurd rfl (ne_nil_of_ahead ahead)
  | variableWord word read =>
      have beyond := ending_of_cons ended (not_isEnd_of_kind word (by decide)) ahead
      exact .variableWord word (read.extended more bounds beyond)
  | otherWord other read ih => exact .otherWord other (ih ahead)
  | declared read ih => exact .declared (ih ahead)
  | attemptOverrun stopped ih => exact .attemptOverrun (ih ahead)
  | recovered stopped ih =>
      have left := (stopped.staysBefore ended ahead).left
      rw [Reply.extended_follow, Reply.extended_map, ← synchronize_extended more ended _ left]
      exact .recovered (ih ahead)
  | print word read =>
      have beyond := ending_of_cons ended (not_isEnd_of_kind word (by decide)) ahead
      exact .print word (read.extended more bounds beyond)
  | braces opens read ih =>
      have beyond := ending_of_cons ended (not_isEnd_of_kind opens (by decide)) ahead
      rw [Reply.extended_map]
      exact .braces opens (ih beyond)
  | expression noPrint noBlock read =>
      exact .expression noPrint noBlock (read.extended more bounds ahead)
  | blockEnd closes => exact .blockEnd closes
  | @unclosed token rest isEnd =>
      have refusal := refuse_extended (α := List Stmt) more .closingBraceExpected token rest
      have reads : StatementRule.block.Reads (token :: rest ++ more) _ := .unclosed isEnd
      exact refusal ▸ reads
  | blockStopped stillOpen other stopped ih => exact .blockStopped stillOpen other (ih ahead)
  | blockNext stillOpen other read goesOn first second =>
      rw [Reply.extended_follow, Reply.extended_map]
      exact .blockNext stillOpen other (first ahead) (second (read.staysBefore ended ahead).left)
  | programEnd isEnd => exact .programEnd isEnd
  | programStopped other stopped ih => exact .programStopped other (ih ahead)
  | programNext other read goesOn first second =>
      rw [Reply.extended_follow, Reply.extended_map]
      exact .programNext other (first ahead) (second (read.staysBefore ended ahead).left)

end StatementRule

end Boundary

end Grammar

end Lox
