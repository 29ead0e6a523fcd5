import Lox.Proofs.Grammar.ExpressionRule
import Lox.Proofs.Grammar.StatementRule

/-!
Where a rule stops. Tokens with an end of input among them are enough for every rule, and no rule
goes past an end: `Reads.staysBefore`. A rule for expressions does not even go past a token that no
expression has, such as a semicolon. A rule that refuses a token stops in front of it, and that
error is the last one recorded: `Reads.refusesAhead`.
-/

set_option autoImplicit false

namespace Lox.Grammar

theorem ne_nil_of_ahead {last : Token} {after tokens : List Token}
    (ahead : last :: after <:+ tokens) : tokens ≠ [] := by
  rintro rfl
  exact List.cons_ne_nil last after (List.suffix_nil.1 ahead)

theorem suffix_of_cons_ne {last token : Token} {after rest : List Token} (other : last ≠ token)
    (ahead : last :: after <:+ token :: rest) : last :: after <:+ rest := by
  rcases List.suffix_cons_iff.1 ahead with same | left
  · rw [List.cons.injEq] at same
    exact absurd same.1 other
  · exact left

/-- The ends of input in some tokens are those after a token that is none. -/
theorem ending_of_cons {last token : Token} {after rest : List Token} (ended : last.isEnd)
    (other : ¬token.isEnd) (ahead : last :: after <:+ token :: rest) : last :: after <:+ rest := by
  apply suffix_of_cons_ne _ ahead
  rintro rfl
  exact other ended

/-- What only the last token can be begins no more than the last token. -/
theorem suffix_eq_last {marked : Token → Prop} {body : List Token}
    (inside : ∀ token ∈ body, ¬marked token) {last found : Token} {after : List Token}
    (isMarked : marked found) (ahead : found :: after <:+ body ++ [last]) :
    found :: after = [last] := by
  induction body with
  | nil =>
      rcases List.suffix_cons_iff.1 ahead with same | beyond
      · exact same
      · exact absurd (List.suffix_nil.1 beyond) (List.cons_ne_nil found after)
  | cons token body ih =>
      rw [List.forall_mem_cons] at inside
      rw [List.cons_append] at ahead
      apply ih inside.2 (suffix_of_cons_ne _ ahead)
      rintro rfl
      exact inside.1 isMarked

/-- The kinds of token that an expression may have. -/
def expressionKinds : List Token.Kind :=
  [.falseWord, .trueWord, .nilWord, .number, .string, .identifier, .leftParen, .rightParen, .equal,
    .bang, .minus, .bangEqual, .equalEqual, .greater, .greaterEqual, .less, .lessEqual, .plus,
    .slash, .star]

/-- A token that no expression has is still ahead after one that an expression has. -/
theorem boundary_of_cons {last token : Token} {after rest : List Token}
    (bounds : last.kind ∉ expressionKinds) (used : token.kind ∈ expressionKinds)
    (ahead : last :: after <:+ token :: rest) : last :: after <:+ rest := by
  apply suffix_of_cons_ne _ ahead
  rintro rfl
  exact bounds used

theorem bounds_of_isEnd {last : Token} (ended : last.isEnd) : last.kind ∉ expressionKinds := by
  rw [Token.isEnd, beq_iff_eq] at ended
  rw [ended]
  decide

theorem mem_expressionKinds_of_kind {token : Token} {kind : Token.Kind} (same : token.kind = kind)
    (member : kind ∈ expressionKinds) : token.kind ∈ expressionKinds := by
  rw [same]
  exact member

theorem mem_expressionKinds_of_operator {tier : Tier} {token : Token}
    (operator : token.kind ∈ tier.operators) : token.kind ∈ expressionKinds := by
  have inside : tier.operators ⊆ expressionKinds := by cases tier <;> decide
  exact inside operator

theorem mem_expressionKinds_of_unary {token : Token} (operator : token.kind ∈ unaryOperators) :
    token.kind ∈ expressionKinds := by
  have inside : unaryOperators ⊆ expressionKinds := by decide
  exact inside operator

theorem mem_expressionKinds_of_atom {token : Token} {atom : Expr}
    (stands : atom? token = some atom) : token.kind ∈ expressionKinds := by
  rw [atom?] at stands
  split at stands
  · exact mem_expressionKinds_of_kind ‹_› (by decide)
  · exact mem_expressionKinds_of_kind ‹_› (by decide)
  · exact mem_expressionKinds_of_kind ‹_› (by decide)
  · exact mem_expressionKinds_of_kind ‹_› (by decide)
  · exact mem_expressionKinds_of_kind ‹_› (by decide)
  · exact mem_expressionKinds_of_kind ‹_› (by decide)
  · cases stands

theorem not_isEnd_of_kind {token : Token} {kind : Token.Kind} (same : token.kind = kind)
    (other : kind ≠ .endOfInput) : ¬token.isEnd := by
  rw [Token.isEnd, beq_iff_eq, same]
  exact other

namespace Reply

variable {α β : Type}

/-- An answer that leaves some tokens, and not for want of a token. -/
structure StaysBefore (reply : Reply α) (ending : List Token) : Prop where
  noOverrun : reply.outcome ≠ .error .overrun
  left : ending <:+ reply.rest

theorem StaysBefore.follow {reply : Reply α} {ending : List Token}
    (stays : reply.StaysBefore ending) (errors : List SyntaxError) :
    (reply.follow errors).StaysBefore ending :=
  ⟨stays.noOverrun, stays.left⟩

theorem StaysBefore.map {reply : Reply α} {ending : List Token}
    (stays : reply.StaysBefore ending) (f : α → β) : (reply.map f).StaysBefore ending := by
  refine ⟨?_, stays.left⟩
  have noOverrun := stays.noOverrun
  rw [Reply.map]
  cases outcome : reply.outcome with
  | ok result => simp [Except.map]
  | error halt =>
      rw [outcome] at noOverrun
      simpa [Except.map] using noOverrun

/-- An answer that refuses no token but the one ahead, and records that error last. -/
def RefusesAhead (reply : Reply α) : Prop :=
  ∀ error, reply.outcome = .error (.refused error) →
    (∃ earlier, reply.errors = earlier ++ [error]) ∧
      ∃ after, reply.rest = error.token :: after ∧ error.remaining = after.length + 1

theorem RefusesAhead.follow {reply : Reply α} (refuses : reply.RefusesAhead)
    (errors : List SyntaxError) : (reply.follow errors).RefusesAhead := by
  intro error stopped
  obtain ⟨⟨earlier, recorded⟩, ahead⟩ := refuses error stopped
  refine ⟨⟨errors ++ earlier, ?_⟩, ahead⟩
  rw [Reply.follow, recorded, List.append_assoc]

theorem RefusesAhead.map {reply : Reply α} (refuses : reply.RefusesAhead) (f : α → β) :
    (reply.map f).RefusesAhead := by
  intro error stopped
  apply refuses error
  rw [Reply.map] at stopped
  cases outcome : reply.outcome with
  | ok result =>
      rw [outcome] at stopped
      cases stopped
  | error halt =>
      rw [outcome] at stopped
      simpa [Except.map] using stopped

theorem refusesAhead_of_ok (result : α) (errors : List SyntaxError) (rest : List Token) :
    RefusesAhead (α := α) ⟨.ok result, errors, rest⟩ := by
  intro error stopped
  cases stopped

theorem refusesAhead_of_error {halt : Halt} {errors : List SyntaxError} {rest : List Token}
    (refuses : RefusesAhead (α := α) ⟨.error halt, errors, rest⟩) (earlier : List SyntaxError) :
    RefusesAhead (α := β) ⟨.error halt, earlier ++ errors, rest⟩ := by
  intro error stopped
  obtain rfl : halt = .refused error := by simpa using stopped
  exact refuses.follow earlier error rfl

theorem refusesAhead_overrun (errors : List SyntaxError) (rest : List Token) :
    RefusesAhead (α := α) ⟨.error .overrun, errors, rest⟩ := by
  intro error stopped
  cases stopped

theorem refusesAhead_refuse (cause : SyntaxError.Cause) (token : Token) (rest : List Token) :
    RefusesAhead (α := α) (ReplyTo.refuse cause token rest).val := by
  intro error stopped
  obtain rfl : ⟨cause, token, rest.length + 1⟩ = error := by
    simpa [ReplyTo.refuse] using stopped
  exact ⟨⟨[], rfl⟩, rest, rfl, rfl⟩

end Reply

section Expect

variable (kind : Token.Kind) (cause : SyntaxError.Cause)

theorem expect_cases (token : Token) (rest : List Token) :
    (token.kind = kind ∧ ¬token.isEnd ∧
      (expect kind cause (token :: rest)).val.val = ⟨.ok token, [], rest⟩) ∨
    (¬(token.kind = kind ∧ ¬token.isEnd) ∧
      (expect kind cause (token :: rest)).val.val = (ReplyTo.refuse cause token rest).val) := by
  by_cases expected : token.kind = kind ∧ ¬token.isEnd
  · refine Or.inl ⟨expected.1, expected.2, ?_⟩
    rw [expect, if_pos expected]
    rfl
  · refine Or.inr ⟨expected, ?_⟩
    rw [expect, if_neg expected]
    rfl

theorem expect_staysBefore {tokens : List Token} {last : Token} {after : List Token}
    (other : ¬(last.kind = kind ∧ ¬last.isEnd)) (ahead : last :: after <:+ tokens) :
    (expect kind cause tokens).val.val.StaysBefore (last :: after) := by
  match tokens with
  | [] => exact absurd rfl (ne_nil_of_ahead ahead)
  | token :: rest =>
      rcases expect_cases kind cause token rest with ⟨expected, notEnd, same⟩ | ⟨-, same⟩
      · rw [same]
        refine ⟨by simp, suffix_of_cons_ne ?_ ahead⟩
        rintro rfl
        exact other ⟨expected, notEnd⟩
      · rw [same]
        exact ⟨by simp [ReplyTo.refuse], ahead⟩

theorem expect_refusesAhead (tokens : List Token) :
    (expect kind cause tokens).val.val.RefusesAhead := by
  match tokens with
  | [] => exact Reply.refusesAhead_overrun [] []
  | token :: rest =>
      rcases expect_cases kind cause token rest with ⟨-, -, same⟩ | ⟨-, same⟩
      · rw [same]
        exact Reply.refusesAhead_of_ok token [] rest
      · rw [same]
        exact Reply.refusesAhead_refuse cause token rest

end Expect

namespace ExpressionRule

/-- The induction is on the way through the rule; a token that is used up is one that an expression
may have. -/
theorem Reads.staysBefore {rule : ExpressionRule} {tokens : List Token} {reply : Reply Expr}
    (reads : rule.Reads tokens reply) {last : Token} {after : List Token}
    (bounds : last.kind ∉ expressionKinds) (ahead : last :: after <:+ tokens) :
    reply.StaysBefore (last :: after) := by
  induction reads with
  | overrun => exact absurd rfl (ne_nil_of_ahead ahead)
  | targetStopped stopped ih => exact ih ahead
  | targetLast read ih =>
      have left := (ih ahead).left
      exact absurd rfl (ne_nil_of_ahead left)
  | noTarget read other ih => exact ih ahead
  | valueStopped read equal stopped first second =>
      have used := mem_expressionKinds_of_kind equal (by decide)
      exact (second (boundary_of_cons bounds used (first ahead).left)).follow _
  | assigned read equal assigned first second =>
      have used := mem_expressionKinds_of_kind equal (by decide)
      exact ⟨by simp, (second (boundary_of_cons bounds used (first ahead).left)).left⟩
  | invalidTarget read equal invalid assigned first second =>
      have used := mem_expressionKinds_of_kind equal (by decide)
      exact ⟨by simp, (second (boundary_of_cons bounds used (first ahead).left)).left⟩
  | operandStopped stopped ih => exact ih ahead
  | operands read more first second => exact (second (first ahead).left).follow _
  | tighter tighter read ih => exact ih ahead
  | tightest tightest read ih => exact ih ahead
  | chainEnd other => exact ⟨by simp, ahead⟩
  | chainStopped operator stopped ih =>
      exact ih (boundary_of_cons bounds (mem_expressionKinds_of_operator operator) ahead)
  | chainNext operator read more first second =>
      have beyond := boundary_of_cons bounds (mem_expressionKinds_of_operator operator) ahead
      exact (second (first beyond).left).follow _
  | operator operator read ih =>
      exact (ih (boundary_of_cons bounds (mem_expressionKinds_of_unary operator) ahead)).map _
  | noOperator other read ih => exact ih ahead
  | atom stands =>
      exact ⟨by simp, boundary_of_cons bounds (mem_expressionKinds_of_atom stands) ahead⟩
  | innerStopped opens stopped ih =>
      exact ih (boundary_of_cons bounds (mem_expressionKinds_of_kind opens (by decide)) ahead)
  | group opens read ih =>
      have used := mem_expressionKinds_of_kind opens (by decide)
      have inside := (ih (boundary_of_cons bounds used ahead)).left
      have other : last.kind ≠ .rightParen := by
        intro closes
        exact bounds (mem_expressionKinds_of_kind closes (by decide))
      exact ((expect_staysBefore _ _ (fun taken => other taken.1) inside).map _).follow _
  | refused none other => exact ⟨by simp, ahead⟩

theorem Reads.refusesAhead {rule : ExpressionRule} {tokens : List Token} {reply : Reply Expr}
    (reads : rule.Reads tokens reply) : reply.RefusesAhead := by
  induction reads with
  | overrun => exact Reply.refusesAhead_overrun [] []
  | targetStopped stopped ih => exact ih
  | targetLast read ih => exact Reply.refusesAhead_overrun _ _
  | noTarget read other ih => exact ih
  | valueStopped read equal stopped first second => exact second.follow _
  | assigned read equal assigned first second => exact Reply.refusesAhead_of_ok _ _ _
  | invalidTarget read equal invalid assigned first second =>
      exact Reply.refusesAhead_of_ok _ _ _
  | operandStopped stopped ih => exact ih
  | operands read more first second => exact second.follow _
  | tighter tighter read ih => exact ih
  | tightest tightest read ih => exact ih
  | chainEnd other => exact Reply.refusesAhead_of_ok _ _ _
  | chainStopped operator stopped ih => exact ih
  | chainNext operator read more first second => exact second.follow _
  | operator operator read ih => exact ih.map _
  | noOperator other read ih => exact ih
  | atom stands => exact Reply.refusesAhead_of_ok _ _ _
  | innerStopped opens stopped ih => exact ih
  | group opens read ih => exact ((expect_refusesAhead _ _ _).map _).follow _
  | refused none other => exact Reply.refusesAhead_refuse _ _ _

end ExpressionRule

theorem skipStatement_staysBefore (skipped : Token) (tokens : List Token) {last : Token}
    {after : List Token} (ended : last.isEnd) (ahead : last :: after <:+ tokens) :
    (skipStatement skipped tokens).val.StaysBefore (last :: after) := by
  induction tokens generalizing skipped with
  | nil => exact absurd rfl (ne_nil_of_ahead ahead)
  | cons token rest ih =>
      rw [skipStatement]
      split
      · exact ⟨by simp [ReplyTo.accept], ahead⟩
      · rename_i goesOn
        have other : ¬token.isEnd := fun isEnd => goesOn (Or.inl isEnd)
        exact ih token (ending_of_cons ended other ahead)

theorem synchronize_staysBefore (tokens : List Token) {last : Token} {after : List Token}
    (ended : last.isEnd) (ahead : last :: after <:+ tokens) :
    (synchronize tokens).val.StaysBefore (last :: after) := by
  match tokens with
  | [] => exact absurd rfl (ne_nil_of_ahead ahead)
  | token :: rest =>
      rw [synchronize]
      by_cases isEnd : token.isEnd
      · rw [if_pos isEnd]
        exact ⟨by simp [ReplyTo.accept], ahead⟩
      · rw [if_neg isEnd]
        exact skipStatement_staysBefore token rest ended (ending_of_cons ended isEnd ahead)

theorem skipStatement_cases (skipped : Token) (tokens : List Token) :
    (∃ rest, (skipStatement skipped tokens).val = ⟨.ok (), [], rest⟩) ∨
      (skipStatement skipped tokens).val = ⟨.error .overrun, [], []⟩ := by
  induction tokens generalizing skipped with
  | nil => exact Or.inr rfl
  | cons token rest ih =>
      rw [skipStatement]
      split
      · exact Or.inl ⟨token :: rest, rfl⟩
      · exact ih token

/-- Skipping records no error. It fails only for want of a token. -/
theorem synchronize_cases (tokens : List Token) :
    (∃ rest, (synchronize tokens).val = ⟨.ok (), [], rest⟩) ∨
      (synchronize tokens).val = ⟨.error .overrun, [], []⟩ := by
  match tokens with
  | [] => exact Or.inr rfl
  | token :: rest =>
      rw [synchronize]
      by_cases isEnd : token.isEnd
      · rw [if_pos isEnd]
        exact Or.inl ⟨token :: rest, rfl⟩
      · rw [if_neg isEnd]
        exact skipStatement_cases token rest

theorem synchronize_errors (tokens : List Token) : (synchronize tokens).val.errors = [] := by
  rcases synchronize_cases tokens with ⟨rest, same⟩ | same
  · rw [same]
  · rw [same]

theorem synchronize_refusesAhead (tokens : List Token) :
    (synchronize tokens).val.RefusesAhead := by
  rcases synchronize_cases tokens with ⟨rest, same⟩ | same
  · rw [same]
    exact Reply.refusesAhead_of_ok () [] rest
  · rw [same]
    exact Reply.refusesAhead_overrun [] []

theorem ReadsTerminated.staysBefore {cause : SyntaxError.Cause} {build : Expr → Stmt}
    {tokens : List Token} {reply : Reply Stmt} (reads : ReadsTerminated cause build tokens reply)
    {last : Token} {after : List Token} (ended : last.isEnd) (ahead : last :: after <:+ tokens) :
    reply.StaysBefore (last :: after) := by
  cases reads with
  | stopped stopped =>
      have stays := stopped.staysBefore (bounds_of_isEnd ended) ahead
      exact ⟨by simpa using stays.noOverrun, stays.left⟩
  | read read =>
      have left := (read.staysBefore (bounds_of_isEnd ended) ahead).left
      exact ((expect_staysBefore _ _ (fun taken => taken.2 ended) left).map _).follow _

theorem ReadsTerminated.refusesAhead {cause : SyntaxError.Cause} {build : Expr → Stmt}
    {tokens : List Token} {reply : Reply Stmt}
    (reads : ReadsTerminated cause build tokens reply) : reply.RefusesAhead := by
  cases reads with
  | stopped stopped => exact Reply.refusesAhead_of_error stopped.refusesAhead []
  | read read => exact ((expect_refusesAhead _ _ _).map _).follow _

theorem ReadsVariable.staysBefore {tokens : List Token} {reply : Reply Stmt}
    (reads : ReadsVariable tokens reply) {last : Token} {after : List Token}
    (ended : last.isEnd) (ahead : last :: after <:+ tokens) :
    reply.StaysBefore (last :: after) := by
  cases reads with
  | overrun => exact absurd rfl (ne_nil_of_ahead ahead)
  | noName other => exact ⟨by simp [ReplyTo.refuse], ahead⟩
  | nameLast named =>
      have beyond := ending_of_cons ended (not_isEnd_of_kind named (by decide)) ahead
      exact absurd rfl (ne_nil_of_ahead beyond)
  | initial named equal read =>
      have afterName := ending_of_cons ended (not_isEnd_of_kind named (by decide)) ahead
      have afterEqual := ending_of_cons ended (not_isEnd_of_kind equal (by decide)) afterName
      exact read.staysBefore ended afterEqual
  | noInitial named other =>
      have afterName := ending_of_cons ended (not_isEnd_of_kind named (by decide)) ahead
      exact (expect_staysBefore _ _ (fun taken => taken.2 ended) afterName).map _

theorem ReadsVariable.refusesAhead {tokens : List Token} {reply : Reply Stmt}
    (reads : ReadsVariable tokens reply) : reply.RefusesAhead := by
  cases reads with
  | overrun => exact Reply.refusesAhead_overrun [] []
  | noName other => exact Reply.refusesAhead_refuse _ _ _
  | nameLast named => exact Reply.refusesAhead_overrun [] []
  | initial named equal read => exact read.refusesAhead
  | noInitial named other => exact (expect_refusesAhead _ _ _).map _

namespace StatementRule

theorem Reads.staysBefore {rule : StatementRule} {tokens : List Token}
    {reply : Reply rule.Result} (reads : rule.Reads tokens reply) {last : Token}
    {after : List Token} (ended : last.isEnd) (ahead : last :: after <:+ tokens) :
    reply.StaysBefore (last :: after) := by
  induction reads with
  | overrun => exact absurd rfl (ne_nil_of_ahead ahead)
  | variableWord word read =>
      exact read.staysBefore ended (ending_of_cons ended (not_isEnd_of_kind word (by decide)) ahead)
  | otherWord other read ih => exact ih ahead
  | declared read ih => exact ⟨by simp, (ih ahead).left⟩
  | attemptOverrun stopped ih => exact absurd rfl (ih ahead).noOverrun
  | recovered stopped ih =>
      exact ((synchronize_staysBefore _ ended (ih ahead).left).map _).follow _
  | print word read =>
      exact read.staysBefore ended (ending_of_cons ended (not_isEnd_of_kind word (by decide)) ahead)
  | braces opens read ih =>
      exact (ih (ending_of_cons ended (not_isEnd_of_kind opens (by decide)) ahead)).map _
  | expression noPrint noBlock read => exact read.staysBefore ended ahead
  | blockEnd closes =>
      exact ⟨by simp, ending_of_cons ended (not_isEnd_of_kind closes (by decide)) ahead⟩
  | unclosed isEnd => exact ⟨by simp, ahead⟩
  | blockStopped stillOpen other stopped ih =>
      have stays := ih ahead
      exact ⟨by simpa using stays.noOverrun, stays.left⟩
  | blockNext stillOpen other read more first second =>
      exact ((second (first ahead).left).map _).follow _
  | programEnd isEnd => exact ⟨by simp, ahead⟩
  | programStopped other stopped ih =>
      have stays := ih ahead
      exact ⟨by simpa using stays.noOverrun, stays.left⟩
  | programNext other read more first second =>
      exact ((second (first ahead).left).map _).follow _

theorem Reads.refusesAhead {rule : StatementRule} {tokens : List Token}
    {reply : Reply rule.Result} (reads : rule.Reads tokens reply) : reply.RefusesAhead := by
  induction reads with
  | overrun => exact Reply.refusesAhead_overrun [] []
  | variableWord word read => exact read.refusesAhead
  | otherWord other read ih => exact ih
  | declared read ih => exact Reply.refusesAhead_of_ok _ _ _
  | attemptOverrun stopped ih => exact Reply.refusesAhead_overrun _ _
  | recovered stopped ih => exact ((synchronize_refusesAhead _).map _).follow _
  | print word read => exact read.refusesAhead
  | braces opens read ih => exact ih.map _
  | expression noPrint noBlock read => exact read.refusesAhead
  | blockEnd closes => exact Reply.refusesAhead_of_ok _ _ _
  | unclosed isEnd => exact Reply.refusesAhead_refuse _ _ _
  | blockStopped stillOpen other stopped ih => exact Reply.refusesAhead_of_error ih []
  | blockNext stillOpen other read more first second => exact (second.map _).follow _
  | programEnd isEnd => exact Reply.refusesAhead_of_ok _ _ _
  | programStopped other stopped ih => exact Reply.refusesAhead_of_error ih []
  | programNext other read more first second => exact (second.map _).follow _

end StatementRule

end Lox.Grammar
