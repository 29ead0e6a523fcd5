import Lox.Proofs.Grammar.Relaxed

/-!
What is read is derived in the relaxed grammar. A rule for expressions that comes to a result has
used up tokens that its symbol derives, and the token ahead does not go on with them:
`ExpressionRule.Reads.relaxed`, `ExpressionRule.Reads.stops`. The same holds of statements in which
nothing but a target is wrong: `StatementRule.Reads.relaxed`.
-/

set_option autoImplicit false

namespace Lox.Grammar

namespace ExpressionRule

def symbol : ExpressionRule → Symbol
  | .assignment => .assignment
  | .binary tier => .binary tier
  | .operand tier => .operand tier
  | .chain tier _ => .chain tier
  | .unary => .unary
  | .primary => .primary

/-- A rule that comes to a result records the errors of targets only. -/
theorem Reads.quiet {rule : ExpressionRule} {tokens : List Token} {reply : Reply Expr}
    (reads : rule.Reads tokens reply) (tree : Expr) (went : reply.outcome = .ok tree) :
    firstUnwinding? reply.errors = none := by
  induction reads generalizing tree with
  | overrun => cases went
  | targetStopped stopped ih => cases went
  | targetLast read ih => cases went
  | noTarget read other ih => exact ih tree went
  | valueStopped read equal stopped first second => cases went
  | assigned read equal assigned first second => simp [first _ rfl, second _ rfl]
  | invalidTarget read equal invalid assigned first second => simp [first _ rfl, second _ rfl]
  | operandStopped stopped ih => cases went
  | operands read more first second => simp [Reply.follow, first _ rfl, second tree went]
  | tighter tighter read ih => exact ih tree went
  | tightest tightest read ih => exact ih tree went
  | chainEnd other => rfl
  | chainStopped operator stopped ih => cases went
  | chainNext operator read more first second =>
      simp [Reply.follow, first _ rfl, second tree went]
  | operator operator read ih =>
      obtain ⟨inner, inside, -⟩ := Reply.ok_of_map went
      exact ih inner inside
  | noOperator other read ih => exact ih tree went
  | atom stands => rfl
  | innerStopped opens stopped ih => cases went
  | group opens read ih =>
      obtain ⟨token, closed, -⟩ := Reply.ok_of_map went
      simp [Reply.follow, Reply.map, ih _ rfl, (expect_ok closed).2.1]
  | refused none other => cases went

/-- What a rule uses up is derived. -/
theorem Reads.relaxed {rule : ExpressionRule} {tokens : List Token} {reply : Reply Expr}
    (reads : rule.Reads tokens reply) (tree : Expr) (went : reply.outcome = .ok tree) :
    ∃ used, tokens = used ++ reply.rest ∧ Relaxed rule.symbol used := by
  induction reads generalizing tree with
  | overrun => cases went
  | targetStopped stopped ih => cases went
  | targetLast read ih => cases went
  | noTarget read other ih =>
      obtain ⟨used, same, value⟩ := ih tree went
      exact ⟨used, same, .equality value⟩
  | valueStopped read equal stopped first second => cases went
  | @assigned tokens rest after token name value errors later read equal assigned first second =>
      obtain ⟨front, rfl, target⟩ := first _ rfl
      obtain ⟨back, rfl, right⟩ := second _ rfl
      exact ⟨front ++ token :: back, by simp, .assign target equal right⟩
  | @invalidTarget tokens rest after token target value errors later read equal invalid assigned
      first second =>
      obtain ⟨front, rfl, left⟩ := first _ rfl
      obtain ⟨back, rfl, right⟩ := second _ rfl
      exact ⟨front ++ token :: back, by simp, .assign left equal right⟩
  | operandStopped stopped ih => cases went
  | operands read more first second =>
      obtain ⟨front, rfl, operand⟩ := first _ rfl
      obtain ⟨back, same, chain⟩ := second tree went
      exact ⟨front ++ back, by simp [same, Reply.follow], .binary operand chain⟩
  | tighter tighter read ih =>
      obtain ⟨used, same, operand⟩ := ih tree went
      exact ⟨used, same, .tighter (Tier.hasOperands_iff.2 tighter) operand⟩
  | @tightest tier tokens reply tightest read ih =>
      obtain rfl : tier = .multiplication := by
        cases tier <;> first | rfl | cases tightest
      obtain ⟨used, same, operand⟩ := ih tree went
      exact ⟨used, same, .tightest operand⟩
  | chainEnd other => exact ⟨[], rfl, .chainEnd⟩
  | chainStopped operator stopped ih => cases went
  | @chainNext tier soFar right token rest after errors reply operator read more first second =>
      obtain ⟨front, rfl, operand⟩ := first _ rfl
      obtain ⟨back, same, chain⟩ := second tree went
      exact ⟨token :: (front ++ back), by simp [same, Reply.follow],
        .chainNext (Tier.hasOperator_iff.2 operator) operand chain⟩
  | @operator token rest reply operator read ih =>
      obtain ⟨inner, inside, -⟩ := Reply.ok_of_map went
      obtain ⟨used, same, operand⟩ := ih inner inside
      exact ⟨token :: used, congrArg _ same, .unary (isUnaryOperator_iff.2 operator) operand⟩
  | noOperator other read ih =>
      obtain ⟨used, same, operand⟩ := ih tree went
      exact ⟨used, same, .primary operand⟩
  | @atom token rest atom stands => exact ⟨[token], rfl, .atom (standsFor_of_atom? stands)⟩
  | innerStopped opens stopped ih => cases went
  | @group token rest after inner errors opens read ih =>
      obtain ⟨right, closed, -⟩ := Reply.ok_of_map went
      obtain ⟨closes, -, ahead⟩ := expect_ok closed
      obtain ⟨used, rfl, value⟩ := ih _ rfl
      have split := congrArg (token :: used ++ ·) ahead
      refine ⟨token :: (used ++ [right]), split.trans ?_, .group opens value closes⟩
      simp [Reply.follow, Reply.map]
  | refused none other => cases went

end ExpressionRule

namespace Symbol

/-- The token ahead, if there is one, does not go on with a symbol. -/
def Stops (symbol : Symbol) (tokens : List Token) : Prop :=
  ∀ token ∈ tokens.head?, ¬symbol.Continues token.kind

theorem Stops.mono {outer inner : Symbol} {tokens : List Token} (stops : outer.Stops tokens)
    (less : ∀ kind, inner.Continues kind → outer.Continues kind) : inner.Stops tokens := by
  intro token ahead goesOn
  exact stops token ahead (less token.kind goesOn)

/-- Neither an equals sign nor an operator goes on with an assignment. -/
theorem Stops.assignment {token : Token} {rest : List Token}
    (stops : (binary .equality).Stops (token :: rest)) (other : token.kind ≠ .equal) :
    Symbol.assignment.Stops (token :: rest) := by
  rintro _ ⟨⟩ (equal | ⟨tier, operator⟩)
  · exact other equal
  · exact stops token rfl ⟨tier, tier.rank_le, operator⟩

theorem Stops.operand {tier next : Tier} {tokens : List Token} (stops : (binary next).Stops tokens)
    (tighter : tier.tighter? = some next) : (Symbol.operand tier).Stops tokens := by
  apply stops.mono
  rintro kind ⟨inner, lower, operator⟩
  refine ⟨inner, ?_, operator⟩
  have step : tier.rank = next.rank + 1 := by
    cases tier <;> cases tighter <;> rfl
  omega

theorem stops_tightest {tier : Tier} (tightest : tier.tighter? = none) (tokens : List Token) :
    (Symbol.operand tier).Stops tokens := by
  rintro token - ⟨inner, lower, -⟩
  have least : tier.rank = 1 := by
    cases tier <;> first | rfl | cases tightest
  have positive := inner.rank_pos
  omega

/-- What goes on with operands of a tier is an operator of it or goes on with the last operand. -/
theorem Stops.binary {tier : Tier} {token : Token} {rest : List Token}
    (stops : (Symbol.operand tier).Stops (token :: rest)) (other : token.kind ∉ tier.operators) :
    (Symbol.binary tier).Stops (token :: rest) := by
  rintro _ ⟨⟩ ⟨inner, within, operator⟩
  by_cases lower : inner.rank < tier.rank
  · exact stops token rfl ⟨inner, lower, operator⟩
  · have same : inner = tier := by
      have equal : inner.rank = tier.rank := by omega
      revert equal
      cases inner <;> cases tier <;> decide
    exact other (same ▸ operator)

end Symbol

namespace ExpressionRule

/-- The rest does not go on with what a rule has read. A chain goes on with the operand before
it. -/
def LeavesStopped (rule : ExpressionRule) (tokens rest : List Token) : Prop :=
  match rule with
  | .chain tier _ => (Symbol.operand tier).Stops tokens → (Symbol.binary tier).Stops rest
  | rule => rule.symbol.Stops rest

theorem Reads.stops {rule : ExpressionRule} {tokens : List Token} {reply : Reply Expr}
    (reads : rule.Reads tokens reply) (tree : Expr) (went : reply.outcome = .ok tree) :
    rule.LeavesStopped tokens reply.rest := by
  induction reads generalizing tree with
  | overrun => cases went
  | targetStopped stopped ih => cases went
  | targetLast read ih => cases went
  | noTarget read other ih => exact (ih tree went).assignment other
  | valueStopped read equal stopped first second => cases went
  | assigned read equal assigned first second => exact second _ rfl
  | invalidTarget read equal invalid assigned first second => exact second _ rfl
  | operandStopped stopped ih => cases went
  | operands read more first second => exact second tree went (first _ rfl)
  | tighter tighter read ih => exact (ih tree went).operand tighter
  | tightest tightest read ih => exact Symbol.stops_tightest tightest _
  | chainEnd other => exact fun stops => stops.binary other
  | chainStopped operator stopped ih => cases went
  | chainNext operator read more first second => exact fun _ => second tree went (first _ rfl)
  | operator operator read ih => exact fun _ _ goesOn => goesOn
  | noOperator other read ih => exact fun _ _ goesOn => goesOn
  | atom stands => exact fun _ _ goesOn => goesOn
  | innerStopped opens stopped ih => cases went
  | group opens read ih => exact fun _ _ goesOn => goesOn
  | refused none other => cases went

end ExpressionRule

/-! An error for which a rule stops is not that of a target. -/

theorem Reply.refused_of_map {α β : Type} (reply : Reply α) {f : α → β} {halt : Halt}
    (refused : (reply.map f).outcome = .error halt) : reply.outcome = .error halt := by
  rw [Reply.map] at refused
  cases outcome : reply.outcome with
  | ok result =>
      rw [outcome] at refused
      cases refused
  | error other =>
      rw [outcome] at refused
      simpa [Except.map] using refused

theorem expect_unwinds {kind : Token.Kind} {cause : SyntaxError.Cause}
    (unwinding : cause ≠ .invalidTarget) {tokens : List Token} {error : SyntaxError}
    (refused : (expect kind cause tokens).val.val.outcome = .error (.refused error)) :
    error.unwinds := by
  match tokens with
  | [] => cases refused
  | token :: rest =>
      rcases expect_cases kind cause token rest with ⟨-, -, found⟩ | ⟨-, found⟩
      · rw [found] at refused
        cases refused
      · rw [found] at refused
        obtain rfl : ⟨cause, token, rest.length + 1⟩ = error := by
          simpa [ReplyTo.refuse] using refused
        simpa [SyntaxError.unwinds] using unwinding

theorem ExpressionRule.Reads.unwinds {rule : ExpressionRule} {tokens : List Token}
    {reply : Reply Expr} (reads : rule.Reads tokens reply) (error : SyntaxError)
    (refused : reply.outcome = .error (.refused error)) : error.unwinds := by
  induction reads with
  | overrun => cases refused
  | targetStopped stopped ih => exact ih (by simpa using refused)
  | targetLast read ih => cases refused
  | noTarget read other ih => cases refused
  | valueStopped read equal stopped first second => exact second (by simpa using refused)
  | assigned read equal assigned first second => cases refused
  | invalidTarget read equal invalid assigned first second => cases refused
  | operandStopped stopped ih => exact ih (by simpa using refused)
  | operands read more first second => exact second refused
  | tighter tighter read ih => exact ih refused
  | tightest tightest read ih => exact ih refused
  | chainEnd other => cases refused
  | chainStopped operator stopped ih => exact ih (by simpa using refused)
  | chainNext operator read more first second => exact second refused
  | operator operator read ih => exact ih (Reply.refused_of_map _ refused)
  | noOperator other read ih => exact ih refused
  | atom stands => cases refused
  | innerStopped opens stopped ih => exact ih (by simpa using refused)
  | group opens read ih =>
      exact expect_unwinds (by decide) (Reply.refused_of_map (expect _ _ _).val.val refused)
  | refused none other =>
      cases refused
      rfl

theorem ReadsTerminated.unwinds {cause : SyntaxError.Cause} {build : Expr → Stmt}
    {tokens : List Token} {reply : Reply Stmt} (reads : ReadsTerminated cause build tokens reply)
    (unwinding : cause ≠ .invalidTarget) (error : SyntaxError)
    (refused : reply.outcome = .error (.refused error)) : error.unwinds := by
  cases reads with
  | stopped stopped => exact stopped.unwinds error (by simpa using refused)
  | read read =>
      exact expect_unwinds unwinding
        (Reply.refused_of_map (expect _ _ _).val.val refused)

theorem ReadsVariable.unwinds {tokens : List Token} {reply : Reply Stmt}
    (reads : ReadsVariable tokens reply) (error : SyntaxError)
    (refused : reply.outcome = .error (.refused error)) : error.unwinds := by
  cases reads with
  | overrun => cases refused
  | noName other =>
      cases refused
      rfl
  | nameLast named => cases refused
  | initial named equal read => exact read.unwinds (by decide) error refused
  | noInitial named other =>
      exact expect_unwinds (by decide) (Reply.refused_of_map (expect _ _ _).val.val refused)

namespace StatementRule

theorem Reads.unwinds {rule : StatementRule} {tokens : List Token} {reply : Reply rule.Result}
    (reads : rule.Reads tokens reply) (error : SyntaxError)
    (refused : reply.outcome = .error (.refused error)) : error.unwinds := by
  induction reads with
  | overrun => cases refused
  | variableWord word read => exact read.unwinds error refused
  | otherWord other read ih => exact ih refused
  | declared read ih => cases refused
  | attemptOverrun stopped ih => cases refused
  | @recovered tokens rest error errors stopped ih =>
      rcases synchronize_cases rest with ⟨after, same⟩ | same
      · rw [same] at refused
        cases refused
      · rw [same] at refused
        cases refused
  | print word read => exact read.unwinds (by decide) error refused
  | braces opens read ih => exact ih (Reply.refused_of_map _ refused)
  | expression noPrint noBlock read => exact read.unwinds (by decide) error refused
  | blockEnd closes => cases refused
  | unclosed ended =>
      cases refused
      rfl
  | blockStopped stillOpen ahead stopped ih => exact ih (by simpa using refused)
  | blockNext stillOpen ahead read more first second =>
      exact second (Reply.refused_of_map _ refused)
  | programEnd ended => cases refused
  | programStopped ahead stopped ih => exact ih (by simpa using refused)
  | programNext ahead read more first second => exact second (Reply.refused_of_map _ refused)

/-- An answer that refuses a token is not quiet: that error is recorded. -/
theorem Reads.loud_of_refused {rule : StatementRule} {tokens rest : List Token}
    {errors : List SyntaxError} {error : SyntaxError}
    (reads : rule.Reads tokens ⟨.error (.refused error), errors, rest⟩) :
    firstUnwinding? errors ≠ none := by
  obtain ⟨⟨earlier, recorded⟩, -⟩ := reads.refusesAhead error rfl
  have unwinds := reads.unwinds error rfl
  dsimp only at recorded
  rw [recorded, firstUnwinding?_append]
  simp [firstUnwinding?, unwinds]

end StatementRule

theorem ReadsTerminated.relaxed {cause : SyntaxError.Cause} {build : Expr → Stmt}
    {tokens : List Token} {reply : Reply Stmt} (reads : ReadsTerminated cause build tokens reply)
    (statement : Stmt) (went : reply.outcome = .ok statement) :
    ∃ value semicolon, semicolon.kind = .semicolon ∧ Relaxed .assignment value ∧
      tokens = value ++ semicolon :: reply.rest := by
  cases reads with
  | stopped stopped => cases went
  | read read =>
      obtain ⟨semicolon, closed, -⟩ := Reply.ok_of_map went
      obtain ⟨closes, -, ahead⟩ := expect_ok closed
      obtain ⟨value, rfl, derived⟩ := read.relaxed _ rfl
      exact ⟨value, semicolon, closes, derived, congrArg (value ++ ·) ahead⟩

theorem ReadsVariable.relaxed {tokens : List Token} {reply : Reply Stmt}
    (reads : ReadsVariable tokens reply) (statement : Stmt)
    (went : reply.outcome = .ok statement) {word : Token} (isWord : word.kind = .varWord) :
    ∃ used, tokens = used ++ reply.rest ∧ Relaxed .declaration (word :: used) := by
  cases reads with
  | overrun => cases went
  | noName other => cases went
  | nameLast named => cases went
  | @initial name token rest reply named equal read =>
      obtain ⟨value, semicolon, closes, derived, rfl⟩ := read.relaxed statement went
      exact ⟨name :: token :: (value ++ [semicolon]), by simp,
        .initialized isWord named equal derived closes⟩
  | @noInitial name token rest named other =>
      obtain ⟨semicolon, closed, -⟩ := Reply.ok_of_map went
      obtain ⟨closes, -, ahead⟩ := expect_ok closed
      exact ⟨[name, semicolon], congrArg (name :: ·) ahead, .variable isWord named closes⟩

namespace StatementRule

/-- The tokens that a rule uses up, in the relaxed grammar. A block is read with the brace that
closes it. -/
def Covers (rule : StatementRule) (tokens : List Token) : Prop :=
  match rule with
  | .attempt => Relaxed .declaration tokens
  | .declaration => Relaxed .declaration tokens
  | .statement => Relaxed .declaration tokens
  | .block => ∃ body right, right.kind = .rightBrace ∧ tokens = body ++ [right] ∧
    Relaxed .declarations body
  | .program => Relaxed .declarations tokens

/-- What is read is derived, if nothing but targets is wrong in it. -/
theorem Reads.relaxed {rule : StatementRule} {tokens : List Token} {reply : Reply rule.Result}
    (reads : rule.Reads tokens reply) (result : rule.Result) (went : reply.outcome = .ok result)
    (quiet : firstUnwinding? reply.errors = none) :
    ∃ used, tokens = used ++ reply.rest ∧ rule.Covers used := by
  induction reads with
  | overrun => cases went
  | variableWord word read =>
      obtain ⟨used, same, derived⟩ := read.relaxed result went word
      exact ⟨_ :: used, congrArg _ same, derived⟩
  | otherWord other read ih => exact ih result went quiet
  | declared read ih => exact ih _ rfl quiet
  | attemptOverrun stopped ih => cases went
  | recovered stopped ih =>
      rw [Reply.follow, firstUnwinding?_append] at quiet
      exact absurd (Option.or_eq_none_iff.1 quiet).1 stopped.loud_of_refused
  | print word read =>
      obtain ⟨value, semicolon, closes, derived, rfl⟩ := read.relaxed result went
      exact ⟨_ :: (value ++ [semicolon]), by simp, .print word derived closes⟩
  | braces opens read ih =>
      obtain ⟨statements, inside, -⟩ := Reply.ok_of_map went
      obtain ⟨used, same, body, right, closes, rfl, derived⟩ := ih statements inside quiet
      exact ⟨_ :: (body ++ [right]), congrArg _ same, .block opens derived closes⟩
  | expression noPrint noBlock read =>
      obtain ⟨value, semicolon, closes, derived, same⟩ := read.relaxed result went
      exact ⟨value ++ [semicolon], by simp [same], .expression derived closes⟩
  | blockEnd closes => exact ⟨[_], rfl, [], _, closes, rfl, .nothing⟩
  | unclosed ended => cases went
  | blockStopped stillOpen ahead stopped ih => cases went
  | blockNext stillOpen ahead read more first second =>
      rw [Reply.follow, firstUnwinding?_append] at quiet
      obtain ⟨noError, noLater⟩ := Option.or_eq_none_iff.1 quiet
      obtain ⟨later, inside, -⟩ := Reply.ok_of_map went
      obtain ⟨front, same, head⟩ := first _ rfl noError
      obtain ⟨back, rfl, body, right, closes, rfl, tail⟩ := second later inside noLater
      exact ⟨front ++ (body ++ [right]), by simp [same, Reply.follow, Reply.map], front ++ body,
        right, closes, by simp, .next head tail⟩
  | programEnd ended => exact ⟨[], rfl, .nothing⟩
  | programStopped ahead stopped ih => cases went
  | programNext ahead read more first second =>
      rw [Reply.follow, firstUnwinding?_append] at quiet
      obtain ⟨noError, noLater⟩ := Option.or_eq_none_iff.1 quiet
      obtain ⟨later, inside, -⟩ := Reply.ok_of_map went
      obtain ⟨front, same, head⟩ := first _ rfl noError
      obtain ⟨back, rfl, tail⟩ := second later inside noLater
      exact ⟨front ++ back, by simp [same, Reply.follow, Reply.map], .next head tail⟩

end StatementRule

end Lox.Grammar
