import Lox.Proofs.Grammar.Exactness
import Lox.Proofs.Grammar.RelaxedSoundness

/-!
The first error blames the right token: `program_blames`. The tokens in front of the blamed one can
be completed to a program of the relaxed grammar, and no program begins with them and the blamed
one. What is missing is completed from the innermost rule outwards, and a rule that refuses a token
refuses it whatever comes after that.
-/

set_option autoImplicit false

namespace Lox.Grammar

/-- An error blames the first token that is wrong: the tokens in front of it can be made longer to
what is derived, and with it, whatever comes after it, they fail. -/
def Blames (derives fails : List Token → Prop) (tokens : List Token) (error : SyntaxError) : Prop :=
  ∃ used after, tokens = used ++ error.token :: after ∧ error.remaining = after.length + 1 ∧
    (∃ more, derives (used ++ more)) ∧ ∀ other, fails (used ++ error.token :: other)

namespace Blames

theorem here {derives fails : List Token → Prop} {cause : SyntaxError.Cause} {token : Token}
    (rest more : List Token) (completed : derives more)
    (refused : ∀ other, fails (token :: other)) :
    Blames derives fails (token :: rest) ⟨cause, token, rest.length + 1⟩ :=
  ⟨[], rest, rfl, rfl, ⟨more, completed⟩, refused⟩

/-- With other tokens after the blamed one, the first token is the same. -/
theorem head?_eq (used after : List Token) (token : Token) (other : List Token) :
    (used ++ token :: other).head? = (used ++ token :: after).head? := by
  cases used with
  | nil => rfl
  | cons first used => rfl

variable {derives fails derives' fails' : List Token → Prop} {tokens : List Token}
  {error : SyntaxError}

/-- What is blamed in a part of the tokens is blamed in the whole. -/
theorem after (front : List Token) (blames : Blames derives fails tokens error)
    (completes : ∀ inner, derives inner → ∃ more, derives' (front ++ inner ++ more))
    (follows : ∀ inner, inner.head? = tokens.head? → fails inner → fails' (front ++ inner)) :
    Blames derives' fails' (front ++ tokens) error := by
  obtain ⟨used, after, rfl, stands, ⟨more, derived⟩, refused⟩ := blames
  obtain ⟨last, completed⟩ := completes (used ++ more) derived
  refine ⟨front ++ used, after, (List.append_assoc _ _ _).symm, stands, ⟨more ++ last, ?_⟩, ?_⟩
  · simpa using completed
  · intro other
    rw [List.append_assoc]
    exact follows _ (head?_eq used after error.token other) (refused other)

theorem imp (blames : Blames derives fails tokens error)
    (completes : ∀ inner, derives inner → ∃ more, derives' (inner ++ more))
    (follows : ∀ inner, inner.head? = tokens.head? → fails inner → fails' inner) :
    Blames derives' fails' tokens error :=
  blames.after [] completes follows

/-- What completes the part may complete the whole. -/
theorem extend (front : List Token) (blames : Blames derives fails tokens error)
    (completes : ∀ inner, derives inner → derives' (front ++ inner))
    (follows : ∀ inner, inner.head? = tokens.head? → fails inner → fails' (front ++ inner)) :
    Blames derives' fails' (front ++ tokens) error := by
  refine blames.after front (fun inner derived => ⟨[], ?_⟩) follows
  rw [List.append_nil]
  exact completes inner derived

theorem mono (blames : Blames derives fails tokens error)
    (completes : ∀ inner, derives inner → derives' inner)
    (follows : ∀ inner, inner.head? = tokens.head? → fails inner → fails' inner) :
    Blames derives' fails' tokens error :=
  blames.extend [] completes follows

end Blames

/-- Some token of a kind. -/
def tokenOf (kind : Token.Kind) : Token :=
  ⟨kind, "", .nil, 0⟩

section Unwinding

variable {errors later : List SyntaxError}

theorem loud_append (loud : firstUnwinding? later ≠ none) :
    firstUnwinding? (errors ++ later) ≠ none := by
  rw [firstUnwinding?_append, ne_eq, Option.or_eq_none_iff]
  exact fun quiet => loud quiet.2

theorem loud_append_of_loud (loud : firstUnwinding? errors ≠ none) :
    firstUnwinding? (errors ++ later) ≠ none := by
  rw [firstUnwinding?_append, ne_eq, Option.or_eq_none_iff]
  exact fun quiet => loud quiet.1

theorem found_later {error : SyntaxError} (found : firstUnwinding? (errors ++ later) = some error)
    (quiet : firstUnwinding? errors = none) : firstUnwinding? later = some error := by
  rw [firstUnwinding?_append, quiet, Option.none_or] at found
  exact found

end Unwinding

section Single

variable {error : SyntaxError} (unwinds : error.unwinds)

include unwinds

theorem firstUnwinding?_singleton : firstUnwinding? [error] = some error := by
  simp [firstUnwinding?, unwinds]

theorem loud_singleton : firstUnwinding? [error] ≠ none := by
  rw [firstUnwinding?_singleton unwinds]
  exact Option.some_ne_none _

theorem eq_of_singleton {first : SyntaxError} (found : firstUnwinding? [error] = some first) :
    error = first := by
  rw [firstUnwinding?_singleton unwinds] at found
  exact Option.some.inj found

end Single

/-- A token is needed that the one ahead is not. -/
def ExpectFails (kind : Token.Kind) (cause : SyntaxError.Cause) (tokens : List Token) : Prop :=
  ∃ token rest error, tokens = token :: rest ∧
    (expect kind cause tokens).val.val = ⟨.error (.refused error), [error], tokens⟩ ∧
      firstUnwinding? [error] ≠ none

theorem expect_blames {kind : Token.Kind} {cause : SyntaxError.Cause}
    (unwinding : cause ≠ .invalidTarget) {tokens : List Token} {error : SyntaxError}
    (found : firstUnwinding? (expect kind cause tokens).val.val.errors = some error) :
    Blames (fun used => ∃ token : Token, used = [token] ∧ token.kind = kind)
      (ExpectFails kind cause) tokens error := by
  match tokens with
  | [] => cases found
  | token :: rest =>
      have unwinds (remaining : Nat) : (⟨cause, token, remaining⟩ : SyntaxError).unwinds := by
        simpa [SyntaxError.unwinds] using unwinding
      rcases expect_cases kind cause token rest with ⟨-, -, same⟩ | ⟨other, same⟩
      · rw [same] at found
        cases found
      · rw [same] at found
        obtain rfl := eq_of_singleton (unwinds _) found
        refine Blames.here rest [tokenOf kind] ⟨_, rfl, rfl⟩ fun others => ?_
        refine ⟨token, others, ⟨cause, token, others.length + 1⟩, rfl, ?_, ?_⟩
        · rw [expect, if_neg other]
          rfl
        · exact loud_singleton (unwinds _)

namespace ExpressionRule

/-- A rule for expressions stops for an error. A chain does so whatever is read before it. -/
def Fails : ExpressionRule → List Token → Prop
  | .chain tier _, tokens => ∀ soFar, ∃ halt errors rest,
    (ExpressionRule.chain tier soFar).Reads tokens ⟨.error halt, errors, rest⟩ ∧
      firstUnwinding? errors ≠ none
  | rule, tokens => ∃ halt errors rest,
    rule.Reads tokens ⟨.error halt, errors, rest⟩ ∧ firstUnwinding? errors ≠ none

/-- A chain in which there is an error begins with an operator. -/
theorem Reads.operator_of_chain {tier : Tier} {soFar : Expr} {tokens : List Token}
    {reply : Reply Expr} (reads : (ExpressionRule.chain tier soFar).Reads tokens reply)
    {error : SyntaxError} (found : firstUnwinding? reply.errors = some error) :
    ∃ token ∈ tokens.head?, token.kind ∈ tier.operators := by
  cases reads with
  | overrun => cases found
  | chainEnd other => cases found
  | chainStopped operator stopped => exact ⟨_, rfl, operator⟩
  | chainNext operator read more => exact ⟨_, rfl, operator⟩

theorem Reads.blames {rule : ExpressionRule} {tokens : List Token} {reply : Reply Expr}
    (reads : rule.Reads tokens reply) (error : SyntaxError)
    (found : firstUnwinding? reply.errors = some error) :
    Blames (Relaxed rule.symbol) rule.Fails tokens error := by
  induction reads with
  | overrun => cases found
  | targetStopped stopped ih =>
      refine (ih found).mono (fun inner value => .equality value) ?_
      rintro inner - ⟨halt, errors, rest, reads, loud⟩
      exact ⟨halt, errors, rest, .targetStopped reads, loud⟩
  | targetLast read ih =>
      rw [read.quiet _ rfl] at found
      cases found
  | noTarget read other ih =>
      rw [read.quiet _ rfl] at found
      cases found
  | @valueStopped tokens rest after token target errors later halt read equal stopped first
      second =>
      have found := found_later found (read.quiet _ rfl)
      obtain ⟨front, rfl, left⟩ := read.relaxed _ rfl
      dsimp only
      rw [List.append_cons]
      refine (second found).extend (front ++ [token]) (fun inner right => ?_) ?_
      · rw [← List.append_cons]
        exact .assign left equal right
      · rintro inner - ⟨halt, later, after, reads, loud⟩
        obtain ⟨tree, errors, target, -⟩ :=
          left.taken (token :: inner) (Symbol.equality_endsBefore inner equal)
        rw [← List.append_cons]
        exact ⟨halt, errors ++ later, after, .valueStopped target equal reads, loud_append loud⟩
  | assigned read equal assigned first second =>
      rw [(Reads.assigned read equal assigned).quiet _ rfl] at found
      cases found
  | invalidTarget read equal invalid assigned first second =>
      rw [(Reads.invalidTarget read equal invalid assigned).quiet _ rfl] at found
      cases found
  | operandStopped stopped ih =>
      refine (ih found).imp (fun inner operand => ⟨[], .binary operand .chainEnd⟩) ?_
      rintro inner - ⟨halt, errors, rest, reads, loud⟩
      exact ⟨halt, errors, rest, .operandStopped reads, loud⟩
  | operands read more first second =>
      have found := found_later found (read.quiet _ rfl)
      obtain ⟨token, ahead, operator⟩ := more.operator_of_chain found
      obtain ⟨front, rfl, operand⟩ := read.relaxed _ rfl
      refine (second found).extend front (fun inner chain => .binary operand chain) ?_
      intro inner same fails
      obtain ⟨other, rfl⟩ := List.head?_eq_some_iff.1 (same.trans ahead)
      obtain ⟨first, errors, read, -⟩ :=
        operand.taken (token :: other) (Symbol.operand_endsBefore other operator)
      obtain ⟨halt, later, after, reads, loud⟩ := fails first
      exact ⟨halt, errors ++ later, after, .operands read reads, loud_append loud⟩
  | tighter tighter read ih =>
      have operands := Tier.hasOperands_iff.2 tighter
      refine (ih found).mono (fun inner operand => .tighter operands operand) ?_
      rintro inner - ⟨halt, errors, rest, reads, loud⟩
      exact ⟨halt, errors, rest, .tighter tighter reads, loud⟩
  | @tightest tier tokens reply tightest read ih =>
      obtain rfl : tier = .multiplication := by
        cases tier <;> first | rfl | cases tightest
      refine (ih found).mono (fun inner operand => .tightest operand) ?_
      rintro inner - ⟨halt, errors, rest, reads, loud⟩
      exact ⟨halt, errors, rest, .tightest tightest reads, loud⟩
  | chainEnd other => cases found
  | @chainStopped tier soFar token rest after halt errors operator stopped ih =>
      have isOperator := Tier.hasOperator_iff.2 operator
      refine (ih found).after [token] (fun inner operand => ⟨[], ?_⟩) ?_
      · exact .chainNext isOperator operand .chainEnd
      · rintro inner - ⟨halt, errors, rest, reads, loud⟩ soFar
        exact ⟨halt, errors, rest, .chainStopped operator reads, loud⟩
  | @chainNext tier soFar right token rest after errors reply operator read more first second =>
      have found := found_later found (read.quiet _ rfl)
      obtain ⟨next, ahead, nextOperator⟩ := more.operator_of_chain found
      obtain ⟨front, rfl, operand⟩ := read.relaxed _ rfl
      have isOperator := Tier.hasOperator_iff.2 operator
      refine (second found).extend (token :: front)
        (fun inner chain => .chainNext isOperator operand chain) ?_
      intro inner same fails soFar
      obtain ⟨other, rfl⟩ := List.head?_eq_some_iff.1 (same.trans ahead)
      obtain ⟨right, errors, read, -⟩ :=
        operand.taken (next :: other) (Symbol.operand_endsBefore other nextOperator)
      obtain ⟨halt, later, after, reads, loud⟩ := fails (.binary soFar token right)
      exact ⟨halt, errors ++ later, after, .chainNext operator read reads, loud_append loud⟩
  | @operator token rest reply operator read ih =>
      have isOperator := isUnaryOperator_iff.2 operator
      refine (ih found).extend [token] (fun inner operand => .unary isOperator operand) ?_
      rintro inner - ⟨halt, errors, rest, reads, loud⟩
      exact ⟨halt, errors, rest, .operator operator reads, loud⟩
  | noOperator other read ih =>
      refine (ih found).mono (fun inner operand => .primary operand) ?_
      rintro inner same ⟨halt, errors, rest, reads, loud⟩
      obtain ⟨others, rfl⟩ := List.head?_eq_some_iff.1 same
      exact ⟨halt, errors, rest, .noOperator other reads, loud⟩
  | atom stands => cases found
  | @innerStopped token rest after halt errors opens stopped ih =>
      refine (ih found).after [token] (fun inner value => ⟨[tokenOf .rightParen], ?_⟩) ?_
      · exact .group opens value rfl
      · rintro inner - ⟨halt, errors, rest, reads, loud⟩
        exact ⟨halt, errors, rest, .innerStopped opens reads, loud⟩
  | @group token rest after inner errors opens read ih =>
      have found := found_later found (read.quiet _ rfl)
      obtain ⟨front, rfl, value⟩ := read.relaxed _ rfl
      have stops := read.stops _ rfl
      refine (expect_blames (by decide) found).extend (token :: front) ?_ ?_
      · rintro _ ⟨right, rfl, closes⟩
        exact .group opens value closes
      · rintro _ same ⟨next, others, error, rfl, refused, loud⟩
        obtain ⟨tree, errors, read, -⟩ :=
          value.taken (next :: others) ⟨next, others, rfl, stops next same.symm⟩
        have reads := Reads.group opens read
        rw [refused] at reads
        exact ⟨_, errors ++ [error], _, reads, loud_append loud⟩
  | @refused token rest none other =>
      have unwinds (remaining : Nat) :
          (⟨.expressionExpected, token, remaining⟩ : SyntaxError).unwinds := rfl
      obtain rfl := eq_of_singleton (unwinds _) found
      refine Blames.here rest [tokenOf .nilWord] (.atom (.nilWord rfl)) fun others => ?_
      exact ⟨_, _, _, .refused none other, loud_singleton (unwinds _)⟩

end ExpressionRule

/-- Tokens are read with an error that stops a rule, whatever becomes of it. -/
def Loud {α : Type} (reads : List Token → Reply α → Prop) (tokens : List Token) : Prop :=
  ∃ reply, reads tokens reply ∧ firstUnwinding? reply.errors ≠ none

theorem ReadsTerminated.blames {cause : SyntaxError.Cause} {build : Expr → Stmt}
    {tokens : List Token} {reply : Reply Stmt} (reads : ReadsTerminated cause build tokens reply)
    (unwinding : cause ≠ .invalidTarget) (error : SyntaxError)
    (found : firstUnwinding? reply.errors = some error) :
    Blames (fun used => ∃ value semicolon, used = value ++ [semicolon] ∧
        semicolon.kind = .semicolon ∧ Relaxed .assignment value)
      (Loud (ReadsTerminated cause build)) tokens error := by
  cases reads with
  | stopped stopped =>
      refine (stopped.blames error found).imp (fun inner value => ?_) ?_
      · exact ⟨[tokenOf .semicolon], inner, tokenOf .semicolon, rfl, rfl, value⟩
      · rintro inner - ⟨halt, errors, rest, reads, loud⟩
        exact ⟨_, .stopped reads, loud⟩
  | read read =>
      have found := found_later found (read.quiet _ rfl)
      obtain ⟨front, rfl, value⟩ := read.relaxed _ rfl
      have stops := read.stops _ rfl
      refine (expect_blames unwinding found).extend front ?_ ?_
      · rintro _ ⟨semicolon, rfl, closes⟩
        exact ⟨front, semicolon, rfl, closes, value⟩
      · rintro _ same ⟨next, others, error, rfl, refused, loud⟩
        obtain ⟨tree, errors, read, -⟩ :=
          value.taken (next :: others) ⟨next, others, rfl, stops next same.symm⟩
        refine ⟨_, .read read, ?_⟩
        rw [refused]
        exact loud_append loud

theorem ReadsVariable.blames {tokens : List Token} {reply : Reply Stmt}
    (reads : ReadsVariable tokens reply) (error : SyntaxError)
    (found : firstUnwinding? reply.errors = some error) :
    Blames (fun used => ∀ word : Token, word.kind = .varWord → Relaxed .declaration (word :: used))
      (Loud ReadsVariable) tokens error := by
  cases reads with
  | overrun => cases found
  | @noName token rest other =>
      have unwinds (remaining : Nat) : (⟨.nameExpected, token, remaining⟩ : SyntaxError).unwinds :=
        rfl
      obtain rfl := eq_of_singleton (unwinds _) found
      refine Blames.here rest [tokenOf .identifier, tokenOf .semicolon]
        (fun word isWord => .variable isWord rfl rfl) fun others => ?_
      exact ⟨_, .noName other, loud_singleton (unwinds _)⟩
  | nameLast named => cases found
  | @initial name token rest reply named equal read =>
      refine (read.blames (by decide) error found).extend [name, token] ?_ ?_
      · rintro _ ⟨value, semicolon, rfl, closes, derived⟩ word isWord
        exact .initialized isWord named equal derived closes
      · rintro inner - ⟨reply, reads, loud⟩
        exact ⟨reply, .initial named equal reads, loud⟩
  | @noInitial name token rest named other =>
      refine (expect_blames (by decide) found).extend [name] ?_ ?_
      · rintro _ ⟨semicolon, rfl, closes⟩ word isWord
        exact .variable isWord named closes
      · rintro _ same ⟨next, others, error, rfl, refused, loud⟩
        obtain rfl : next = token := Option.some.inj same
        refine ⟨_, .noInitial named other, ?_⟩
        rw [refused]
        exact loud

namespace StatementRule

/-! What is wrong in a declaration is recorded by the rules around it. -/

theorem loud_declaration {tokens : List Token} (attempt : Loud StatementRule.attempt.Reads tokens) :
    Loud StatementRule.declaration.Reads tokens := by
  obtain ⟨⟨outcome, errors, rest⟩, reads, loud⟩ := attempt
  match outcome with
  | .ok found => exact ⟨_, .declared reads, loud⟩
  | .error .overrun => exact ⟨_, .attemptOverrun reads, loud⟩
  | .error (.refused error) =>
      exact ⟨_, .recovered reads, loud_append_of_loud loud⟩

section Repeated

variable {token : Token} {rest : List Token}
  (declaration : Loud StatementRule.declaration.Reads (token :: rest)) (ahead : ¬token.isEnd)

include declaration ahead

theorem loud_block (stillOpen : token.kind ≠ .rightBrace) :
    Loud StatementRule.block.Reads (token :: rest) := by
  obtain ⟨⟨outcome, errors, after⟩, reads, loud⟩ := declaration
  match outcome with
  | .error halt => exact ⟨_, .blockStopped stillOpen ahead reads, loud⟩
  | .ok first =>
      exact ⟨_, .blockNext stillOpen ahead reads (reads_answer .block after),
        loud_append_of_loud loud⟩

theorem loud_program : Loud StatementRule.program.Reads (token :: rest) := by
  obtain ⟨⟨outcome, errors, after⟩, reads, loud⟩ := declaration
  match outcome with
  | .error halt => exact ⟨_, .programStopped ahead reads, loud⟩
  | .ok first =>
      exact ⟨_, .programNext ahead reads (reads_answer .program after), loud_append_of_loud loud⟩

end Repeated

/-- An error in a declaration blames the same token where declarations are repeated. -/
theorem blames_block_of_declaration {token : Token} {rest : List Token} {error : SyntaxError}
    (stillOpen : token.kind ≠ .rightBrace) (ahead : ¬token.isEnd)
    (blames : Blames StatementRule.declaration.Covers (Loud StatementRule.declaration.Reads)
      (token :: rest) error) :
    Blames StatementRule.block.Covers (Loud StatementRule.block.Reads) (token :: rest) error := by
  refine blames.imp (fun inner derived => ⟨[tokenOf .rightBrace], ?_⟩) ?_
  · exact ⟨inner ++ [], _, rfl, by rw [List.append_nil], .next derived .nothing⟩
  · intro inner same loud
    obtain ⟨others, rfl⟩ := List.head?_eq_some_iff.1 same
    exact loud_block loud ahead stillOpen

theorem blames_program_of_declaration {token : Token} {rest : List Token} {error : SyntaxError}
    (ahead : ¬token.isEnd)
    (blames : Blames StatementRule.declaration.Covers (Loud StatementRule.declaration.Reads)
      (token :: rest) error) :
    Blames StatementRule.program.Covers (Loud StatementRule.program.Reads) (token :: rest)
      error := by
  refine blames.imp (fun inner derived => ⟨[], .next derived .nothing⟩) ?_
  intro inner same loud
  obtain ⟨others, rfl⟩ := List.head?_eq_some_iff.1 same
  exact loud_program loud ahead

theorem Reads.blames {rule : StatementRule} {tokens : List Token} {reply : Reply rule.Result}
    (reads : rule.Reads tokens reply) (error : SyntaxError)
    (found : firstUnwinding? reply.errors = some error) :
    Blames rule.Covers (Loud rule.Reads) tokens error := by
  induction reads with
  | overrun => cases found
  | @variableWord token rest reply word read =>
      refine (read.blames error found).extend [token] (fun inner derived => derived token word) ?_
      rintro inner - ⟨reply, reads, loud⟩
      exact ⟨reply, .variableWord word reads, loud⟩
  | otherWord other read ih =>
      refine (ih found).mono (fun inner derived => derived) ?_
      rintro inner same ⟨reply, reads, loud⟩
      obtain ⟨others, rfl⟩ := List.head?_eq_some_iff.1 same
      exact ⟨reply, .otherWord other reads, loud⟩
  | declared read ih =>
      exact (ih found).mono (fun inner derived => derived) fun _ _ => loud_declaration
  | attemptOverrun stopped ih =>
      exact (ih found).mono (fun inner derived => derived) fun _ _ => loud_declaration
  | recovered stopped ih =>
      rw [Reply.follow, Reply.map, synchronize_errors, List.append_nil] at found
      exact (ih found).mono (fun inner derived => derived) fun _ _ => loud_declaration
  | @print token rest reply word read =>
      refine (read.blames (by decide) error found).extend [token] ?_ ?_
      · rintro _ ⟨value, semicolon, rfl, closes, derived⟩
        exact .print word derived closes
      · rintro inner - ⟨reply, reads, loud⟩
        exact ⟨reply, .print word reads, loud⟩
  | @braces token rest reply opens read ih =>
      refine (ih found).extend [token] ?_ ?_
      · rintro _ ⟨body, right, closes, rfl, derived⟩
        exact .block opens derived closes
      · rintro inner - ⟨reply, reads, loud⟩
        exact ⟨_, .braces opens reads, loud⟩
  | expression noPrint noBlock read =>
      refine (read.blames (by decide) error found).mono ?_ ?_
      · rintro _ ⟨value, semicolon, rfl, closes, derived⟩
        exact .expression derived closes
      · rintro inner same ⟨reply, reads, loud⟩
        obtain ⟨others, rfl⟩ := List.head?_eq_some_iff.1 same
        exact ⟨reply, .expression noPrint noBlock reads, loud⟩
  | blockEnd closes => cases found
  | @unclosed token rest ended =>
      have unwinds (remaining : Nat) :
          (⟨.closingBraceExpected, token, remaining⟩ : SyntaxError).unwinds := rfl
      obtain rfl := eq_of_singleton (unwinds _) found
      refine Blames.here rest [tokenOf .rightBrace] ⟨[], _, rfl, rfl, .nothing⟩ fun others => ?_
      exact ⟨_, .unclosed ended, loud_singleton (unwinds _)⟩
  | blockStopped stillOpen ahead stopped ih =>
      exact blames_block_of_declaration stillOpen ahead (ih found)
  | @blockNext token rest after first errors reply stillOpen ahead read more ihFirst ihMore =>
      rw [Reply.follow, firstUnwinding?_append] at found
      cases quiet : firstUnwinding? errors with
      | some earlier =>
          rw [quiet, Option.some_or] at found
          exact blames_block_of_declaration stillOpen ahead (ihFirst (quiet.trans found))
      | none =>
          rw [quiet, Option.none_or] at found
          obtain ⟨front, same, head⟩ := read.relaxed first rfl quiet
          rw [same]
          refine (ihMore found).extend front ?_ ?_
          · rintro _ ⟨body, right, closes, rfl, tail⟩
            exact ⟨front ++ body, right, closes, by simp, .next head tail⟩
          · rintro inner - ⟨reply, reads, loud⟩
            obtain ⟨statement, errors, -, reads⟩ := Relaxed.blockNext head (head.taken inner) reads
            exact ⟨_, reads, loud_append loud⟩
  | programEnd ended => cases found
  | programStopped ahead stopped ih => exact blames_program_of_declaration ahead (ih found)
  | @programNext token rest after first errors reply ahead read more ihFirst ihMore =>
      rw [Reply.follow, firstUnwinding?_append] at found
      cases quiet : firstUnwinding? errors with
      | some earlier =>
          rw [quiet, Option.some_or] at found
          exact blames_program_of_declaration ahead (ihFirst (quiet.trans found))
      | none =>
          rw [quiet, Option.none_or] at found
          obtain ⟨front, same, head⟩ := read.relaxed first rfl quiet
          rw [same]
          refine (ihMore found).extend front (fun inner tail => .next head tail) ?_
          rintro inner - ⟨reply, reads, loud⟩
          obtain ⟨statement, errors, -, reads⟩ := Relaxed.programNext head (head.taken inner) reads
          exact ⟨_, reads, loud_append loud⟩

end StatementRule

/-- A program of the relaxed grammar is not read with any other error than those of targets. -/
theorem Relaxed.not_loud {body : List Token} (relaxed : Relaxed .declarations body) {last : Token}
    (ended : last.isEnd) : ¬Loud StatementRule.program.Reads (body ++ [last]) := by
  rintro ⟨reply, reads, loud⟩
  obtain ⟨statements, errors, quiet, read⟩ := (relaxed.taken [last]).2 _ (.programEnd ended)
  apply loud
  rw [← reads.answer_eq, read.answer_eq]
  simp [Reply.follow, Reply.map, quiet]

theorem firstUnwinding?_program_iff {body : List Token} {last : Token}
    (inside : ∀ token ∈ body, ¬token.isEnd) (ended : last.isEnd) :
    firstUnwinding? (Grammar.program (body ++ [last])).val.errors = none ↔
      Relaxed .declarations body := by
  have reads := StatementRule.reads_answer .program (body ++ [last])
  constructor
  · intro quiet
    obtain ⟨statements, errors, same⟩ := program_reaches_end body inside ended
    obtain ⟨used, split, derived⟩ := reads.relaxed statements (congrArg Reply.outcome same) quiet
    have rest : (StatementRule.answer .program (body ++ [last])).rest = [last] :=
      congrArg Reply.rest same
    rw [rest] at split
    obtain rfl : body = used := List.append_cancel_right split
    exact derived
  · intro relaxed
    apply Classical.byContradiction
    intro loud
    exact relaxed.not_loud ended ⟨_, reads, loud⟩

/-- A program is read with no error but those of targets just when it is one of the relaxed grammar.
Of the other errors the first one blames the first token with which no program begins, or the end of
the input if the whole input can be completed to one. -/
theorem program_blames (body : List Token) (last : Token)
    (inside : ∀ token ∈ body, ¬token.isEnd) (ended : last.isEnd) :
    let errors := ((Cursor.start (body ++ [last])).perform .program).2.errors
    (firstUnwinding? errors = none ↔ Relaxed .declarations body) ∧
      ∀ error, firstUnwinding? errors = some error →
        ∃ index, index + error.remaining = body.length + 1 ∧
          (body ++ [last])[index]? = some error.token ∧
            (∃ more, Relaxed .declarations (body.take index ++ more)) ∧
              if index < body.length then
                ∀ more, ¬Relaxed .declarations (body.take (index + 1) ++ more)
              else index = body.length ∧ ¬Relaxed .declarations body := by
  rw [perform_program]
  refine ⟨firstUnwinding?_program_iff inside ended, ?_⟩
  intro error found
  change firstUnwinding? (StatementRule.answer .program (body ++ [last])).errors = _ at found
  have reads := StatementRule.reads_answer .program (body ++ [last])
  obtain ⟨used, after, split, stands, viable, fails⟩ := reads.blames error found
  have lengths := congrArg List.length split
  simp only [List.length_append, List.length_cons, List.length_nil] at lengths
  refine ⟨used.length, by omega, by rw [split]; simp, ?_⟩
  rcases List.eq_nil_or_concat after with rfl | ⟨others, final, rfl⟩
  · obtain ⟨rfl, -⟩ := List.append_inj' split rfl
    rw [List.take_length, if_neg (Nat.lt_irrefl _)]
    refine ⟨viable, rfl, fun relaxed => ?_⟩
    exact relaxed.not_loud ended ⟨_, reads, by rw [found]; exact Option.some_ne_none _⟩
  · rw [List.concat_eq_append, ← List.cons_append, ← List.append_assoc] at split
    obtain ⟨rfl, -⟩ := List.append_inj' split rfl
    have shorter : used.length < (used ++ error.token :: others).length := by simp
    have front :
        (used ++ error.token :: others).take (used.length + 1) = used ++ [error.token] := by
      rw [List.append_cons]
      exact List.take_left' (by simp)
    rw [if_pos shorter, List.take_left, front]
    refine ⟨viable, fun more relaxed => ?_⟩
    have loud := fails (more ++ [last])
    apply relaxed.not_loud ended
    simpa using loud

/-- In `(a) = b; print (c + ;` the target is no reason to stop. The first token that no program has
where it stands is the semicolon at the end. -/
theorem program_blames_operand :
    let body : List Token := [⟨.leftParen, "(", .nil, 1⟩, ⟨.identifier, "a", .nil, 1⟩,
      ⟨.rightParen, ")", .nil, 1⟩, ⟨.equal, "=", .nil, 1⟩, ⟨.identifier, "b", .nil, 1⟩,
      ⟨.semicolon, ";", .nil, 1⟩, ⟨.printWord, "print", .nil, 1⟩, ⟨.leftParen, "(", .nil, 1⟩,
      ⟨.identifier, "c", .nil, 1⟩, ⟨.plus, "+", .nil, 1⟩, ⟨.semicolon, ";", .nil, 1⟩]
    let last : Token := ⟨.endOfInput, "", .nil, 1⟩
    (∀ token ∈ body, ¬token.isEnd) ∧ last.isEnd ∧ Relaxed .declarations (body.take 6) ∧
      (∃ more, Relaxed .declarations (body.take 10 ++ more)) ∧
        ∀ more, ¬Relaxed .declarations (body.take 11 ++ more) := by
  intro body last
  have inside : ∀ token ∈ body, ¬token.isEnd := by decide
  have ended : last.isEnd := by decide
  have target := program_blames (body.take 6) last
    (fun token member => inside token (List.mem_of_mem_take member)) ended
  have quiet : firstUnwinding?
      ((Cursor.start (body.take 6 ++ [last])).perform .program).2.errors = none := by
    decide +kernel
  have found : firstUnwinding? ((Cursor.start (body ++ [last])).perform .program).2.errors =
      some ⟨.expressionExpected, ⟨.semicolon, ";", .nil, 1⟩, 2⟩ := by
    decide +kernel
  obtain ⟨index, stands, -, viable, refused⟩ := (program_blames body last inside ended).2 _ found
  obtain rfl : index = 10 := Nat.add_right_cancel (m := 2) stands
  exact ⟨inside, ended, target.1.1 quiet, viable, refused⟩

end Lox.Grammar
