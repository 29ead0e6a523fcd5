import Lox.Proofs.Grammar.Completeness

/-!
The relaxed grammar, in which anything that may stand before an equals sign may be assigned to. A
rule reports a target that is no variable and goes on, so this is the grammar that it follows. What
is derived in it is read, and the errors that are recorded are only those of such targets:
`Relaxed.taken`.
-/

set_option autoImplicit false

namespace Lox

/-- Whether an error stops the rules up to the declaration that it is in. -/
def SyntaxError.unwinds (error : SyntaxError) : Bool :=
  error.cause != .invalidTarget

/-- The first of some errors that stops a rule. -/
def firstUnwinding? (errors : List SyntaxError) : Option SyntaxError :=
  errors.find? SyntaxError.unwinds

@[simp]
theorem firstUnwinding?_nil : firstUnwinding? [] = none :=
  rfl

@[simp]
theorem firstUnwinding?_append (first second : List SyntaxError) :
    firstUnwinding? (first ++ second) =
      (firstUnwinding? first).or (firstUnwinding? second) :=
  List.find?_append

@[simp]
theorem firstUnwinding?_invalidTarget (token : Token) (remaining : Nat) :
    firstUnwinding? [⟨.invalidTarget, token, remaining⟩] = none :=
  rfl

namespace Grammar

/-- How tokens are derived from a symbol in the relaxed grammar. All productions are those of the
grammar but the one for assignments, which have an equality for their target. -/
inductive Relaxed : Symbol → List Token → Prop where
  | nothing : Relaxed .declarations []
  | next {first rest : List Token} (head : Relaxed .declaration first)
      (tail : Relaxed .declarations rest) : Relaxed .declarations (first ++ rest)
  | variable {word name semicolon : Token} (isWord : word.kind = .varWord)
      (named : name.kind = .identifier) (closes : semicolon.kind = .semicolon) :
      Relaxed .declaration [word, name, semicolon]
  | initialized {word name equals semicolon : Token} {initial : List Token}
      (isWord : word.kind = .varWord) (named : name.kind = .identifier)
      (equal : equals.kind = .equal) (value : Relaxed .assignment initial)
      (closes : semicolon.kind = .semicolon) :
      Relaxed .declaration (word :: name :: equals :: (initial ++ [semicolon]))
  | print {word semicolon : Token} {value : List Token} (isWord : word.kind = .printWord)
      (inner : Relaxed .assignment value) (closes : semicolon.kind = .semicolon) :
      Relaxed .declaration (word :: (value ++ [semicolon]))
  | block {left right : Token} {body : List Token} (opens : left.kind = .leftBrace)
      (inner : Relaxed .declarations body) (closes : right.kind = .rightBrace) :
      Relaxed .declaration (left :: (body ++ [right]))
  | expression {semicolon : Token} {value : List Token} (inner : Relaxed .assignment value)
      (closes : semicolon.kind = .semicolon) : Relaxed .declaration (value ++ [semicolon])
  | assign {equals : Token} {target value : List Token}
      (left : Relaxed (.binary .equality) target) (equal : equals.kind = .equal)
      (right : Relaxed .assignment value) : Relaxed .assignment (target ++ equals :: value)
  | equality {value : List Token} (inner : Relaxed (.binary .equality) value) :
      Relaxed .assignment value
  | binary {tier : Tier} {first rest : List Token} (head : Relaxed (.operand tier) first)
      (tail : Relaxed (.chain tier) rest) : Relaxed (.binary tier) (first ++ rest)
  | chainEnd {tier : Tier} : Relaxed (.chain tier) []
  | chainNext {tier : Tier} {operator : Token} {right rest : List Token}
      (isOperator : tier.HasOperator operator.kind) (head : Relaxed (.operand tier) right)
      (tail : Relaxed (.chain tier) rest) :
      Relaxed (.chain tier) (operator :: (right ++ rest))
  | tighter {tier next : Tier} {operand : List Token} (operands : tier.HasOperands next)
      (inner : Relaxed (.binary next) operand) : Relaxed (.operand tier) operand
  | tightest {operand : List Token} (inner : Relaxed .unary operand) :
      Relaxed (.operand .multiplication) operand
  | unary {operator : Token} {operand : List Token} (isOperator : IsUnaryOperator operator.kind)
      (inner : Relaxed .unary operand) : Relaxed .unary (operator :: operand)
  | primary {operand : List Token} (inner : Relaxed .primary operand) : Relaxed .unary operand
  | atom {token : Token} {tree : Expr} (stands : StandsFor token tree) : Relaxed .primary [token]
  | group {left right : Token} {inside : List Token} (opens : left.kind = .leftParen)
      (inner : Relaxed .assignment inside) (closes : right.kind = .rightParen) :
      Relaxed .primary (left :: (inside ++ [right]))

namespace Relaxed

/-- What is derived in the relaxed grammar begins as in the grammar. -/
theorem begins {symbol : Symbol} {tokens : List Token} (relaxed : Relaxed symbol tokens) :
    (∃ token rest, tokens = token :: rest ∧ token.kind ∈ symbol.firsts) ∨
      (symbol.IsNullable ∧ tokens = []) := by
  induction relaxed with
  | nothing => exact Or.inr ⟨trivial, rfl⟩
  | next head tail ih _ =>
      rcases ih with ⟨token, more, rfl, member⟩ | ⟨nullable, -⟩
      · exact Or.inl ⟨token, _, rfl, member⟩
      · exact nullable.elim
  | «variable» isWord named closes => exact Or.inl ⟨_, _, rfl, by rw [isWord]; decide⟩
  | initialized isWord named equal value closes => exact Or.inl ⟨_, _, rfl, by rw [isWord]; decide⟩
  | print isWord inner closes => exact Or.inl ⟨_, _, rfl, by rw [isWord]; decide⟩
  | block opens inner closes => exact Or.inl ⟨_, _, rfl, by rw [opens]; decide⟩
  | expression inner closes ih =>
      rcases ih with ⟨token, more, rfl, member⟩ | ⟨nullable, -⟩
      · exact Or.inl ⟨token, _, rfl, List.mem_append_right _ member⟩
      · exact nullable.elim
  | assign left equal right ih _ =>
      rcases ih with ⟨token, more, rfl, member⟩ | ⟨nullable, -⟩
      · exact Or.inl ⟨token, _, rfl, member⟩
      · exact nullable.elim
  | equality inner ih => exact ih
  | binary head tail ih _ =>
      rcases ih with ⟨token, more, rfl, member⟩ | ⟨nullable, -⟩
      · exact Or.inl ⟨token, _, rfl, member⟩
      · exact nullable.elim
  | chainEnd => exact Or.inr ⟨trivial, rfl⟩
  | chainNext isOperator head tail _ _ =>
      exact Or.inl ⟨_, _, rfl, Tier.hasOperator_iff.1 isOperator⟩
  | tighter operands inner ih => exact ih
  | tightest inner ih => exact ih
  | unary isOperator inner ih =>
      exact Or.inl ⟨_, _, rfl, List.mem_append_left _ (isUnaryOperator_iff.1 isOperator)⟩
  | primary inner ih =>
      rcases ih with ⟨token, more, rfl, member⟩ | ⟨nullable, -⟩
      · exact Or.inl ⟨token, more, rfl, List.mem_append_right _ member⟩
      · exact nullable.elim
  | @atom token tree stands =>
      refine Or.inl ⟨token, [], rfl, ?_⟩
      cases stands <;> rename_i kind <;> rw [kind] <;> decide
  | group opens inner closes ih => exact Or.inl ⟨_, _, rfl, by rw [opens]; decide⟩

/-- The first token of what is derived from a symbol that derives some. -/
theorem eq_cons {symbol : Symbol} {tokens : List Token} (relaxed : Relaxed symbol tokens)
    (some : ¬symbol.IsNullable) :
    ∃ token rest, tokens = token :: rest ∧ token.kind ∈ symbol.firsts := by
  rcases relaxed.begins with found | ⟨nullable, -⟩
  · exact found
  · exact absurd nullable some

theorem operand_endsBefore {tier : Tier} {tokens after : List Token}
    (chain : Relaxed (.chain tier) tokens) (ends : (Symbol.binary tier).EndsBefore after) :
    (Symbol.operand tier).EndsBefore (tokens ++ after) := by
  rcases chain.begins with ⟨token, more, rfl, member⟩ | ⟨-, rfl⟩
  · exact Symbol.operand_endsBefore _ member
  · exact ends.operand

end Relaxed

/-- A rule uses up tokens that have others after them, and finds nothing wrong but targets. -/
def Takes {α : Type} (reads : List Token → Reply α → Prop) (tokens after : List Token) : Prop :=
  ∃ result errors, reads (tokens ++ after) ⟨.ok result, errors, after⟩ ∧
    firstUnwinding? errors = none

/-- The rule of a symbol takes tokens, if those after them do not go on with it. Declarations are
taken one by one by the rules that repeat them. -/
def Symbol.Takes : Symbol → List Token → List Token → Prop
  | .declarations, tokens, after =>
    (∀ reply, StatementRule.block.Reads after reply →
      ∃ statements errors, firstUnwinding? errors = none ∧
        StatementRule.block.Reads (tokens ++ after)
          ((reply.map (statements ++ ·)).follow errors)) ∧
    ∀ reply, StatementRule.program.Reads after reply →
      ∃ statements errors, firstUnwinding? errors = none ∧
        StatementRule.program.Reads (tokens ++ after)
          ((reply.map (statements ++ ·)).follow errors)
  | .declaration, tokens, after => Grammar.Takes StatementRule.attempt.Reads tokens after
  | .assignment, tokens, after => Symbol.assignment.EndsBefore after →
    Grammar.Takes ExpressionRule.assignment.Reads tokens after
  | .binary tier, tokens, after => (Symbol.binary tier).EndsBefore after →
    Grammar.Takes (ExpressionRule.binary tier).Reads tokens after
  | .chain tier, tokens, after => (Symbol.chain tier).EndsBefore after →
    ∀ soFar, Grammar.Takes (ExpressionRule.chain tier soFar).Reads tokens after
  | .operand tier, tokens, after => (Symbol.operand tier).EndsBefore after →
    Grammar.Takes (ExpressionRule.operand tier).Reads tokens after
  | .unary, tokens, after => Grammar.Takes ExpressionRule.unary.Reads tokens after
  | .primary, tokens, after => Grammar.Takes ExpressionRule.primary.Reads tokens after

theorem Takes.terminated {cause : SyntaxError.Cause} {build : Expr → Stmt}
    {tokens after : List Token} {semicolon : Token}
    (takes : Takes ExpressionRule.assignment.Reads tokens (semicolon :: after))
    (closes : semicolon.kind = .semicolon) :
    Takes (ReadsTerminated cause build) (tokens ++ [semicolon]) after := by
  obtain ⟨value, errors, read, quiet⟩ := takes
  have reads : ReadsTerminated cause build (tokens ++ semicolon :: after) _ := .read read
  rw [expect_of_kind cause after closes (by decide), Reply.map_ok, Reply.follow,
    List.append_nil] at reads
  refine ⟨build value, errors, ?_, quiet⟩
  rw [List.append_assoc]
  exact reads

namespace Relaxed

section Declarations

variable {tokens after : List Token} (relaxed : Relaxed .declaration tokens)
  (takes : Takes StatementRule.attempt.Reads tokens after)

include relaxed takes

/-- A declaration in front of what a block goes on with. -/
theorem blockNext {reply : Reply (List Stmt)} (read : StatementRule.block.Reads after reply) :
    ∃ statement errors, firstUnwinding? errors = none ∧
      StatementRule.block.Reads (tokens ++ after)
        ((reply.map ([statement] ++ ·)).follow errors) := by
  obtain ⟨statement, errors, attempt, quiet⟩ := takes
  obtain ⟨token, more, rfl, member⟩ := relaxed.eq_cons id
  obtain ⟨stillOpen, ahead⟩ := not_closing_of_first member
  exact ⟨statement, errors, quiet, .blockNext stillOpen ahead (.declared attempt) read⟩

/-- A declaration in front of what a program goes on with. -/
theorem programNext {reply : Reply (List Stmt)} (read : StatementRule.program.Reads after reply) :
    ∃ statement errors, firstUnwinding? errors = none ∧
      StatementRule.program.Reads (tokens ++ after)
        ((reply.map ([statement] ++ ·)).follow errors) := by
  obtain ⟨statement, errors, attempt, quiet⟩ := takes
  obtain ⟨token, more, rfl, member⟩ := relaxed.eq_cons id
  obtain ⟨-, ahead⟩ := not_closing_of_first member
  exact ⟨statement, errors, quiet, .programNext ahead (.declared attempt) read⟩

end Declarations

/-- Two lists of statements in front of those of an answer. -/
theorem map_follow_append (reply : Reply (List Stmt)) (first second : List Stmt)
    (errors later : List SyntaxError) :
    ((((reply.map (second ++ ·)).follow later).map (first ++ ·)).follow errors) =
      (reply.map (first ++ second ++ ·)).follow (errors ++ later) := by
  obtain ⟨outcome, recorded, rest⟩ := reply
  cases outcome with
  | ok result => simp [Reply.map, Reply.follow, Except.map]
  | error halt => simp [Reply.map, Reply.follow, Except.map]

/-- What is derived is taken. The induction is on the derivation; what follows a part of it is what
the next part begins with. -/
theorem taken {symbol : Symbol} {tokens : List Token} (relaxed : Relaxed symbol tokens)
    (after : List Token) : symbol.Takes tokens after := by
  induction relaxed generalizing after with
  | nothing =>
      refine ⟨fun reply read => ⟨[], [], rfl, ?_⟩, fun reply read => ⟨[], [], rfl, ?_⟩⟩
      · exact (Reply.map_nil_append reply).symm ▸ read
      · exact (Reply.map_nil_append reply).symm ▸ read
  | @next first rest head tail ihHead ihTail =>
      obtain ⟨inBlock, inProgram⟩ := ihTail after
      rw [Symbol.Takes, List.append_assoc]
      constructor
      · intro reply read
        obtain ⟨statements, later, noLater, more⟩ := inBlock reply read
        obtain ⟨statement, errors, quiet, reads⟩ := head.blockNext (ihHead (rest ++ after)) more
        refine ⟨[statement] ++ statements, errors ++ later, by simp [quiet, noLater], ?_⟩
        rwa [map_follow_append] at reads
      · intro reply read
        obtain ⟨statements, later, noLater, more⟩ := inProgram reply read
        obtain ⟨statement, errors, quiet, reads⟩ := head.programNext (ihHead (rest ++ after)) more
        refine ⟨[statement] ++ statements, errors ++ later, by simp [quiet, noLater], ?_⟩
        rwa [map_follow_append] at reads
  | @«variable» word name semicolon isWord named closes =>
      have noEqual : semicolon.kind ≠ .equal := by
        rw [closes]
        decide
      have reads : ReadsVariable (name :: semicolon :: after) _ := .noInitial named noEqual
      rw [expect_of_kind .declarationEndExpected after closes (by decide)] at reads
      exact ⟨_, [], .variableWord isWord reads, rfl⟩
  | initialized isWord named equal value closes ih =>
      have ends := Symbol.assignment_endsBefore after (Or.inl closes)
      obtain ⟨statement, errors, read, quiet⟩ := (ih _ ends).terminated closes
      exact ⟨statement, errors, .variableWord isWord (.initial named equal read), quiet⟩
  | print isWord inner closes ih =>
      have ends := Symbol.assignment_endsBefore after (Or.inl closes)
      obtain ⟨statement, errors, read, quiet⟩ := (ih _ ends).terminated closes
      exact ⟨statement, errors, .otherWord (by rw [isWord]; decide) (.print isWord read), quiet⟩
  | @block left right body opens inner closes ih =>
      obtain ⟨statements, errors, quiet, read⟩ := (ih (right :: after)).1 _ (.blockEnd closes)
      have reads := StatementRule.Reads.otherWord (by rw [opens]; decide) (.braces opens read)
      rw [Symbol.Takes, Grammar.Takes, List.cons_append, List.append_assoc]
      exact ⟨_, errors ++ [], reads, by simp [quiet]⟩
  | expression inner closes ih =>
      have ends := Symbol.assignment_endsBefore after (Or.inl closes)
      obtain ⟨statement, errors, read, quiet⟩ := (ih _ ends).terminated closes
      obtain ⟨token, more, rfl, member⟩ := inner.eq_cons id
      have led : ∀ kind ∈ Symbol.expressionFirsts,
          kind ≠ .varWord ∧ kind ≠ .printWord ∧ kind ≠ .leftBrace := by decide
      obtain ⟨noVariable, noPrint, noBlock⟩ := led token.kind member
      exact ⟨statement, errors, .otherWord noVariable (.expression noPrint noBlock read), quiet⟩
  | @assign equals target value left equal right ihLeft ihRight =>
      intro ends
      obtain ⟨tree, errors, read, quiet⟩ :=
        ihLeft (equals :: (value ++ after)) (Symbol.equality_endsBefore _ equal)
      obtain ⟨assigned, later, more, noLater⟩ := ihRight after ends
      rw [Grammar.Takes, List.append_assoc, List.cons_append]
      by_cases isName : ∃ name, tree = .var name
      · obtain ⟨name, rfl⟩ := isName
        exact ⟨_, _, .assigned read equal more, by simp [quiet, noLater]⟩
      · rw [not_exists] at isName
        exact ⟨_, _, .invalidTarget read equal isName more, by simp [quiet, noLater]⟩
  | equality inner ih =>
      intro ends
      obtain ⟨tree, errors, read, quiet⟩ := ih after ends.equality
      obtain ⟨token, rest, rfl, stops⟩ := ends
      exact ⟨tree, errors, .noTarget read fun equal => stops (Or.inl equal), quiet⟩
  | @binary tier first rest head tail ihHead ihTail =>
      intro ends
      obtain ⟨operand, errors, read, quiet⟩ := ihHead (rest ++ after) (tail.operand_endsBefore ends)
      obtain ⟨tree, later, more, noLater⟩ := ihTail after ends operand
      rw [Grammar.Takes, List.append_assoc]
      exact ⟨tree, errors ++ later, .operands read more, by simp [quiet, noLater]⟩
  | chainEnd =>
      intro ends soFar
      obtain ⟨token, rest, rfl, stops⟩ := ends
      exact ⟨soFar, [], .chainEnd fun operator => stops ⟨_, Nat.le_refl _, operator⟩, rfl⟩
  | @chainNext tier operator right rest isOperator head tail ihHead ihTail =>
      intro ends soFar
      obtain ⟨operand, errors, read, quiet⟩ := ihHead (rest ++ after) (tail.operand_endsBefore ends)
      obtain ⟨tree, later, more, noLater⟩ := ihTail after ends (.binary soFar operator operand)
      rw [Grammar.Takes, List.cons_append, List.append_assoc]
      exact ⟨tree, errors ++ later, .chainNext (Tier.hasOperator_iff.1 isOperator) read more,
        by simp [quiet, noLater]⟩
  | tighter operands inner ih =>
      intro ends
      obtain ⟨tree, errors, read, quiet⟩ := ih after (ends.tighter operands)
      exact ⟨tree, errors, .tighter (Tier.hasOperands_iff.1 operands) read, quiet⟩
  | tightest inner ih =>
      intro ends
      obtain ⟨tree, errors, read, quiet⟩ := ih after
      exact ⟨tree, errors, .tightest rfl read, quiet⟩
  | unary isOperator inner ih =>
      obtain ⟨tree, errors, read, quiet⟩ := ih after
      exact ⟨_, errors, .operator (isUnaryOperator_iff.1 isOperator) read, quiet⟩
  | primary inner ih =>
      obtain ⟨tree, errors, read, quiet⟩ := ih after
      obtain ⟨token, more, rfl, member⟩ := inner.eq_cons id
      have disjoint : ∀ kind ∈ Symbol.primaryFirsts, kind ∉ unaryOperators := by decide
      exact ⟨tree, errors, .noOperator (disjoint token.kind member) read, quiet⟩
  | atom stands => exact ⟨_, [], .atom (atom?_of_standsFor stands), rfl⟩
  | @group left right inside opens inner closes ih =>
      obtain ⟨tree, errors, read, quiet⟩ :=
        ih (right :: after) (Symbol.assignment_endsBefore after (Or.inr closes))
      have reads := ExpressionRule.Reads.group opens read
      rw [expect_of_kind .closingParenExpected after closes (by decide)] at reads
      rw [Symbol.Takes, Grammar.Takes, List.cons_append, List.append_assoc]
      exact ⟨_, errors ++ [], reads, by simp [quiet]⟩

end Relaxed

end Grammar

end Lox
