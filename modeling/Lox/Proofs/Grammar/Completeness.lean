import Lox.Proofs.Grammar.Soundness
import Lox.Proofs.Grammar.Unambiguity

/-!
What is derived is read. A rule that stands in front of derived tokens, which what comes after them
does not make longer, uses up those tokens and no more, records no error and answers with the tree
of the derivation. Declarations are read in front of any tokens, so a program is read piece by
piece.
-/

set_option autoImplicit false

namespace Lox.Grammar

/-- The rule of a symbol reads tokens as a tree when other tokens come after them. -/
def Symbol.ReadsAs (symbol : Symbol) (tree : symbol.Tree) (tokens after : List Token) : Prop :=
  match symbol with
  | .declarations =>
    (∀ reply, StatementRule.block.Reads after reply →
      StatementRule.block.Reads (tokens ++ after) (reply.map (tree ++ ·))) ∧
    ∀ reply, StatementRule.program.Reads after reply →
      StatementRule.program.Reads (tokens ++ after) (reply.map (tree ++ ·))
  | .declaration => StatementRule.attempt.Reads (tokens ++ after) ⟨.ok tree, [], after⟩
  | .assignment => Symbol.assignment.EndsBefore after →
    ExpressionRule.assignment.Reads (tokens ++ after) ⟨.ok tree, [], after⟩
  | .binary tier => (Symbol.binary tier).EndsBefore after →
    (ExpressionRule.binary tier).Reads (tokens ++ after) ⟨.ok tree, [], after⟩
  | .chain tier => (Symbol.chain tier).EndsBefore after → ∀ soFar,
    (ExpressionRule.chain tier soFar).Reads (tokens ++ after) ⟨.ok (tree soFar), [], after⟩
  | .operand tier => (Symbol.operand tier).EndsBefore after →
    (ExpressionRule.operand tier).Reads (tokens ++ after) ⟨.ok tree, [], after⟩
  | .unary => ExpressionRule.unary.Reads (tokens ++ after) ⟨.ok tree, [], after⟩
  | .primary => ExpressionRule.primary.Reads (tokens ++ after) ⟨.ok tree, [], after⟩

theorem Symbol.assignment_endsBefore_of_bounds {token : Token} (rest : List Token)
    (bounds : token.kind ∉ expressionKinds) : assignment.EndsBefore (token :: rest) := by
  refine ⟨token, rest, rfl, ?_⟩
  rintro (equal | ⟨tier, operator⟩)
  · exact bounds (mem_expressionKinds_of_kind equal (by decide))
  · exact bounds (mem_expressionKinds_of_operator operator)

theorem expect_of_kind {kind : Token.Kind} (cause : SyntaxError.Cause) {token : Token}
    (rest : List Token) (same : token.kind = kind) (other : kind ≠ .endOfInput) :
    (expect kind cause (token :: rest)).val.val = ⟨.ok token, [], rest⟩ := by
  rw [expect, if_pos ⟨same, not_isEnd_of_kind same other⟩]
  rfl

theorem atom?_of_standsFor {token : Token} {atom : Expr} (stands : StandsFor token atom) :
    atom? token = some atom := by
  cases stands <;> rename_i kind <;> rw [atom?, kind]

theorem ReadsTerminated.of_kind {cause : SyntaxError.Cause} {build : Expr → Stmt} {value : Expr}
    {tokens after : List Token} {semicolon : Token}
    (read : ExpressionRule.assignment.Reads (tokens ++ semicolon :: after)
      ⟨.ok value, [], semicolon :: after⟩)
    (closes : semicolon.kind = .semicolon) :
    ReadsTerminated cause build (tokens ++ semicolon :: after)
      ⟨.ok (build value), [], after⟩ := by
  have reads : ReadsTerminated cause build (tokens ++ semicolon :: after) _ := .read read
  rw [expect_of_kind cause after closes (by decide)] at reads
  exact reads

theorem not_closing_of_first {token : Token} (member : token.kind ∈ Symbol.declaration.firsts) :
    token.kind ≠ .rightBrace ∧ ¬token.isEnd := by
  have inside : ∀ kind ∈ Symbol.declarationFirsts, kind ≠ .rightBrace ∧ kind ≠ .endOfInput := by
    decide
  obtain ⟨stillOpen, ahead⟩ := inside token.kind member
  exact ⟨stillOpen, not_isEnd_of_kind rfl ahead⟩

namespace ExpressionRule

/-- An operand that no operator follows is an expression of every tier. -/
theorem reads_binary_of_unary (tier : Tier) {tokens after : List Token} {value : Expr}
    (read : ExpressionRule.unary.Reads tokens ⟨.ok value, [], after⟩)
    (ends : (Symbol.binary tier).EndsBefore after) :
    (ExpressionRule.binary tier).Reads tokens ⟨.ok value, [], after⟩ := by
  have operand : (ExpressionRule.operand tier).Reads tokens ⟨.ok value, [], after⟩ := by
    cases found : tier.tighter? with
    | none => exact .tightest found read
    | some next =>
        have lower := Tier.rank_tighter found
        have inner := ends.operand.tighter (Tier.hasOperands_iff.2 found)
        exact .tighter found (reads_binary_of_unary next read inner)
  obtain ⟨token, rest, rfl, stops⟩ := ends
  have other : token.kind ∉ tier.operators := fun operator => stops ⟨tier, Nat.le_refl _, operator⟩
  exact .operands operand (.chainEnd other)
termination_by tier.rank

end ExpressionRule

namespace Derivation

/-- The induction is on the derivation; what follows a part of it is what the next part begins
with. -/
theorem readsAs {symbol : Symbol} (derivation : Derivation symbol) (after : List Token) :
    symbol.ReadsAs derivation.tree derivation.tokens after := by
  induction derivation generalizing after with
  | nothing =>
      refine ⟨fun reply read => ?_, fun reply read => ?_⟩
      · exact (Reply.map_nil_append reply).symm ▸ read
      · exact (Reply.map_nil_append reply).symm ▸ read
  | next first rest ihFirst ihRest =>
      have declared := StatementRule.Reads.declared (ihFirst (rest.tokens ++ after))
      obtain ⟨token, more, begun, member⟩ := first.tokens_eq_cons id
      obtain ⟨stillOpen, ahead⟩ := not_closing_of_first member
      obtain ⟨inBlock, inProgram⟩ := ihRest after
      rw [begun, List.cons_append] at declared
      rw [Symbol.ReadsAs, tokens, List.append_assoc, begun, List.cons_append]
      constructor
      · intro reply read
        have reads := StatementRule.Reads.blockNext stillOpen ahead declared (inBlock reply read)
        rw [Reply.follow_nil, Reply.map_map] at reads
        exact reads
      · intro reply read
        have reads := StatementRule.Reads.programNext ahead declared (inProgram reply read)
        rw [Reply.follow_nil, Reply.map_map] at reads
        exact reads
  | «variable» word name semicolon isWord named closes =>
      have closing := expect_of_kind .declarationEndExpected after closes (by decide)
      have noEqual : semicolon.kind ≠ .equal := by
        rw [closes]
        decide
      have reads : ReadsVariable (name :: semicolon :: after) _ := .noInitial named noEqual
      rw [closing] at reads
      exact .variableWord isWord reads
  | initialized word name equals initial semicolon isWord named equal closes ih =>
      have value := ih (semicolon :: after) (Symbol.assignment_endsBefore after (Or.inl closes))
      rw [Symbol.ReadsAs, tokens, List.cons_append, List.cons_append, List.cons_append,
        List.append_assoc]
      exact .variableWord isWord (.initial named equal (.of_kind value closes))
  | print word value semicolon isWord closes ih =>
      have value := ih (semicolon :: after) (Symbol.assignment_endsBefore after (Or.inl closes))
      rw [Symbol.ReadsAs, tokens, List.cons_append, List.append_assoc]
      exact .otherWord (by rw [isWord]; decide) (.print isWord (.of_kind value closes))
  | block left body right opens closes ih =>
      have inside := (ih (right :: after)).1 ⟨.ok [], [], after⟩ (.blockEnd closes)
      have reads := StatementRule.Reads.braces opens inside
      rw [Symbol.ReadsAs, tokens, List.cons_append, List.append_assoc]
      rw [Reply.map_ok, Reply.map_ok, List.append_nil] at reads
      exact .otherWord (by rw [opens]; decide) reads
  | expression value semicolon closes ih =>
      have read := ih (semicolon :: after) (Symbol.assignment_endsBefore after (Or.inl closes))
      obtain ⟨token, more, begun, member⟩ := value.tokens_eq_cons id
      rw [begun, List.cons_append] at read
      rw [Symbol.ReadsAs, tokens, List.append_assoc, begun, List.cons_append]
      have led : ∀ kind ∈ Symbol.expressionFirsts,
          kind ≠ .varWord ∧ kind ≠ .printWord ∧ kind ≠ .leftBrace := by decide
      obtain ⟨noVariable, noPrint, noBlock⟩ := led token.kind member
      have terminated : ReadsTerminated .expressionEndExpected .expression
          (token :: more ++ semicolon :: after) _ := .of_kind read closes
      exact .otherWord noVariable (.expression noPrint noBlock terminated)
  | assign name equals value named equal ih =>
      intro ends
      have atom : ExpressionRule.primary.Reads (name :: equals :: (value.tokens ++ after)) _ :=
        .atom (atom?_of_standsFor (.name named))
      have operand := ExpressionRule.Reads.noOperator (by rw [named]; decide) atom
      have target := ExpressionRule.reads_binary_of_unary .equality operand
        (Symbol.equality_endsBefore _ equal)
      exact .assigned target equal (ih after ends)
  | equality value ih =>
      intro ends
      have read := ih after ends.equality
      obtain ⟨token, rest, rfl, stops⟩ := ends
      exact .noTarget read fun equal => stops (Or.inl equal)
  | binary first rest ihFirst ihRest =>
      intro ends
      have operand := ihFirst (rest.tokens ++ after) (operand_endsBefore rest ends)
      rw [tokens, List.append_assoc]
      exact .operands operand (ihRest after ends first.tree)
  | chainEnd =>
      intro ends soFar
      obtain ⟨token, rest, rfl, stops⟩ := ends
      exact .chainEnd fun operator => stops ⟨_, Nat.le_refl _, operator⟩
  | chainNext operator right rest isOperator ihRight ihRest =>
      intro ends soFar
      have operand := ihRight (rest.tokens ++ after) (operand_endsBefore rest ends)
      rw [tokens, List.cons_append, List.append_assoc]
      exact .chainNext (Tier.hasOperator_iff.1 isOperator) operand (ihRest after ends _)
  | tighter operand tighter ih =>
      intro ends
      exact .tighter (Tier.hasOperands_iff.1 tighter) (ih after (ends.tighter tighter))
  | tightest operand ih =>
      intro ends
      exact .tightest rfl (ih after)
  | unary operator operand isOperator ih =>
      exact .operator (isUnaryOperator_iff.1 isOperator) (ih after)
  | primary operand ih =>
      have read := ih after
      obtain ⟨token, more, begun, member⟩ := operand.tokens_eq_cons id
      rw [Symbol.ReadsAs, begun, List.cons_append] at read
      rw [Symbol.ReadsAs, tokens, begun, List.cons_append]
      have disjoint : ∀ kind ∈ Symbol.primaryFirsts, kind ∉ unaryOperators := by decide
      exact .noOperator (disjoint token.kind member) read
  | atom token tree stands => exact .atom (atom?_of_standsFor stands)
  | group left inner right opens closes ih =>
      have read := ih (right :: after) (Symbol.assignment_endsBefore after (Or.inr closes))
      have reads := ExpressionRule.Reads.group opens read
      rw [expect_of_kind .closingParenExpected after closes (by decide)] at reads
      rw [Symbol.ReadsAs, tokens, List.cons_append, List.append_assoc]
      exact reads

end Derivation

end Lox.Grammar
