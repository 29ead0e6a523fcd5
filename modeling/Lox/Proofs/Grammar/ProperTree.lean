import Lox.Proofs.Grammar.Soundness
import Lox.Proofs.Tree.Proper

/-!
What is read is proper, whatever is wrong around it: `program_proper`. A tree that is read is that
of a derivation, and a derivation takes every operator from its own place in the grammar.
-/

set_option autoImplicit false

namespace Lox.Grammar

/-- A chain of operators makes proper trees of proper trees. -/
def Symbol.IsProper : (symbol : Symbol) → symbol.Tree → Prop
  | .declarations, tree => ∀ statement ∈ tree, statement.Proper
  | .declaration, tree => tree.Proper
  | .chain _, tree => ∀ soFar, soFar.Proper → (tree soFar).Proper
  | .assignment, tree => tree.Proper
  | .binary _, tree => tree.Proper
  | .operand _, tree => tree.Proper
  | .unary, tree => tree.Proper
  | .primary, tree => tree.Proper

theorem StandsFor.proper {token : Token} {tree : Expr} (stands : StandsFor token tree) :
    tree.Proper := by
  cases stands with
  | number kind => exact .literal _
  | string kind => exact .literal _
  | trueWord kind => exact .literal _
  | falseWord kind => exact .literal _
  | nilWord kind => exact .literal _
  | name kind => exact .var token

theorem Derivation.proper {symbol : Symbol} (derivation : Derivation symbol) :
    symbol.IsProper derivation.tree := by
  induction derivation with
  | nothing => exact nofun
  | next first rest head tail => exact List.forall_mem_cons.2 ⟨head, tail⟩
  | «variable» word name semicolon isWord named closes => exact .declare name
  | initialized word name equals initial semicolon isWord named equal closes ih =>
      exact .initialized name ih
  | print word value semicolon isWord closes ih => exact .print ih
  | block left body right opens closes ih => exact .block ih
  | expression value semicolon closes ih => exact .expression ih
  | assign name equals value named equal ih => exact .assign name ih
  | equality value ih => exact ih
  | binary first rest head tail => exact tail first.tree head
  | chainEnd =>
      intro soFar proper
      exact proper
  | @chainNext tier operator right rest isOperator head tail =>
      intro soFar proper
      exact tail _ (.binary tier (Tier.hasOperator_iff.1 isOperator) proper head)
  | tighter operand tighter ih => exact ih
  | tightest operand ih => exact ih
  | unary operator operand isOperator ih =>
      exact .unary (isUnaryOperator_iff.1 isOperator) ih
  | primary operand ih => exact ih
  | atom token tree stands => exact stands.proper
  | group left inner right opens closes ih => exact .group ih

/-- The statements that are read of some tokens are proper, also next to syntax errors. -/
theorem program_proper {tokens : List Token} {statements : List Stmt}
    (read : (Grammar.program tokens).val.outcome = .ok statements) :
    ∀ statement ∈ statements, statement.Proper := by
  have reads := StatementRule.reads_answer .program tokens
  obtain ⟨used, kept, -, -, -, derivation, rfl, -⟩ := reads.keeps statements read
  exact derivation.proper

end Lox.Grammar
