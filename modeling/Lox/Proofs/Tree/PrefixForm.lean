import Lox.Proofs.Tree.Proper
import Lox.Tree.PrefixForm

/-!
Proper trees can be written out: there is no gap in them, so every one has a prefix form.
-/

set_option autoImplicit false

namespace Lox

theorem Expr.Proper.exists_prefixForm {expression : Expr} (proper : expression.Proper) :
    ∃ text, expression.toNode.prefixForm? = some text := by
  induction proper with
  | literal value => exact ⟨_, rfl⟩
  | group proper ih =>
      obtain ⟨inner, written⟩ := ih
      rw [Expr.toNode, Node.prefixForm?, written]
      exact ⟨_, rfl⟩
  | unary isOperator proper ih =>
      obtain ⟨operand, written⟩ := ih
      rw [Expr.toNode, Node.prefixForm?, written]
      exact ⟨_, rfl⟩
  | binary tier isOperator proper properRight first second =>
      obtain ⟨left, written⟩ := first
      obtain ⟨right, writtenRight⟩ := second
      rw [Expr.toNode, Node.prefixForm?, written, writtenRight]
      exact ⟨_, rfl⟩
  | assign name proper ih =>
      obtain ⟨value, written⟩ := ih
      rw [Expr.toNode, Node.prefixForm?, written]
      exact ⟨_, rfl⟩
  | var name => exact ⟨_, rfl⟩

theorem Expr.Proper.toNode_ne_missing {expression : Expr} (proper : expression.Proper) :
    expression.toNode ≠ .missing := by
  cases proper <;> simp [Expr.toNode]

namespace Stmt

theorem exists_prefixForms_of_each {statements : List Stmt}
    (each : ∀ statement ∈ statements, ∃ text, statement.toNode.prefixForm? = some text) :
    ∃ texts, Node.prefixForms? (toNodes statements) = some texts := by
  induction statements with
  | nil => exact ⟨[], rfl⟩
  | cons statement rest ih =>
      rw [List.forall_mem_cons] at each
      obtain ⟨text, written⟩ := each.1
      obtain ⟨texts, others⟩ := ih each.2
      rw [toNodes, Node.prefixForms?, written, others]
      exact ⟨_, rfl⟩

theorem Proper.exists_prefixForm {statement : Stmt} (proper : statement.Proper) :
    ∃ text, statement.toNode.prefixForm? = some text := by
  induction proper with
  | expression proper =>
      obtain ⟨inner, written⟩ := proper.exists_prefixForm
      rw [toNode, Node.prefixForm?, written]
      exact ⟨_, rfl⟩
  | print proper =>
      obtain ⟨inner, written⟩ := proper.exists_prefixForm
      rw [toNode, Node.prefixForm?, written]
      exact ⟨_, rfl⟩
  | declare name => exact ⟨_, rfl⟩
  | initialized name proper =>
      obtain ⟨initial, written⟩ := proper.exists_prefixForm
      rw [toNode, Node.prefixForm?, written]
      · exact ⟨_, rfl⟩
      · exact proper.toNode_ne_missing
  | block proper ih =>
      obtain ⟨body, written⟩ := exists_prefixForms_of_each ih
      rw [toNode, Node.prefixForm?, written]
      exact ⟨_, rfl⟩

/-- A proper program has a prefix form. -/
theorem exists_programForm {statements : List Stmt}
    (proper : ∀ statement ∈ statements, statement.Proper) :
    ∃ text, Node.programForm? (toNodes statements) = some text := by
  obtain ⟨texts, written⟩ :=
    exists_prefixForms_of_each fun statement member => (proper statement member).exists_prefixForm
  rw [Node.programForm?, written]
  exact ⟨_, rfl⟩

end Stmt

end Lox
