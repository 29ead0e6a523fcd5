import Lox.Proofs.Grammar.Soundness
import Lox.Proofs.Scan.Lexemes
import Lox.Proofs.Tree.ReadBack

/-!
Trees of scanned texts. What is read of tokens that are those of lexemes is a scanned tree, whatever
is wrong around it: `program_scanned`. A derivation takes every name, operator and literal of its
tree from one of its tokens.
-/

set_option autoImplicit false

namespace Lox

open Segment

/-- The token of a lexeme, on some line. -/
def Token.IsLexeme (token : Token) : Prop :=
  ∃ (lexeme : Lexeme) (line : Int), token = lexeme.token line

namespace Token.IsLexeme

variable {token : Token} (isLexeme : token.IsLexeme)

include isLexeme

theorem isName (kind : token.kind = .identifier) : token.IsName := by
  have reserved : ∀ entry ∈ keywords, entry.2 ≠ .identifier := by decide
  have listed : ∀ entry ∈ symbols, entry.2 ≠ .identifier := by decide
  obtain ⟨lexeme, line, rfl⟩ := isLexeme
  cases lexeme with
  | symbol text kind member => exact absurd kind (listed _ member)
  | reserved word kind member => exact absurd kind (reserved _ member)
  | identifier first rest starts goesOn free =>
      refine ⟨rfl, rfl, ⟨first, rest, String.toList_ofList, starts, goesOn⟩, ?_⟩
      intro entry listed same
      rw [reserved_eq] at listed
      exact free entry listed (same.trans String.toList_ofList)
  | number whole fraction inhabited digits => cases kind
  | string body inside => cases kind

theorem isOperator (kind : token.kind ∈ Token.operators.map Prod.snd) : token.IsOperator := by
  have reserved : ∀ entry ∈ keywords, entry.2 ∉ Token.operators.map Prod.snd := by decide
  have noName : .identifier ∉ Token.operators.map Prod.snd := by decide
  have noNumber : .number ∉ Token.operators.map Prod.snd := by decide
  have noString : .string ∉ Token.operators.map Prod.snd := by decide
  have listed : ∀ entry ∈ symbols, entry.2 ∈ Token.operators.map Prod.snd →
      entry ∈ Token.operators := by decide
  obtain ⟨lexeme, line, rfl⟩ := isLexeme
  cases lexeme with
  | symbol text found member =>
      refine ⟨?_, rfl⟩
      rw [Lexeme.token, String.toList_ofList]
      exact listed _ member kind
  | reserved word found member => exact absurd kind (reserved _ member)
  | identifier first rest starts goesOn free => exact absurd kind noName
  | number whole fraction inhabited digits => exact absurd kind noNumber
  | string body inside => exact absurd kind noString

theorem isUnquoted : token.literal.IsUnquoted := by
  intro text same
  obtain ⟨lexeme, line, rfl⟩ := isLexeme
  cases lexeme with
  | string body inside =>
      rw [← Value.text.inj same, String.toList_ofList]
      exact inside
  | _ => cases same

end Token.IsLexeme

namespace Grammar

/-- A chain of operators makes scanned trees of scanned trees. -/
def Symbol.IsScanned : (symbol : Symbol) → symbol.Tree → Prop
  | .declarations, tree => ∀ statement ∈ tree, statement.Scanned
  | .declaration, tree => tree.Scanned
  | .chain _, tree => ∀ soFar, soFar.Scanned → (tree soFar).Scanned
  | .assignment, tree => tree.Scanned
  | .binary _, tree => tree.Scanned
  | .operand _, tree => tree.Scanned
  | .unary, tree => tree.Scanned
  | .primary, tree => tree.Scanned

theorem StandsFor.scanned {token : Token} {tree : Expr} (stands : StandsFor token tree)
    (isLexeme : token.IsLexeme) : tree.Scanned := by
  cases stands with
  | number kind => exact .literal isLexeme.isUnquoted
  | string kind => exact .literal isLexeme.isUnquoted
  | trueWord kind => exact .literal nofun
  | falseWord kind => exact .literal nofun
  | nilWord kind => exact .literal nofun
  | name kind => exact .var (isLexeme.isName kind)

theorem Tier.HasOperator.mem_operators {tier : Tier} {kind : Token.Kind}
    (isOperator : tier.HasOperator kind) : kind ∈ Token.operators.map Prod.snd := by
  cases isOperator <;> decide

theorem IsUnaryOperator.mem_operators {kind : Token.Kind} (isOperator : IsUnaryOperator kind) :
    kind ∈ Token.operators.map Prod.snd := by
  cases isOperator <;> decide

theorem Derivation.scanned {symbol : Symbol} (derivation : Derivation symbol)
    (lexemes : ∀ token ∈ derivation.tokens, token.IsLexeme) :
    symbol.IsScanned derivation.tree := by
  induction derivation with
  | nothing => exact nofun
  | next first rest head tail =>
      rw [tokens, List.forall_mem_append] at lexemes
      exact List.forall_mem_cons.2 ⟨head lexemes.1, tail lexemes.2⟩
  | «variable» word name semicolon isWord named closes =>
      exact .declare ((lexemes name (by simp [tokens])).isName named)
  | initialized word name equals initial semicolon isWord named equal closes ih =>
      simp only [tokens, List.forall_mem_cons, List.forall_mem_append] at lexemes
      exact .initialized (lexemes.2.1.isName named) (ih lexemes.2.2.2.1)
  | print word value semicolon isWord closes ih =>
      simp only [tokens, List.forall_mem_cons, List.forall_mem_append] at lexemes
      exact .print (ih lexemes.2.1)
  | block left body right opens closes ih =>
      simp only [tokens, List.forall_mem_cons, List.forall_mem_append] at lexemes
      exact .block (ih lexemes.2.1)
  | expression value semicolon closes ih =>
      rw [tokens, List.forall_mem_append] at lexemes
      exact .expression (ih lexemes.1)
  | assign name equals value named equal ih =>
      simp only [tokens, List.forall_mem_cons] at lexemes
      exact .assign (lexemes.1.isName named) (ih lexemes.2.2)
  | equality value ih => exact ih lexemes
  | binary first rest head tail =>
      rw [tokens, List.forall_mem_append] at lexemes
      exact tail lexemes.2 first.tree (head lexemes.1)
  | chainEnd =>
      intro soFar scanned
      exact scanned
  | chainNext operator right rest isOperator head tail =>
      simp only [tokens, List.forall_mem_cons, List.forall_mem_append] at lexemes
      intro soFar scanned
      have operator := lexemes.1.isOperator isOperator.mem_operators
      exact tail lexemes.2.2 _ (.binary operator scanned (head lexemes.2.1))
  | tighter operand tighter ih => exact ih lexemes
  | tightest operand ih => exact ih lexemes
  | unary operator operand isOperator ih =>
      rw [tokens, List.forall_mem_cons] at lexemes
      exact .unary (lexemes.1.isOperator isOperator.mem_operators) (ih lexemes.2)
  | primary operand ih => exact ih lexemes
  | atom token tree stands => exact stands.scanned (lexemes token (by simp [tokens]))
  | group left inner right opens closes ih =>
      simp only [tokens, List.forall_mem_cons, List.forall_mem_append] at lexemes
      exact .group (ih lexemes.2.1)

/-- The statements that are read of the tokens of lexemes are scanned, also next to syntax
errors. -/
theorem program_scanned {body : List Token} {last : Token} {statements : List Stmt}
    {errors : List SyntaxError} (lexemes : ∀ token ∈ body, token.IsLexeme)
    (read : (Grammar.program (body ++ [last])).val = ⟨.ok statements, errors, [last]⟩) :
    ∀ statement ∈ statements, statement.Scanned := by
  have reads := StatementRule.reads_answer .program (body ++ [last])
  have keeps := reads.keeps statements (congrArg Reply.outcome read)
  obtain ⟨used, kept, split, sublist, -, derivation, rfl, rfl⟩ := keeps
  have rest : (StatementRule.answer .program (body ++ [last])).rest = [last] :=
    congrArg Reply.rest read
  rw [rest] at split
  obtain rfl : body = used := List.append_cancel_right split
  exact derivation.scanned fun token member => lexemes token (sublist.subset member)

end Grammar

end Lox
