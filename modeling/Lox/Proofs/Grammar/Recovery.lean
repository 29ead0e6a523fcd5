import Mathlib.Data.List.Forall2
import Lox.Proofs.Grammar.Exactness
import Lox.Proofs.Tree.Written

/-!
Whatever is wrong with a program, what is read of it is a program. The statements that are read,
written back as tokens, are a part of the input in its order, and reading that part finds nothing
wrong and comes to the same statements: `program_recovered`. What a rule keeps of the tokens has a
derivation; written anew, its tokens are derived the same way, and its tree is the same.
-/

set_option autoImplicit false

namespace Lox

namespace Token

/-- Whether a number has a number for its literal and a string a text. -/
structure Carries (token : Token) : Prop where
  number : token.kind = .number → ∃ value, token.literal = .number value
  string : token.kind = .string → ∃ value, token.literal = .text value

/-- The kinds of the tokens that a tree keeps: names and operators. -/
def keptKinds : List Token.Kind :=
  [.identifier, .bang, .minus, .plus, .slash, .star, .bangEqual, .equalEqual, .greater,
    .greaterEqual, .less, .lessEqual]

/-- A token written anew: a name or an operator as it is, and otherwise only what it stands for. -/
def rewritten (token : Token) : Token :=
  if token.kind ∈ keptKinds then token
  else if token.kind = .number ∨ token.kind = .string then .plain token.kind token.literal
  else .plain token.kind .nil

/-- A token that is written for another one is of its kind. For a name or an operator it is the same
token, and for a number or a string its literal is the same. -/
structure WrittenFor (written source : Token) : Prop where
  kind : written.kind = source.kind
  kept : source.kind ∈ keptKinds → written = source
  literal : source.kind = .number ∨ source.kind = .string → written.literal = source.literal

theorem rewritten_of_kept {token : Token} (kept : token.kind ∈ keptKinds) :
    token.rewritten = token :=
  if_pos kept

theorem rewritten_of_name {token : Token} (named : token.kind = .identifier) :
    token.rewritten = token :=
  rewritten_of_kept (by rw [named]; decide)

theorem rewritten_of_literal {token : Token}
    (literal : token.kind = .number ∨ token.kind = .string) :
    token.rewritten = .plain token.kind token.literal := by
  have other : token.kind ∉ keptKinds := by
    rcases literal with number | string
    · rw [number]
      decide
    · rw [string]
      decide
  rw [rewritten, if_neg other, if_pos literal]

theorem rewritten_of_kind {token : Token} {kind : Token.Kind} (same : token.kind = kind)
    (other : kind ∉ keptKinds ∧ kind ≠ .number ∧ kind ≠ .string) :
    token.rewritten = .plain kind .nil := by
  obtain ⟨notKept, noNumber, noString⟩ := other
  subst same
  rw [rewritten, if_neg notKept, if_neg (not_or.2 ⟨noNumber, noString⟩)]

@[simp]
theorem rewritten_kind (token : Token) : token.rewritten.kind = token.kind := by
  unfold rewritten
  split
  · rfl
  · split
    · rfl
    · rfl

theorem rewritten_writtenFor (token : Token) : token.rewritten.WrittenFor token := by
  refine ⟨token.rewritten_kind, rewritten_of_kept, ?_⟩
  intro literal
  rw [rewritten_of_literal literal]
  rfl

end Token

namespace Grammar

theorem Tier.HasOperator.kept {tier : Tier} {kind : Token.Kind} (operator : tier.HasOperator kind) :
    kind ∈ Token.keptKinds := by
  cases operator <;> decide

theorem IsUnaryOperator.kept {kind : Token.Kind} (operator : IsUnaryOperator kind) :
    kind ∈ Token.keptKinds := by
  cases operator <;> decide

/-- A token that is written anew stands for what it stood for. -/
theorem StandsFor.rewritten {token : Token} {tree : Expr} (stands : StandsFor token tree) :
    StandsFor token.rewritten tree := by
  cases stands with
  | number kind =>
      have number : StandsFor token.rewritten (.literal token.rewritten.literal) :=
        .number (token.rewritten_kind.trans kind)
      rwa [token.rewritten_writtenFor.literal (Or.inl kind)] at number
  | string kind =>
      have string : StandsFor token.rewritten (.literal token.rewritten.literal) :=
        .string (token.rewritten_kind.trans kind)
      rwa [token.rewritten_writtenFor.literal (Or.inr kind)] at string
  | trueWord kind => exact .trueWord (token.rewritten_kind.trans kind)
  | falseWord kind => exact .falseWord (token.rewritten_kind.trans kind)
  | nilWord kind => exact .nilWord (token.rewritten_kind.trans kind)
  | name kind =>
      rw [Token.rewritten_of_name kind]
      exact .name kind

theorem StandsFor.written {token : Token} {tree : Expr} (stands : StandsFor token tree)
    (carries : token.Carries) : tree.written = [token.rewritten] := by
  cases stands with
  | number kind =>
      obtain ⟨value, same⟩ := carries.number kind
      rw [Token.rewritten_of_literal (Or.inl kind), kind, same]
      rfl
  | string kind =>
      obtain ⟨value, same⟩ := carries.string kind
      rw [Token.rewritten_of_literal (Or.inr kind), kind, same]
      rfl
  | trueWord kind =>
      rw [Token.rewritten_of_kind kind (by decide)]
      rfl
  | falseWord kind =>
      rw [Token.rewritten_of_kind kind (by decide)]
      rfl
  | nilWord kind =>
      rw [Token.rewritten_of_kind kind (by decide)]
      rfl
  | name kind =>
      rw [Token.rewritten_of_name kind]
      rfl

namespace Derivation

/-- The same derivation of tokens written anew. -/
def rewritten {symbol : Symbol} : Derivation symbol → Derivation symbol
  | .nothing => .nothing
  | .next first rest => .next first.rewritten rest.rewritten
  | .variable word name semicolon isWord named closes =>
    .variable word.rewritten name.rewritten semicolon.rewritten (by simpa) (by simpa) (by simpa)
  | .initialized word name equals initial semicolon isWord named equal closes =>
    .initialized word.rewritten name.rewritten equals.rewritten initial.rewritten
      semicolon.rewritten (by simpa) (by simpa) (by simpa) (by simpa)
  | .print word value semicolon isWord closes =>
    .print word.rewritten value.rewritten semicolon.rewritten (by simpa) (by simpa)
  | .block left body right opens closes =>
    .block left.rewritten body.rewritten right.rewritten (by simpa) (by simpa)
  | .expression value semicolon closes =>
    .expression value.rewritten semicolon.rewritten (by simpa)
  | .assign name equals value named equal =>
    .assign name.rewritten equals.rewritten value.rewritten (by simpa) (by simpa)
  | .equality value => .equality value.rewritten
  | .binary first rest => .binary first.rewritten rest.rewritten
  | .chainEnd => .chainEnd
  | .chainNext operator right rest isOperator =>
    .chainNext operator.rewritten right.rewritten rest.rewritten (by simpa)
  | .tighter operand operands => .tighter operand.rewritten operands
  | .tightest operand => .tightest operand.rewritten
  | .unary operator operand isOperator =>
    .unary operator.rewritten operand.rewritten (by simpa)
  | .primary operand => .primary operand.rewritten
  | .atom token tree stands => .atom token.rewritten tree stands.rewritten
  | .group left inner right opens closes =>
    .group left.rewritten inner.rewritten right.rewritten (by simpa) (by simpa)

theorem tokens_rewritten {symbol : Symbol} (derivation : Derivation symbol) :
    derivation.rewritten.tokens = derivation.tokens.map Token.rewritten := by
  induction derivation <;>
    simp only [rewritten, tokens, List.map_append, List.map_cons, List.map_nil, *]

/-- Names and operators are what a tree keeps of its tokens. -/
theorem tree_rewritten {symbol : Symbol} (derivation : Derivation symbol) :
    derivation.rewritten.tree = derivation.tree := by
  induction derivation with
  | «variable» word name semicolon isWord named closes =>
      have same : name.rewritten = name := Token.rewritten_of_name named
      simp only [rewritten, tree, same]
  | initialized word name equals initial semicolon isWord named equal closes ih =>
      have same : name.rewritten = name := Token.rewritten_of_name named
      simp only [rewritten, tree, same, ih]
  | assign name equals value named equal ih =>
      have same : name.rewritten = name := Token.rewritten_of_name named
      simp only [rewritten, tree, same, ih]
  | chainNext operator right rest isOperator ihRight ihRest =>
      have same : operator.rewritten = operator := Token.rewritten_of_kept isOperator.kept
      simp only [rewritten, tree, same, ihRight, ihRest]
  | unary operator operand isOperator ih =>
      have same : operator.rewritten = operator := Token.rewritten_of_kept isOperator.kept
      simp only [rewritten, tree, same, ih]
  | _ => simp only [rewritten, tree, *]

end Derivation

/-- What a derivation stands for is written as some tokens. A chain is written after the operand
before it. -/
def Symbol.Writes : (symbol : Symbol) → symbol.Tree → List Token → Prop
  | .declarations, statements, tokens => Stmt.writtenAll statements = tokens
  | .declaration, statement, tokens => statement.written = tokens
  | .chain _, extend, tokens => ∀ soFar, (extend soFar).written = soFar.written ++ tokens
  | .assignment, tree, tokens => tree.written = tokens
  | .binary _, tree, tokens => tree.written = tokens
  | .operand _, tree, tokens => tree.written = tokens
  | .unary, tree, tokens => tree.written = tokens
  | .primary, tree, tokens => tree.written = tokens

namespace Derivation

/-- A tree is written as the tokens it is derived from, written anew. -/
theorem writes {symbol : Symbol} (derivation : Derivation symbol)
    (carries : ∀ token ∈ derivation.tokens, token.Carries) :
    symbol.Writes derivation.tree (derivation.tokens.map Token.rewritten) := by
  induction derivation with
  | nothing => rfl
  | next first rest ihFirst ihRest =>
      rw [tokens, List.forall_mem_append] at carries
      have front : first.tree.written = _ := ihFirst carries.1
      have back : Stmt.writtenAll rest.tree = _ := ihRest carries.2
      simp only [Symbol.Writes, tree, tokens, Stmt.writtenAll, front, back, List.map_append]
  | «variable» word name semicolon isWord named closes =>
      simp only [Symbol.Writes, tree, tokens, Stmt.written, List.map_cons, List.map_nil,
        Token.rewritten_of_kind isWord (by decide), Token.rewritten_of_name named,
        Token.rewritten_of_kind closes (by decide)]
  | initialized word name equals initial semicolon isWord named equal closes ih =>
      simp only [tokens, List.forall_mem_cons, List.forall_mem_append] at carries
      have value : initial.tree.written = _ := ih carries.2.2.2.1
      simp only [Symbol.Writes, tree, tokens, Stmt.written, value, List.map_cons, List.map_nil,
        List.map_append, Token.rewritten_of_kind isWord (by decide), Token.rewritten_of_name named,
        Token.rewritten_of_kind equal (by decide), Token.rewritten_of_kind closes (by decide)]
  | print word value semicolon isWord closes ih =>
      rw [tokens, List.forall_mem_cons, List.forall_mem_append] at carries
      have inner : value.tree.written = _ := ih carries.2.1
      simp only [Symbol.Writes, tree, tokens, Stmt.written, inner, List.map_cons, List.map_nil,
        List.map_append, Token.rewritten_of_kind isWord (by decide),
        Token.rewritten_of_kind closes (by decide)]
  | block left body right opens closes ih =>
      rw [tokens, List.forall_mem_cons, List.forall_mem_append] at carries
      have inner : Stmt.writtenAll body.tree = _ := ih carries.2.1
      simp only [Symbol.Writes, tree, tokens, Stmt.written, inner, List.map_cons, List.map_nil,
        List.map_append, Token.rewritten_of_kind opens (by decide),
        Token.rewritten_of_kind closes (by decide)]
  | expression value semicolon closes ih =>
      rw [tokens, List.forall_mem_append] at carries
      have inner : value.tree.written = _ := ih carries.1
      simp only [Symbol.Writes, tree, tokens, Stmt.written, inner, List.map_cons, List.map_nil,
        List.map_append, Token.rewritten_of_kind closes (by decide)]
  | assign name equals value named equal ih =>
      rw [tokens, List.forall_mem_cons, List.forall_mem_cons] at carries
      have inner : value.tree.written = _ := ih carries.2.2
      simp only [Symbol.Writes, tree, tokens, Expr.written, inner, List.map_cons,
        Token.rewritten_of_name named, Token.rewritten_of_kind equal (by decide)]
  | equality value ih => exact ih carries
  | binary first rest ihFirst ihRest =>
      rw [tokens, List.forall_mem_append] at carries
      have front : first.tree.written = _ := ihFirst carries.1
      have back := ihRest carries.2 first.tree
      simp only [Symbol.Writes, tree, tokens, back, front, List.map_append]
  | chainEnd =>
      intro soFar
      exact (List.append_nil _).symm
  | chainNext operator right rest isOperator ihRight ihRest =>
      rw [tokens, List.forall_mem_cons, List.forall_mem_append] at carries
      intro soFar
      have front : right.tree.written = _ := ihRight carries.2.1
      have back := ihRest carries.2.2 (.binary soFar operator right.tree)
      simp only [tree, tokens, back, Expr.written, front, List.map_cons, List.map_append,
        Token.rewritten_of_kept isOperator.kept, List.append_assoc, List.cons_append]
  | tighter operand operands ih => exact ih carries
  | tightest operand ih => exact ih carries
  | unary operator operand isOperator ih =>
      rw [tokens, List.forall_mem_cons] at carries
      have inner : operand.tree.written = _ := ih carries.2
      simp only [Symbol.Writes, tree, tokens, Expr.written, inner, List.map_cons,
        Token.rewritten_of_kept isOperator.kept]
  | primary operand ih => exact ih carries
  | atom token tree stands => exact stands.written (carries token (List.mem_singleton_self token))
  | group left inner right opens closes ih =>
      rw [tokens, List.forall_mem_cons, List.forall_mem_append] at carries
      have value : inner.tree.written = _ := ih carries.2.1
      simp only [Symbol.Writes, tree, tokens, Expr.written, value, List.map_cons, List.map_nil,
        List.map_append, Token.rewritten_of_kind opens (by decide),
        Token.rewritten_of_kind closes (by decide)]

end Derivation

theorem exists_kept_of_program (body : List Token) {last : Token}
    (inside : ∀ token ∈ body, ¬token.isEnd) (ended : last.isEnd) :
    ∃ (derivation : Derivation .declarations) (errors : List SyntaxError),
      (Grammar.program (body ++ [last])).val = ⟨.ok derivation.tree, errors, [last]⟩ ∧
        derivation.tokens.Sublist body := by
  obtain ⟨statements, errors, same⟩ := program_reaches_end body inside ended
  have reads := StatementRule.reads_answer .program (body ++ [last])
  have keeps := reads.keeps statements (congrArg Reply.outcome same)
  obtain ⟨used, kept, split, sublist, -, derivation, rfl, rfl⟩ := keeps
  have rest : (StatementRule.answer .program (body ++ [last])).rest = [last] :=
    congrArg Reply.rest same
  rw [rest] at split
  obtain rfl : body = used := List.append_cancel_right split
  exact ⟨derivation, errors, same, sublist⟩

/-- What is read of any input, written back as tokens, is a part of the input in its order, and
reading that finds nothing wrong and comes to the same statements. -/
theorem program_recovered (body : List Token) (last : Token)
    (inside : ∀ token ∈ body, ¬token.isEnd) (ended : last.isEnd)
    (carries : ∀ token ∈ body, token.Carries) :
    ∃ statements : List Stmt,
      ((Cursor.start (body ++ [last])).perform .program).1 = .ok (.statements statements) ∧
        (∃ kept : List Token, kept.Sublist body ∧
          List.Forall₂ Token.WrittenFor (Stmt.writtenAll statements) kept) ∧
          ∀ ending : Token, ending.isEnd →
            (Cursor.start (Stmt.writtenAll statements ++ [ending])).perform .program =
              (.ok (.statements statements),
                ⟨Stmt.writtenAll statements ++ [ending],
                  (Stmt.writtenAll statements).length, []⟩) := by
  obtain ⟨derivation, errors, read, sublist⟩ := exists_kept_of_program body inside ended
  have written : Stmt.writtenAll derivation.tree = derivation.tokens.map Token.rewritten :=
    derivation.writes fun token member => carries token (sublist.subset member)
  refine ⟨derivation.tree, ?_, ⟨derivation.tokens, sublist, ?_⟩, ?_⟩
  · rw [perform_program, read]
    rfl
  · rw [written, List.forall₂_map_left_iff]
    exact List.forall₂_same.2 fun token _ => token.rewritten_writtenFor
  · intro ending isEnd
    have again := program_of_derivation derivation.rewritten isEnd
    rw [derivation.tokens_rewritten, derivation.tree_rewritten, ← written] at again
    rw [perform_program, again, List.length_append, Nat.add_sub_cancel]
    rfl

/-- Of `{ print ; (a) = b; } { "c";` the group is read, in a block: the target is refused, what
follows `print` is missing and the last block is not closed. -/
theorem program_recovered_group :
    let body : List Token := [⟨.leftBrace, "\x7b", .nil, 1⟩, ⟨.printWord, "print", .nil, 1⟩,
      ⟨.semicolon, ";", .nil, 1⟩, ⟨.leftParen, "(", .nil, 1⟩, ⟨.identifier, "a", .nil, 1⟩,
      ⟨.rightParen, ")", .nil, 1⟩, ⟨.equal, "=", .nil, 1⟩, ⟨.identifier, "b", .nil, 1⟩,
      ⟨.semicolon, ";", .nil, 1⟩, ⟨.rightBrace, "\x7d", .nil, 1⟩, ⟨.leftBrace, "\x7b", .nil, 1⟩,
      ⟨.string, "c", .text "c", 1⟩, ⟨.semicolon, ";", .nil, 1⟩]
    let last : Token := ⟨.endOfInput, "", .nil, 1⟩
    (∀ token ∈ body, ¬token.isEnd) ∧ last.isEnd ∧ (∀ token ∈ body, token.Carries) ∧
      ∃ statements : List Stmt,
        ((Cursor.start (body ++ [last])).perform .program).1 = .ok (.statements statements) ∧
          (Stmt.writtenAll statements).map (·.kind) = [.leftBrace, .leftParen, .identifier,
            .rightParen, .semicolon, .rightBrace] ∧
            ((Cursor.start (Stmt.writtenAll statements ++ [last])).perform .program).1 =
              .ok (.statements statements) := by
  intro body last
  have inside : ∀ token ∈ body, ¬token.isEnd := by decide
  have ended : last.isEnd := by decide
  have carries : ∀ token ∈ body, token.Carries := by
    intro token member
    have literals : ∀ token ∈ body, token.kind ≠ .number ∧
        (token.kind = .string → token.literal = .text "c") := by decide
    obtain ⟨noNumber, string⟩ := literals token member
    exact ⟨fun number => absurd number noNumber, fun kind => ⟨"c", string kind⟩⟩
  obtain ⟨statements, read, -, again⟩ := program_recovered body last inside ended carries
  have written : (match ((Cursor.start (body ++ [last])).perform .program).1 with
      | .ok (.statements statements) => (Stmt.writtenAll statements).map (·.kind)
      | _ => []) = [.leftBrace, .leftParen, .identifier, .rightParen, .semicolon, .rightBrace] := by
    decide +kernel
  rw [read] at written
  refine ⟨inside, ended, carries, statements, read, written, ?_⟩
  rw [again last ended]

end Grammar

end Lox
