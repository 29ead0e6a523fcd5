import Lox.Proofs.Grammar.Chunk

/-!
A semicolon that is not there. A statement without the one at its end is refused at whatever token
comes next, and recovery goes past that token before it looks for a place to take reading up again.
So a declaration that begins with it is left out as well, and what is read goes on behind that
declaration: `program_missing_semicolon`.
-/

set_option autoImplicit false

namespace Lox.Grammar

/-- What is wrong with a declaration that has something else in the place of its last token. -/
def Derivation.endExpected : Derivation .declaration → SyntaxError.Cause
  | .variable _ _ _ _ _ _ => .declarationEndExpected
  | .initialized _ _ _ _ _ _ _ _ _ => .declarationEndExpected
  | .print _ _ _ _ _ => .printEndExpected
  | .block _ _ _ _ _ => .closingBraceExpected
  | .expression _ _ _ => .expressionEndExpected

/-! Up to its semicolon, a declaration that begins with `var` or `print` has no token where skipping
ends. -/

theorem isSkipped_of_mem_expressionKinds {token : Token} (used : token.kind ∈ expressionKinds) :
    IsSkipped token := by
  have skipped : ∀ kind ∈ expressionKinds,
      kind ≠ .endOfInput ∧ kind ≠ .semicolon ∧ kind ∉ statementStarters := by decide
  obtain ⟨notEnd, noSemicolon, noStarter⟩ := skipped token.kind used
  exact ⟨not_isEnd_of_kind rfl notEnd, noSemicolon, noStarter⟩

theorem Derivation.mem_expressionKinds {symbol : Symbol} (derivation : Derivation symbol)
    (ofExpression : symbol ≠ .declarations ∧ symbol ≠ .declaration) :
    ∀ token ∈ derivation.tokens, token.kind ∈ expressionKinds := by
  induction derivation with
  | nothing => exact absurd rfl ofExpression.1
  | next _ _ _ _ => exact absurd rfl ofExpression.1
  | «variable» _ _ _ _ _ _ => exact absurd rfl ofExpression.2
  | initialized _ _ _ _ _ _ _ _ _ _ => exact absurd rfl ofExpression.2
  | print _ _ _ _ _ _ => exact absurd rfl ofExpression.2
  | block _ _ _ _ _ _ => exact absurd rfl ofExpression.2
  | expression _ _ _ _ => exact absurd rfl ofExpression.2
  | assign name equals value named equal ih =>
      have inner := ih ⟨nofun, nofun⟩
      simp only [tokens, List.forall_mem_cons]
      exact ⟨mem_expressionKinds_of_kind named (by decide),
        mem_expressionKinds_of_kind equal (by decide), inner⟩
  | equality value ih => exact ih ⟨nofun, nofun⟩
  | binary first rest ihFirst ihRest =>
      rw [tokens, List.forall_mem_append]
      exact ⟨ihFirst ⟨nofun, nofun⟩, ihRest ⟨nofun, nofun⟩⟩
  | chainEnd => exact List.forall_mem_nil _
  | chainNext operator right rest isOperator ihRight ihRest =>
      rw [tokens, List.forall_mem_cons, List.forall_mem_append]
      exact ⟨mem_expressionKinds_of_operator (Tier.hasOperator_iff.1 isOperator),
        ihRight ⟨nofun, nofun⟩, ihRest ⟨nofun, nofun⟩⟩
  | tighter operand operands ih => exact ih ⟨nofun, nofun⟩
  | tightest operand ih => exact ih ⟨nofun, nofun⟩
  | unary operator operand isOperator ih =>
      rw [tokens, List.forall_mem_cons]
      exact ⟨mem_expressionKinds_of_unary (isUnaryOperator_iff.1 isOperator), ih ⟨nofun, nofun⟩⟩
  | primary operand ih => exact ih ⟨nofun, nofun⟩
  | atom token tree stands =>
      rw [tokens, List.forall_mem_singleton]
      exact mem_expressionKinds_of_atom (atom?_of_standsFor stands)
  | group left inner right opens closes ih =>
      rw [tokens, List.forall_mem_cons, List.forall_mem_append, List.forall_mem_singleton]
      exact ⟨mem_expressionKinds_of_kind opens (by decide), ih ⟨nofun, nofun⟩,
        mem_expressionKinds_of_kind closes (by decide)⟩

section Next

variable {word semicolon : Token} (begins : word.kind = .varWord ∨ word.kind = .printWord)

include begins in
theorem synchronize_past (closes : semicolon.kind = .semicolon) {inner more : List Token}
    (inside : ∀ token ∈ inner, token.kind ∈ expressionKinds) (goesOn : more ≠ []) :
    (synchronize (word :: (inner ++ [semicolon]) ++ more)).val = ⟨.ok (), [], more⟩ := by
  have isWord : ¬word.isEnd ∧ word.kind ≠ .semicolon := by
    rcases begins with begins | begins
    · exact ⟨not_isEnd_of_kind begins (by decide), by rw [begins]; decide⟩
    · exact ⟨not_isEnd_of_kind begins (by decide), by rw [begins]; decide⟩
  have skipped : ∀ token ∈ inner, IsSkipped token := fun token member =>
    isSkipped_of_mem_expressionKinds (inside token member)
  -- The word begins a statement, but it is the first token, and that is skipped in any case.
  have front : ∀ token ∈ word :: inner, ¬token.isEnd ∧ token.kind ≠ .semicolon := by
    rw [List.forall_mem_cons]
    exact ⟨isWord, fun token member => ⟨(skipped token member).1, (skipped token member).2.1⟩⟩
  have found := synchronize_to_semicolon closes front
    (fun token member => (skipped token member).2.2) goesOn
  rw [List.cons_append, List.append_assoc]
  exact found

/-- Where recovery begins in front of such a declaration, it goes past all of it. -/
theorem Derivation.synchronize_past (next : Derivation .declaration)
    (begins : ∀ word ∈ next.tokens.head?, word.kind = .varWord ∨ word.kind = .printWord)
    {more : List Token} (goesOn : more ≠ []) :
    (synchronize (next.tokens ++ more)).val = ⟨.ok (), [], more⟩ := by
  cases next with
  | «variable» word name semicolon isWord named closes =>
      have inside : ∀ token ∈ [name], token.kind ∈ expressionKinds := by
        rw [List.forall_mem_singleton]
        exact mem_expressionKinds_of_kind named (by decide)
      exact Grammar.synchronize_past (Or.inl isWord) closes inside goesOn
  | initialized word name equals initial semicolon isWord named equal closes =>
      have inside : ∀ token ∈ name :: equals :: initial.tokens, token.kind ∈ expressionKinds := by
        rw [List.forall_mem_cons, List.forall_mem_cons]
        exact ⟨mem_expressionKinds_of_kind named (by decide),
          mem_expressionKinds_of_kind equal (by decide),
          initial.mem_expressionKinds ⟨nofun, nofun⟩⟩
      exact Grammar.synchronize_past (Or.inl isWord) closes inside goesOn
  | print word value semicolon isWord closes =>
      exact Grammar.synchronize_past (Or.inr isWord) closes
        (value.mem_expressionKinds ⟨nofun, nofun⟩) goesOn
  | block left body right opens closes =>
      rcases begins left rfl with begins | begins <;> rw [opens] at begins <;> cases begins
  | expression value semicolon closes =>
      obtain ⟨token, rest, same, first⟩ := value.tokens_eq_cons id
      have head : token ∈ (value.tokens ++ [semicolon]).head? := by rw [same]; rfl
      have other : ∀ kind ∈ Symbol.expressionFirsts, kind ≠ .varWord ∧ kind ≠ .printWord := by
        decide
      obtain ⟨noVariable, noPrint⟩ := other token.kind first
      exact ((begins token head).elim noVariable noPrint).elim

end Next

section Unended

variable {next : Token} (rest : List Token) (bounds : next.kind ∉ expressionKinds)
  (other : next.kind ≠ .semicolon)

include other in
theorem expect_unended (cause : SyntaxError.Cause) (build : Token → Stmt) :
    (expect .semicolon cause (next :: rest)).val.val.map build =
      (ReplyTo.refuse cause next rest).val := by
  rcases expect_cases .semicolon cause next rest with ⟨closes, -, -⟩ | ⟨-, same⟩
  · exact absurd closes other
  · rw [same]
    rfl

include bounds other

theorem ReadsTerminated.unended {cause : SyntaxError.Cause} {build : Expr → Stmt}
    (value : Derivation .assignment) :
    ReadsTerminated cause build (value.tokens ++ next :: rest)
      (ReplyTo.refuse cause next rest).val := by
  have read := value.readsAs (next :: rest) (Symbol.assignment_endsBefore_of_bounds rest bounds)
  have reads : ReadsTerminated cause build _ _ := .read read
  rw [expect_unended rest other] at reads
  exact reads

/-- A statement without its semicolon is refused at the token that comes after it, and records no
other error. -/
theorem Derivation.attempt_unended (statement : Derivation .declaration) {front : List Token}
    {semicolon : Token} (cut : statement.tokens = front ++ [semicolon])
    (closes : semicolon.kind = .semicolon) :
    StatementRule.attempt.Reads (front ++ next :: rest)
      (ReplyTo.refuse statement.endExpected next rest).val := by
  cases statement with
  | «variable» word name last isWord named _ =>
      have split : [word, name] ++ [last] = front ++ [semicolon] := cut
      obtain ⟨rfl, -⟩ := List.append_inj' split rfl
      have noEqual : next.kind ≠ .equal := fun equal =>
        bounds (mem_expressionKinds_of_kind equal (by decide))
      have reads : ReadsVariable (name :: next :: rest) _ := .noInitial named noEqual
      rw [expect_unended rest other] at reads
      exact .variableWord isWord reads
  | initialized word name equals initial last isWord named equal _ =>
      have split : word :: name :: equals :: initial.tokens ++ [last] = front ++ [semicolon] := cut
      obtain ⟨rfl, -⟩ := List.append_inj' split rfl
      exact .variableWord isWord (.initial named equal (.unended rest bounds other initial))
  | print word value last isWord _ =>
      have split : word :: value.tokens ++ [last] = front ++ [semicolon] := cut
      obtain ⟨rfl, -⟩ := List.append_inj' split rfl
      exact .otherWord (by rw [isWord]; decide) (.print isWord (.unended rest bounds other value))
  | block left body right opens isRight =>
      have split : left :: body.tokens ++ [right] = front ++ [semicolon] := cut
      obtain ⟨-, ⟨⟩⟩ := List.append_inj' split rfl
      rw [isRight] at closes
      cases closes
  | expression value last _ =>
      obtain ⟨rfl, -⟩ := List.append_inj' cut rfl
      obtain ⟨token, more, same, first⟩ := value.tokens_eq_cons id
      have apart : ∀ kind ∈ Symbol.expressionFirsts,
          kind ≠ .varWord ∧ kind ≠ .printWord ∧ kind ≠ .leftBrace := by decide
      obtain ⟨noVariable, noPrint, noBlock⟩ := apart token.kind first
      have read : ReadsTerminated .expressionEndExpected .expression _ _ :=
        .unended rest bounds other value
      rw [same] at read ⊢
      exact .otherWord noVariable (.expression noPrint noBlock read)

end Unended

theorem Derivation.exists_cons_of_cut (statement : Derivation .declaration) {front : List Token}
    {semicolon : Token} (cut : statement.tokens = front ++ [semicolon])
    (closes : semicolon.kind = .semicolon) :
    ∃ first inner, front = first :: inner ∧ ¬first.isEnd := by
  obtain ⟨token, rest, same, member⟩ := statement.tokens_eq_cons id
  rw [same] at cut
  cases front with
  | nil =>
      obtain ⟨rfl, -⟩ := List.cons.inj cut
      have other : Token.Kind.semicolon ∉ Symbol.declarationFirsts := by decide
      exact absurd (closes ▸ member) other
  | cons first inner =>
      obtain ⟨rfl, -⟩ := List.cons.inj cut
      exact ⟨token, inner, rfl, (not_closing_of_first member).2⟩

/-- A statement without its semicolon and a declaration after it that begins with `var` or `print`
are read as no statement, with one error. -/
theorem Derivation.readsFirst_unended (statement next : Derivation .declaration)
    {front : List Token} {semicolon word : Token} (cut : statement.tokens = front ++ [semicolon])
    (closes : semicolon.kind = .semicolon) (begins : next.tokens.head? = some word)
    (starts : word.kind = .varWord ∨ word.kind = .printWord) :
    ReadsFirst (front ++ next.tokens) []
      [⟨statement.endExpected, word, next.tokens.length⟩] := by
  intro more reply goesOn reads
  have bounds : word.kind ∉ expressionKinds := by
    rcases starts with starts | starts <;> rw [starts] <;> decide
  have other : word.kind ≠ .semicolon := by
    rcases starts with starts | starts <;> rw [starts] <;> decide
  have skipped := next.synchronize_past (by simpa [begins] using starts) goesOn
  obtain ⟨others, same⟩ := List.head?_eq_some_iff.1 begins
  rw [same, List.cons_append] at skipped
  have declared := StatementRule.Reads.recovered
    (statement.attempt_unended (others ++ more) bounds other cut closes)
  rw [skipped, List.length_append] at declared
  obtain ⟨first, inner, rfl, ahead⟩ := statement.exists_cons_of_cut cut closes
  have read := StatementRule.Reads.programNext ahead declared reads
  rw [same, List.append_assoc]
  simpa [SyntaxError.extended, Nat.add_right_comm] using read

/-- Where a print, variable or expression statement has no semicolon and a declaration comes next
that begins with `var` or `print`, its first token is blamed, once, and neither of the two is read.
What comes before them is read, and what comes after them is read as it is alone. -/
theorem program_missing_semicolon (before : Derivation .declarations)
    (statement next : Derivation .declaration) {front : List Token} {semicolon word : Token}
    (cut : statement.tokens = front ++ [semicolon]) (closes : semicolon.kind = .semicolon)
    (begins : next.tokens.head? = some word)
    (starts : word.kind = .varWord ∨ word.kind = .printWord) (rest : List Token) {last : Token}
    (inside : ∀ token ∈ rest, ¬token.isEnd) (ended : last.isEnd) :
    let body := before.tokens ++ (front ++ next.tokens) ++ rest
    ∃ statements errors,
      (Cursor.start (rest ++ [last])).perform .program =
        (.ok (.statements statements), ⟨rest ++ [last], rest.length, errors⟩) ∧
      (Cursor.start (body ++ [last])).perform .program =
        (.ok (.statements (before.tree ++ statements)),
          ⟨body ++ [last], body.length,
            ⟨statement.endExpected, word, (next.tokens ++ rest).length + 1⟩ :: errors⟩) := by
  intro body
  obtain ⟨statements, errors, parsed⟩ := program_reaches_end rest inside ended
  have after : StatementRule.program.Reads (rest ++ [last]) ⟨.ok statements, errors, [last]⟩ :=
    parsed ▸ StatementRule.reads_answer .program (rest ++ [last])
  have unended := statement.readsFirst_unended next cut closes begins starts
    (rest ++ [last]) _ (by simp) after
  have whole := before.readsFirst (front ++ next.tokens ++ (rest ++ [last])) _ (by simp) unended
  refine ⟨statements, errors, perform_program_of_ok after, perform_program_of_ok ?_⟩
  simpa [body, Reply.follow, SyntaxError.extended, Nat.add_assoc] using whole

/-- Of `a; print a var b; c;` the first statement and the last one are read. -/
theorem program_missing_semicolon_var :
    let a : Token := ⟨.identifier, "a", .nil, 1⟩
    let b : Token := ⟨.identifier, "b", .nil, 1⟩
    let c : Token := ⟨.identifier, "c", .nil, 1⟩
    let print : Token := ⟨.printWord, "print", .nil, 1⟩
    let word : Token := ⟨.varWord, "var", .nil, 1⟩
    let semicolon : Token := ⟨.semicolon, ";", .nil, 1⟩
    let last : Token := ⟨.endOfInput, "", .nil, 1⟩
    let body := [a, semicolon, print, a, word, b, semicolon, c, semicolon]
    (∃ (before : Derivation .declarations) (statement next : Derivation .declaration),
      before.tokens = [a, semicolon] ∧ statement.tokens = [print, a] ++ [semicolon] ∧
        next.tokens = [word, b, semicolon]) ∧
      semicolon.kind = .semicolon ∧ (∀ token ∈ [c, semicolon], ¬token.isEnd) ∧ last.isEnd ∧
        (Cursor.start (body ++ [last])).perform .program =
          (.ok (.statements [.expression (.var a), .expression (.var c)]),
            ⟨body ++ [last], 9, [⟨.printEndExpected, word, 6⟩]⟩) := by
  intro a b c print word semicolon last body
  let value : Derivation .assignment :=
    .equality (.binary (.tighter (.binary (.tighter (.binary (.tighter (.binary
      (.tightest (.primary (.atom a (.var a) (.name rfl)))) .chainEnd) .products) .chainEnd) .sums)
      .chainEnd) .comparisons) .chainEnd)
  let before : Derivation .declarations := .next (.expression value semicolon rfl) .nothing
  let statement : Derivation .declaration := .print print value semicolon rfl rfl
  let next : Derivation .declaration := .variable word b semicolon rfl rfl rfl
  have cut : statement.tokens = [print, a] ++ [semicolon] := rfl
  have inside : ∀ token ∈ [c, semicolon], ¬token.isEnd := by decide
  have ended : last.isEnd := by decide
  obtain ⟨statements, errors, alone, whole⟩ :=
    program_missing_semicolon before statement next cut rfl rfl (Or.inl rfl) [c, semicolon] inside
      ended
  have read : (Cursor.start ([c, semicolon] ++ [last])).perform .program =
      (.ok (.statements [.expression (.var c)]), ⟨[c, semicolon] ++ [last], 2, []⟩) := by
    cbv
  rw [read] at alone
  cases alone
  exact ⟨⟨before, statement, next, rfl, cut, rfl⟩, rfl, inside, ended, whole⟩

/-- `print nil print true;` prints nothing, though `print true;` stands there. -/
theorem program_missing_semicolon_print :
    let print : Token := ⟨.printWord, "print", .nil, 1⟩
    let semicolon : Token := ⟨.semicolon, ";", .nil, 1⟩
    let last : Token := ⟨.endOfInput, "", .nil, 1⟩
    let front := [print, ⟨.nilWord, "nil", .nil, 1⟩]
    let next := [print, ⟨.trueWord, "true", .nil, 1⟩, semicolon]
    (Cursor.start (front ++ [semicolon] ++ [last])).perform .program =
        (.ok (.statements [.print (.literal .nil)]),
          ⟨front ++ [semicolon] ++ [last], 3, []⟩) ∧
      (Cursor.start (next ++ [last])).perform .program =
        (.ok (.statements [.print (.literal (.boolean true))]), ⟨next ++ [last], 3, []⟩) ∧
      (Cursor.start (front ++ next ++ [last])).perform .program =
        (.ok (.statements []),
          ⟨front ++ next ++ [last], 5, [⟨.printEndExpected, print, 4⟩]⟩) := by
  intro print semicolon last front next
  refine ⟨?_, ?_, ?_⟩
  · cbv
  · cbv
  · cbv

end Lox.Grammar
