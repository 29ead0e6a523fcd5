import Lox.Proofs.Grammar.Exactness
import Lox.Proofs.Grammar.Extension

/-!
Pieces of a program that are read on their own, whatever comes after them: `program_chunk`. A
declaration without errors is such a piece, and so is anything at all up to a semicolon, as long as
it has no other place where reading might be taken up again. An error in it is recovered from right
behind the semicolon, wherever the rules came to a stop.
-/

set_option autoImplicit false

namespace Lox.Grammar

/-- Tokens that end in a semicolon and have no other. -/
def ClosedBy (semicolon : Token) (tokens : List Token) : Prop :=
  semicolon.kind = .semicolon ∧
    ∃ front, tokens = front ++ [semicolon] ∧ ∀ token ∈ front, token.kind ≠ .semicolon

namespace ClosedBy

variable {semicolon : Token} {tokens : List Token}

theorem ahead (closed : ClosedBy semicolon tokens) : [semicolon] <:+ tokens := by
  obtain ⟨-, front, rfl, -⟩ := closed
  exact List.suffix_append front [semicolon]

theorem bounds (closed : ClosedBy semicolon tokens) : semicolon.kind ∉ expressionKinds := by
  rw [closed.1]
  decide

theorem of_suffix (closed : ClosedBy semicolon tokens) {left : List Token}
    (ahead : [semicolon] <:+ left) (isLeft : left <:+ tokens) : ClosedBy semicolon left := by
  obtain ⟨closes, front, rfl, only⟩ := closed
  rcases List.suffix_concat_iff.1 isLeft with rfl | ⟨begun, rfl, inside⟩
  · exact absurd rfl (ne_nil_of_ahead ahead)
  · exact ⟨closes, begun, rfl, fun token member => only token (inside.mem member)⟩

theorem of_cons {token : Token} (closed : ClosedBy semicolon (token :: tokens))
    (other : token.kind ≠ .semicolon) : ClosedBy semicolon tokens := by
  apply closed.of_suffix _ (List.suffix_cons token tokens)
  apply suffix_of_cons_ne _ closed.ahead
  rintro rfl
  exact other closed.1

theorem rest_eq_nil {token : Token} (closed : ClosedBy semicolon (token :: tokens))
    (closes : token.kind = .semicolon) : tokens = [] := by
  obtain ⟨-, front, same, only⟩ := closed
  have ahead : token :: tokens <:+ front ++ [semicolon] := same ▸ List.suffix_rfl
  exact (List.cons.inj (suffix_eq_last only closes ahead)).2

end ClosedBy

/-- An answer to tokens that end in a semicolon: a statement made of all of them, or a refusal in
front of the semicolon. -/
inductive Reply.EndsAt (semicolon : Token) : Reply Stmt → Prop where
  | read (statement : Stmt) (errors : List SyntaxError) :
      EndsAt semicolon ⟨.ok statement, errors, []⟩
  | refused (error : SyntaxError) (errors : List SyntaxError) {left : List Token}
      (ahead : [semicolon] <:+ left) : EndsAt semicolon ⟨.error (.refused error), errors, left⟩

section Statement

variable {semicolon : Token} {tokens : List Token}

theorem expect_endsAt (closed : ClosedBy semicolon tokens) (cause : SyntaxError.Cause)
    (build : Token → Stmt) (errors : List SyntaxError) :
    (((expect .semicolon cause tokens).val.val.map build).follow errors).EndsAt semicolon := by
  have ahead := closed.ahead
  obtain ⟨token, rest, rfl⟩ := List.exists_cons_of_ne_nil (ne_nil_of_ahead ahead)
  rcases expect_cases .semicolon cause token rest with ⟨closes, -, same⟩ | ⟨-, same⟩
  · rw [same, closed.rest_eq_nil closes]
    exact .read _ _
  · rw [same]
    exact .refused _ _ ahead

theorem ReadsTerminated.endsAt {cause : SyntaxError.Cause} {build : Expr → Stmt}
    {reply : Reply Stmt} (reads : ReadsTerminated cause build tokens reply)
    (closed : ClosedBy semicolon tokens) : reply.EndsAt semicolon := by
  cases reads with
  | @stopped rest halt errors stopped =>
      have stays := stopped.staysBefore closed.bounds closed.ahead
      cases halt with
      | overrun => exact absurd rfl stays.noOverrun
      | refused error => exact .refused error errors stays.left
  | read read =>
      have stays := read.staysBefore closed.bounds closed.ahead
      have left := (Grammar.assignment tokens).property
      rw [show (Grammar.assignment tokens).val = _ from read.answer_eq] at left
      exact expect_endsAt (closed.of_suffix stays.left left) _ _ _

theorem ReadsVariable.endsAt {reply : Reply Stmt} (reads : ReadsVariable tokens reply)
    (closed : ClosedBy semicolon tokens) : reply.EndsAt semicolon := by
  cases reads with
  | overrun => exact absurd rfl (ne_nil_of_ahead closed.ahead)
  | noName other => exact .refused _ _ closed.ahead
  | nameLast named =>
      have afterName := closed.of_cons (by rw [named]; decide)
      exact absurd rfl (ne_nil_of_ahead afterName.ahead)
  | initial named equal read =>
      have afterName := closed.of_cons (by rw [named]; decide)
      exact read.endsAt (afterName.of_cons (by rw [equal]; decide))
  | noInitial named other => exact expect_endsAt (closed.of_cons (by rw [named]; decide)) _ _ []

/-- One declaration is attempted of tokens up to a semicolon, unless they begin with a block. It
comes no farther, so what is after the semicolon has no part in it. -/
theorem attempt_endsAt (closed : ClosedBy semicolon tokens)
    (noBlock : ∀ token ∈ tokens.head?, token.kind ≠ .leftBrace) :
    ∃ reply : Reply Stmt, reply.EndsAt semicolon ∧
      ∀ more, StatementRule.attempt.Reads (tokens ++ more) (reply.extended more) := by
  have bounds := closed.bounds
  have reads := StatementRule.reads_answer .attempt tokens
  generalize StatementRule.answer .attempt tokens = reply at reads
  refine ⟨reply, ?_⟩
  cases reads with
  | overrun => exact absurd rfl (ne_nil_of_ahead closed.ahead)
  | variableWord word read =>
      have later := closed.of_cons (by rw [word]; decide)
      exact ⟨read.endsAt later,
        fun more => .variableWord word (read.extended more bounds later.ahead)⟩
  | otherWord other read =>
      cases read with
      | print word read =>
          have later := closed.of_cons (by rw [word]; decide)
          exact ⟨read.endsAt later,
            fun more => .otherWord other (.print word (read.extended more bounds later.ahead))⟩
      | braces opens read => exact absurd opens (noBlock _ rfl)
      | expression noPrint noBrace read =>
          exact ⟨read.endsAt closed, fun more =>
            .otherWord other (.expression noPrint noBrace (read.extended more bounds closed.ahead))⟩

end Statement

/-- Behind a semicolon, skipping ends. -/
theorem skipStatement_of_semicolon {semicolon : Token} (closes : semicolon.kind = .semicolon)
    {more : List Token} (goesOn : more ≠ []) :
    (skipStatement semicolon more).val = ⟨.ok (), [], more⟩ := by
  obtain ⟨token, rest, rfl⟩ := List.exists_cons_of_ne_nil goesOn
  rw [skipStatement, if_pos (Or.inr (Or.inl closes))]
  rfl

/-- A token that skipping goes past: it ends no statement and begins none. -/
def IsSkipped (token : Token) : Prop :=
  ¬token.isEnd ∧ token.kind ≠ .semicolon ∧ token.kind ∉ statementStarters

theorem skipStatement_to_semicolon {semicolon skipped : Token}
    (closes : semicolon.kind = .semicolon) (other : skipped.kind ≠ .semicolon)
    {front : List Token} (inside : ∀ token ∈ front, IsSkipped token) {more : List Token}
    (goesOn : more ≠ []) :
    (skipStatement skipped (front ++ semicolon :: more)).val = ⟨.ok (), [], more⟩ := by
  induction front generalizing skipped with
  | nil =>
      have notEnd := not_isEnd_of_kind closes (by decide)
      have noStarter : semicolon.kind ∉ statementStarters := by
        rw [closes]
        decide
      rw [List.nil_append, skipStatement, if_neg (by simp [notEnd, other, noStarter])]
      exact skipStatement_of_semicolon closes goesOn
  | cons token front ih =>
      rw [List.forall_mem_cons] at inside
      obtain ⟨⟨notEnd, noSemicolon, noStarter⟩, later⟩ := inside
      rw [List.cons_append, skipStatement, if_neg (by simp [notEnd, other, noStarter])]
      exact ih noSemicolon later

/-- What is refused up to a semicolon is skipped up to there. The first token is skipped even if it
begins a statement. -/
theorem synchronize_to_semicolon {semicolon : Token} (closes : semicolon.kind = .semicolon)
    {front : List Token} (inside : ∀ token ∈ front, ¬token.isEnd ∧ token.kind ≠ .semicolon)
    (noStarter : ∀ token ∈ front.tail, token.kind ∉ statementStarters) {more : List Token}
    (goesOn : more ≠ []) :
    (synchronize (front ++ semicolon :: more)).val = ⟨.ok (), [], more⟩ := by
  match front with
  | [] =>
      rw [List.nil_append, synchronize, if_neg (not_isEnd_of_kind closes (by decide))]
      exact skipStatement_of_semicolon closes goesOn
  | token :: front =>
      rw [List.forall_mem_cons] at inside
      obtain ⟨⟨notEnd, noSemicolon⟩, later⟩ := inside
      rw [List.cons_append, synchronize, if_neg notEnd]
      apply skipStatement_to_semicolon closes noSemicolon _ goesOn
      intro skipped member
      exact ⟨(later skipped member).1, (later skipped member).2, noStarter skipped member⟩

/-- Tokens that are read, in front of any others, as some statements and with some errors. -/
def ReadsFirst (tokens : List Token) (statements : List Stmt) (errors : List SyntaxError) : Prop :=
  ∀ more reply, more ≠ [] → StatementRule.program.Reads more reply →
    StatementRule.program.Reads (tokens ++ more)
      ((reply.map (statements ++ ·)).follow (errors.map (SyntaxError.extended more.length)))

theorem Derivation.readsFirst (derivation : Derivation .declarations) :
    ReadsFirst derivation.tokens derivation.tree [] := by
  intro more reply _ reads
  exact (derivation.readsAs more).2 reply reads

section Semicolon

variable {body : List Token} {semicolon : Token} (closes : semicolon.kind = .semicolon)
  (inside : ∀ token ∈ body, ¬token.isEnd ∧ token.kind ≠ .semicolon)

include closes in
theorem head_ne_leftBrace (noBlock : ∀ token ∈ body.head?, token.kind ≠ .leftBrace) :
    ∀ token ∈ (body ++ [semicolon]).head?, token.kind ≠ .leftBrace := by
  cases body with
  | nil =>
      rintro token ⟨rfl⟩
      rw [closes]
      decide
  | cons first body => exact noBlock

include closes inside in
/-- Wherever the tokens up to a semicolon are refused, reading is taken up again behind it. -/
theorem synchronize_left (noStarter : ∀ token ∈ body.tail, token.kind ∉ statementStarters)
    {left : List Token} (ahead : [semicolon] <:+ left) (isLeft : left <:+ body ++ [semicolon])
    {more : List Token} (goesOn : more ≠ []) :
    (synchronize (left ++ more)).val = ⟨.ok (), [], more⟩ := by
  rcases List.suffix_concat_iff.1 isLeft with rfl | ⟨front, rfl, begins⟩
  · exact absurd rfl (ne_nil_of_ahead ahead)
  · have noStarters : ∀ token ∈ front.tail, token.kind ∉ statementStarters := by
      obtain ⟨used, rfl⟩ := begins
      intro token member
      apply noStarter token
      cases used with
      | nil => exact member
      | cons first used => exact List.mem_append_right used (List.mem_of_mem_tail member)
    rw [List.append_assoc]
    exact synchronize_to_semicolon closes (fun token member => inside token (begins.mem member))
      noStarters goesOn

variable (noBlock : ∀ token ∈ body.head?, token.kind ≠ .leftBrace)
  (noStarter : ∀ token ∈ body.tail, token.kind ∉ statementStarters)

include closes inside noBlock noStarter

/-- Tokens up to a semicolon are read as a statement, or as none if they are refused. -/
theorem declaration_of_semicolon :
    ∃ (found : Option Stmt) (errors : List SyntaxError), ∀ more, more ≠ [] →
      StatementRule.declaration.Reads (body ++ [semicolon] ++ more)
        ⟨.ok found, errors.map (SyntaxError.extended more.length), more⟩ := by
  have closed : ClosedBy semicolon (body ++ [semicolon]) :=
    ⟨closes, body, rfl, fun token member => (inside token member).2⟩
  obtain ⟨reply, ends, attempt⟩ := attempt_endsAt closed (head_ne_leftBrace closes noBlock)
  cases ends with
  | read statement errors => exact ⟨some statement, errors, fun more _ => .declared (attempt more)⟩
  | @refused error errors left ahead =>
      refine ⟨none, errors, fun more goesOn => ?_⟩
      have isLeft : left <:+ body ++ [semicolon] := by
        have stopped := (attempt []).left
        rw [Reply.extended_error, List.append_nil, List.append_nil] at stopped
        exact stopped
      have reads := StatementRule.Reads.recovered (attempt more)
      rw [synchronize_left closes inside noStarter ahead isLeft goesOn, Reply.map_ok,
        Reply.follow, List.append_nil] at reads
      exact reads

theorem readsFirst_of_semicolon :
    ∃ statements errors, ReadsFirst (body ++ [semicolon]) statements errors := by
  obtain ⟨found, errors, declares⟩ :=
    declaration_of_semicolon closes inside noBlock noStarter
  refine ⟨found.toList, errors, fun more reply goesOn reads => ?_⟩
  have declared := declares more goesOn
  cases body with
  | nil => exact .programNext (not_isEnd_of_kind closes (by decide)) declared reads
  | cons first body => exact .programNext (inside first List.mem_cons_self).1 declared reads

end Semicolon

/-- A piece of a program: declarations that are read without errors, or anything with a semicolon
after it that has no semicolon itself, does not begin a block, and has no token that begins a
statement but its first. -/
inductive IsChunk (last : Token) : List Token → Prop where
  | declarations {tokens : List Token}
      (clean : ((Cursor.start (tokens ++ [last])).perform .program).2.errors = []) :
      IsChunk last tokens
  | statement {body : List Token} {semicolon : Token} (closes : semicolon.kind = .semicolon)
      (noSemicolon : ∀ token ∈ body, token.kind ≠ .semicolon)
      (noBlock : ∀ token ∈ body.head?, token.kind ≠ .leftBrace)
      (noStarter : ∀ token ∈ body.tail, token.kind ∉ statementStarters) :
      IsChunk last (body ++ [semicolon])

theorem IsChunk.readsFirst {last : Token} {chunk : List Token} (isChunk : IsChunk last chunk)
    (inside : ∀ token ∈ chunk, ¬token.isEnd) (ended : last.isEnd) :
    ∃ statements errors, ReadsFirst chunk statements errors := by
  cases isChunk with
  | declarations clean =>
      obtain ⟨derivation, rfl⟩ := exists_derivation_of_program inside ended clean
      exact ⟨derivation.tree, [], derivation.readsFirst⟩
  | statement closes noSemicolon noBlock noStarter =>
      apply readsFirst_of_semicolon closes _ noBlock noStarter
      intro token member
      exact ⟨inside token (List.mem_append_left _ member), noSemicolon token member⟩

/-- A piece of a program and whatever comes after it are read as each of them is: the statements of
the one and then those of the other, and so the errors, of which those of the first are farther from
the end by the tokens that come after it and are reported alike. -/
theorem program_chunk {chunk rest : List Token} {last : Token} (isChunk : IsChunk last chunk)
    (inside : ∀ token ∈ chunk ++ rest, ¬token.isEnd) (ended : last.isEnd) :
    ∃ statements others errors later,
      (Cursor.start (chunk ++ [last])).perform .program =
        (.ok (.statements statements), ⟨chunk ++ [last], chunk.length, errors⟩) ∧
      (Cursor.start (rest ++ [last])).perform .program =
        (.ok (.statements others), ⟨rest ++ [last], rest.length, later⟩) ∧
      (Cursor.start (chunk ++ rest ++ [last])).perform .program =
        (.ok (.statements (statements ++ others)),
          ⟨chunk ++ rest ++ [last], (chunk ++ rest).length,
            errors.map (SyntaxError.extended rest.length) ++ later⟩) ∧
      (errors.map (SyntaxError.extended rest.length) ++ later).map (·.diagnostic) =
        errors.map (·.diagnostic) ++ later.map (·.diagnostic) := by
  rw [List.forall_mem_append] at inside
  obtain ⟨statements, errors, first⟩ := isChunk.readsFirst inside.1 ended
  obtain ⟨others, later, parsed⟩ := program_reaches_end rest inside.2 ended
  have second : StatementRule.program.Reads (rest ++ [last]) ⟨.ok others, later, [last]⟩ :=
    parsed ▸ StatementRule.reads_answer .program (rest ++ [last])
  have alone := first [last] _ (List.cons_ne_nil last []) (.programEnd ended)
  have joined := first (rest ++ [last]) _ (by simp) second
  have farther : errors.map (SyntaxError.extended (rest ++ [last]).length) =
      (errors.map (SyntaxError.extended 1)).map (SyntaxError.extended rest.length) := by
    rw [List.map_map]
    apply List.map_congr_left
    intro error _
    rw [Function.comp_apply, SyntaxError.extended_extended, List.length_append, Nat.add_comm]
    rfl
  rw [Reply.map_ok, List.append_nil, Reply.follow, List.append_nil] at alone
  rw [Reply.map_ok, Reply.follow, farther, ← List.append_assoc] at joined
  refine ⟨statements, others, _, later, perform_program_of_ok alone, perform_program_of_ok second,
    perform_program_of_ok joined, ?_⟩
  simp only [List.map_append, List.map_map, Function.comp_def, SyntaxError.extended_diagnostic]

/-- `print (a;` has one error, and `{ print ;` after it has two, as it has alone. -/
theorem program_chunk_unclosed :
    let print : Token := ⟨.printWord, "print", .nil, 1⟩
    let semicolon : Token := ⟨.semicolon, ";", .nil, 1⟩
    let last : Token := ⟨.endOfInput, "", .nil, 1⟩
    let body := [print, ⟨.leftParen, "(", .nil, 1⟩, ⟨.identifier, "a", .nil, 1⟩]
    let rest := [⟨.leftBrace, "\x7b", .nil, 1⟩, print, semicolon]
    IsChunk last (body ++ [semicolon]) ∧
      (∀ token ∈ body ++ [semicolon] ++ rest, ¬token.isEnd) ∧ last.isEnd ∧
      ∃ statements others errors later,
        (Cursor.start (body ++ [semicolon] ++ [last])).perform .program =
          (.ok (.statements statements), ⟨body ++ [semicolon] ++ [last], 4, errors⟩) ∧
        (Cursor.start (rest ++ [last])).perform .program =
          (.ok (.statements others), ⟨rest ++ [last], 3, later⟩) ∧
        (Cursor.start (body ++ [semicolon] ++ rest ++ [last])).perform .program =
          (.ok (.statements (statements ++ others)),
            ⟨body ++ [semicolon] ++ rest ++ [last], 7,
              errors.map (SyntaxError.extended 3) ++ later⟩) ∧
        errors.length = 1 ∧ later.length = 2 := by
  intro print semicolon last body rest
  have isChunk : IsChunk last (body ++ [semicolon]) :=
    .statement rfl (by decide) (by decide) (by decide)
  have inside : ∀ token ∈ body ++ [semicolon] ++ rest, ¬token.isEnd := by decide
  have ended : last.isEnd := by decide
  obtain ⟨statements, others, errors, later, alone, after, joined, -⟩ :=
    program_chunk isChunk inside ended
  have one :
      ((Cursor.start (body ++ [semicolon] ++ [last])).perform .program).2.errors.length = 1 := by
    decide +kernel
  have two : ((Cursor.start (rest ++ [last])).perform .program).2.errors.length = 2 := by
    decide +kernel
  rw [alone] at one
  rw [after] at two
  exact ⟨isChunk, inside, ended, statements, others, errors, later, alone, after, joined, one, two⟩

end Lox.Grammar
