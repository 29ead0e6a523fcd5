import Lox.Cursor
import Lox.Proofs.Grammar.Completeness

/-!
Reading a program is exact: `program_exact`. The errors are none just when the tokens are derived,
and then there is one derivation and its tree is what is read. Whatever the errors, a program is
read up to the end of the input.
-/

set_option autoImplicit false

namespace Lox.Grammar

namespace StatementRule

/-- What is wrong inside a declaration does not stop what is around it. -/
theorem Reads.halt_of_declaration {tokens rest : List Token} {halt : Halt}
    {errors : List SyntaxError}
    (reads : StatementRule.declaration.Reads tokens ⟨.error halt, errors, rest⟩) :
    halt = .overrun := by
  generalize reply_eq : (⟨.error halt, errors, rest⟩ : Reply _) = reply at reads
  cases reads with
  | overrun =>
      cases reply_eq
      rfl
  | declared read => cases reply_eq
  | attemptOverrun stopped =>
      cases reply_eq
      rfl
  | recovered stopped =>
      rename_i left error earlier
      rcases synchronize_cases left with ⟨after, same⟩ | same
      · rw [same] at reply_eq
        cases reply_eq
      · rw [same] at reply_eq
        cases reply_eq
        rfl

/-- A program is read up to an end of input, unless there is none. -/
theorem Reads.ends_of_program {rule : StatementRule} {tokens : List Token}
    {reply : Reply rule.Result} (reads : rule.Reads tokens reply) (program : rule = .program)
    (noOverrun : reply.outcome ≠ .error .overrun) :
    ∃ result errors last after, reply = ⟨.ok result, errors, last :: after⟩ ∧ last.isEnd := by
  induction reads with
  | overrun => exact absurd rfl noOverrun
  | programEnd ended => exact ⟨_, _, _, _, rfl, ended⟩
  | programStopped ahead stopped =>
      obtain rfl := stopped.halt_of_declaration
      exact absurd rfl noOverrun
  | @programNext token rest after first errors reply ahead read more _ second =>
      have stillNone : reply.outcome ≠ .error .overrun := by
        intro overrun
        apply noOverrun
        rw [Reply.follow, Reply.map, overrun]
        rfl
      obtain ⟨result, later, last, beyond, rfl, ended⟩ := second rfl stillNone
      exact ⟨first.toList ++ result, errors ++ later, last, beyond, rfl, ended⟩
  | _ => cases program

end StatementRule

/-- Whatever is wrong in it, a program is read to the end of the input. -/
theorem program_reaches_end (body : List Token) {last : Token}
    (inside : ∀ token ∈ body, ¬token.isEnd) (ended : last.isEnd) :
    ∃ statements errors,
      (Grammar.program (body ++ [last])).val = ⟨.ok statements, errors, [last]⟩ := by
  have reads := StatementRule.reads_answer .program (body ++ [last])
  have stays := reads.staysBefore ended (List.suffix_append body [last])
  obtain ⟨statements, errors, found, after, same, isEnd⟩ :=
    reads.ends_of_program rfl stays.noOverrun
  have left := reads.left
  rw [same] at left
  have only := suffix_eq_last inside isEnd left
  rw [only] at same
  exact ⟨statements, errors, same⟩

theorem program_of_derivation (derivation : Derivation .declarations) {last : Token}
    (ended : last.isEnd) :
    (Grammar.program (derivation.tokens ++ [last])).val = ⟨.ok derivation.tree, [], [last]⟩ := by
  have read := (derivation.readsAs [last]).2 ⟨.ok [], [], [last]⟩ (.programEnd ended)
  rw [Reply.map_ok, List.append_nil] at read
  exact read.answer_eq

theorem exists_derivation_of_program {body : List Token} {last : Token}
    (inside : ∀ token ∈ body, ¬token.isEnd) (ended : last.isEnd)
    (clean : (Grammar.program (body ++ [last])).val.errors = []) :
    ∃ derivation : Derivation .declarations, derivation.tokens = body := by
  obtain ⟨statements, errors, same⟩ := program_reaches_end body inside ended
  have reads := StatementRule.reads_answer .program (body ++ [last])
  have keeps := reads.keeps statements (congrArg Reply.outcome same)
  obtain ⟨used, kept, split, -, whole, derivation, -, derived⟩ := keeps
  have rest : (StatementRule.answer .program (body ++ [last])).rest = [last] :=
    congrArg Reply.rest same
  rw [rest] at split
  refine ⟨derivation, ?_⟩
  rw [derived, whole clean]
  exact (List.append_cancel_right split).symm

theorem perform_program (tokens : List Token) :
    (Cursor.start tokens).perform .program =
      ((Grammar.program tokens).val.outcome.map .statements,
        { tokens := tokens
          position := tokens.length - (Grammar.program tokens).val.rest.length
          errors := (Grammar.program tokens).val.errors }) := rfl

/-- Tokens that are read up to an end of input leave the cursor there. -/
theorem perform_program_of_ok {body beyond : List Token} {last : Token} {statements : List Stmt}
    {errors : List SyntaxError}
    (read : StatementRule.program.Reads (body ++ last :: beyond)
      ⟨.ok statements, errors, last :: beyond⟩) :
    (Cursor.start (body ++ last :: beyond)).perform .program =
      (.ok (.statements statements), ⟨body ++ last :: beyond, body.length, errors⟩) := by
  have answered : (Grammar.program (body ++ last :: beyond)).val =
      ⟨.ok statements, errors, last :: beyond⟩ := read.answer_eq
  rw [perform_program, answered, List.length_append, Nat.add_sub_cancel]
  rfl

/-- In front of an end of input, a program is read without errors just when it is derived. Then it
has one derivation, and what is read is the tree of that. -/
theorem program_exact (body : List Token) (last : Token) (inside : ∀ token ∈ body, ¬token.isEnd)
    (ended : last.isEnd) :
    let (outcome, cursor) := (Cursor.start (body ++ [last])).perform .program
    (cursor.errors = [] ↔ ∃ derivation : Derivation .declarations, derivation.tokens = body) ∧
      ∀ derivation : Derivation .declarations, derivation.tokens = body →
        (∀ other : Derivation .declarations, other.tokens = body → other = derivation) ∧
          outcome = .ok (.statements derivation.tree) ∧ cursor.rest = [last] := by
  rw [perform_program]
  refine ⟨⟨exists_derivation_of_program inside ended, ?_⟩, ?_⟩
  · rintro ⟨derivation, rfl⟩
    dsimp only
    rw [program_of_derivation derivation ended]
  · rintro derivation rfl
    refine ⟨?_, ?_, ?_⟩
    · intro other same
      have ends := Symbol.declarations_endsBefore [] (Or.inr ended)
      exact (Derivation.unique_of_append other derivation ends ends (by rw [same])).1
    · rw [program_of_derivation derivation ended]
      rfl
    · rw [program_of_derivation derivation ended]
      show (derivation.tokens ++ [last]).drop _ = [last]
      rw [List.length_append, Nat.add_sub_cancel]
      exact List.drop_left

/-- `{ a = -b; }` has a derivation and is read as its tree; `(a) = b;` has none. -/
theorem program_exact_targets :
    let a : Token := ⟨.identifier, "a", .nil, 1⟩
    let b : Token := ⟨.identifier, "b", .nil, 1⟩
    let equals : Token := ⟨.equal, "=", .nil, 1⟩
    let semicolon : Token := ⟨.semicolon, ";", .nil, 1⟩
    let last : Token := ⟨.endOfInput, "", .nil, 1⟩
    let block := [⟨.leftBrace, "\x7b", .nil, 1⟩, a, equals, ⟨.minus, "-", .nil, 1⟩, b, semicolon,
      ⟨.rightBrace, "\x7d", .nil, 1⟩]
    let group := [⟨.leftParen, "(", .nil, 1⟩, a, ⟨.rightParen, ")", .nil, 1⟩, equals, b, semicolon]
    last.isEnd ∧ (∀ token ∈ block ++ group, ¬token.isEnd) ∧
      (∃ derivation : Derivation .declarations, derivation.tokens = block ∧
        ((Cursor.start (block ++ [last])).perform .program).1 =
          .ok (.statements derivation.tree)) ∧
        ¬∃ derivation : Derivation .declarations, derivation.tokens = group := by
  intro a b equals semicolon last block group
  have ended : last.isEnd := by decide
  have inside : ∀ token ∈ block ++ group, ¬token.isEnd := by decide
  have read := program_exact block last (fun token member => inside token (by simp [member])) ended
  have refused :=
    program_exact group last (fun token member => inside token (by simp [member])) ended
  have clean : ((Cursor.start (block ++ [last])).perform .program).2.errors = [] := by
    decide +kernel
  have wrong : ((Cursor.start (group ++ [last])).perform .program).2.errors ≠ [] := by
    decide +kernel
  obtain ⟨derivation, derived⟩ := read.1.1 clean
  refine ⟨ended, inside, ⟨derivation, derived, (read.2 derivation derived).2.1⟩, ?_⟩
  intro derivable
  exact wrong (refused.1.2 derivable)

end Lox.Grammar
