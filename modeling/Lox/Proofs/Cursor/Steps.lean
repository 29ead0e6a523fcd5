import Lox.Proofs.Grammar.Exactness
import Lox.Proofs.Grammar.Extension

/-!
A cursor in any use. With an end of input among its tokens, whatever is done with a cursor and in
whatever order, it never wants a token that is not there, never goes back and never goes past the
end, and what it recorded stays: `Cursor.perform_stepsTo` for one step, `Cursor.inside_performAll`
for all. A program is read the same whatever comes after the end, and without an end it is never
read: `Cursor.perform_total`.
-/

set_option autoImplicit false

namespace Lox.Cursor

open Grammar

/-- Takes steps one after the other, whatever each of them comes to. -/
def performAll (cursor : Cursor) : List Step → Cursor
  | [] => cursor
  | step :: steps => (cursor.perform step).2.performAll steps

/-- A step of a cursor that is to stay at `limit` or before: it does not want for a token, does not
go back, and only adds to the errors, last of all the one it stops with. -/
structure StepsTo {α : Type} (limit : Nat) (before : Cursor) (outcome : Except Halt α)
    (after : Cursor) : Prop where
  sameTokens : after.tokens = before.tokens
  noOverrun : outcome ≠ .error .overrun
  forward : before.position ≤ after.position
  bounded : after.position ≤ limit
  recorded : ∃ later, after.errors = before.errors ++ later ∧
    ∀ error, outcome = .error (.refused error) → later.getLast? = some error

variable {α β : Type} {limit : Nat} {before moved after : Cursor}

theorem StepsTo.map {outcome : Except Halt α} (steps : StepsTo limit before outcome after)
    (f : α → β) : StepsTo limit before (outcome.map f) after := by
  cases outcome with
  | ok result =>
      obtain ⟨later, added, -⟩ := steps.recorded
      exact ⟨steps.sameTokens, by simp [Except.map], steps.forward, steps.bounded, later, added,
        by simp [Except.map]⟩
  | error halt =>
      obtain ⟨later, added, last⟩ := steps.recorded
      refine ⟨steps.sameTokens, ?_, steps.forward, steps.bounded, later, added, ?_⟩
      · simpa [Except.map] using steps.noOverrun
      · simpa [Except.map] using last

/-- A cursor that is moved and then only looked at. -/
theorem StepsTo.of_ok {outcome : Except Halt α} (steps : StepsTo limit before outcome after)
    (result : β) : StepsTo limit before (.ok result) after := by
  obtain ⟨later, added, -⟩ := steps.recorded
  exact ⟨steps.sameTokens, by simp, steps.forward, steps.bounded, later, added, by simp⟩

/-- A cursor that is at the end of input `last` or before. -/
structure Inside (front : List Token) (last : Token) (beyond : List Token) (cursor : Cursor) :
    Prop where
  tokens : cursor.tokens = front ++ last :: beyond
  bounded : cursor.position ≤ front.length

section Inside

variable {front beyond : List Token} {last : Token} {cursor : Cursor}

theorem inside_start : Inside front last beyond (start (front ++ last :: beyond)) :=
  ⟨rfl, Nat.zero_le _⟩

theorem StepsTo.inside {outcome : Except Halt α} (inside : Inside front last beyond before)
    (steps : StepsTo front.length before outcome after) : Inside front last beyond after :=
  ⟨steps.sameTokens.trans inside.tokens, steps.bounded⟩

theorem Inside.ahead (inside : Inside front last beyond cursor) :
    last :: beyond <:+ cursor.rest := by
  rw [rest, inside.tokens, List.drop_append_of_le_length inside.bounded]
  exact List.suffix_append _ _

theorem Inside.previous (inside : Inside front last beyond cursor) :
    ∃ token, cursor.previous = (.ok (.token token), cursor) := by
  have found : ∃ token, cursor.previous? = some token := by
    rw [previous?, inside.tokens]
    split
    · exact ⟨_, List.getLast?_eq_some_getLast (by simp)⟩
    · have bounded := inside.bounded
      exact ⟨_, List.getElem?_eq_getElem (by simp; omega)⟩
  obtain ⟨token, found⟩ := found
  refine ⟨token, ?_⟩
  rw [Cursor.previous, found]

/-- A rule that, in front of some ending, stays there and refuses no token but the one ahead. -/
def Behaves (ending : List Token) (rule : (tokens : List Token) → ReplyTo tokens α) : Prop :=
  ∀ tokens, ending <:+ tokens →
    (rule tokens).val.StaysBefore ending ∧ (rule tokens).val.RefusesAhead

theorem Inside.apply (inside : Inside front last beyond cursor)
    {rule : (tokens : List Token) → ReplyTo tokens α} (behaves : Behaves (last :: beyond) rule) :
    StepsTo front.length cursor (cursor.apply rule).1 (cursor.apply rule).2 := by
  obtain ⟨stays, refuses⟩ := behaves cursor.rest inside.ahead
  have bounded := inside.bounded
  have whole : cursor.tokens.length = front.length + (beyond.length + 1) := by
    rw [inside.tokens, List.length_append, List.length_cons]
  have used := (rule cursor.rest).property.length_le
  have left := stays.left.length_le
  rw [List.length_cons] at left
  rw [rest, List.length_drop] at used
  refine ⟨rfl, stays.noOverrun, ?_, ?_, (rule cursor.rest).val.errors, rfl, ?_⟩
  · show cursor.position ≤ cursor.tokens.length - (rule cursor.rest).val.rest.length
    rw [rest]
    omega
  · show cursor.tokens.length - (rule cursor.rest).val.rest.length ≤ front.length
    omega
  · intro error stopped
    obtain ⟨⟨earlier, recorded⟩, -⟩ := refuses error stopped
    rw [recorded, List.getLast?_concat]

theorem Inside.answer (inside : Inside front last beyond cursor)
    {rule : (tokens : List Token) → ReplyTo tokens α} (behaves : Behaves (last :: beyond) rule)
    (name : α → Answer) :
    StepsTo front.length cursor (cursor.answer rule name).1 (cursor.answer rule name).2 :=
  (inside.apply behaves).map name

/-- A rule that has a result for any token. -/
theorem behaves_of_ok {ending : List Token} {rule : (tokens : List Token) → ReplyTo tokens α}
    (inhabited : ending ≠ [])
    (accepts : ∀ token rest, ending <:+ token :: rest →
      ∃ result errors left, (rule (token :: rest)).val = ⟨.ok result, errors, left⟩ ∧
        ending <:+ left) :
    Behaves ending rule := by
  intro tokens ahead
  match tokens with
  | [] => exact absurd (List.suffix_nil.1 ahead) inhabited
  | token :: rest =>
      obtain ⟨result, errors, left, same, stays⟩ := accepts token rest ahead
      rw [same]
      exact ⟨⟨by simp, stays⟩, Reply.refusesAhead_of_ok result errors left⟩

theorem peekRule_behaves : Behaves (last :: beyond) peekRule :=
  behaves_of_ok (List.cons_ne_nil last beyond) fun token rest ahead =>
    ⟨token, [], token :: rest, rfl, ahead⟩

theorem complainRule_behaves (message : String) :
    Behaves (last :: beyond) (complainRule message) :=
  behaves_of_ok (List.cons_ne_nil last beyond) fun token rest ahead =>
    ⟨_, _, token :: rest, rfl, ahead⟩

section Ended

variable (ended : last.isEnd)

include ended

theorem advanceRule_behaves : Behaves (last :: beyond) advanceRule := by
  apply behaves_of_ok (List.cons_ne_nil last beyond)
  intro token rest ahead
  rw [advanceRule]
  split
  · exact ⟨(), [], token :: rest, rfl, ahead⟩
  · rename_i other
    exact ⟨(), [], rest, rfl, ending_of_cons ended other ahead⟩

theorem useRule_behaves (kinds : List Token.Kind) :
    Behaves (last :: beyond) (useRule kinds) := by
  apply behaves_of_ok (List.cons_ne_nil last beyond)
  intro token rest ahead
  cases kinds with
  | nil => exact ⟨false, [], token :: rest, rfl, ahead⟩
  | cons kind kinds =>
      by_cases found : token.kind ∈ kind :: kinds ∧ ¬token.isEnd
      · refine ⟨true, [], rest, ?_, ending_of_cons ended found.2 ahead⟩
        simp only [useRule, if_pos found]
        rfl
      · refine ⟨false, [], token :: rest, ?_, ahead⟩
        simp only [useRule, if_neg found]
        rfl

theorem expressionRule_behaves (rule : ExpressionRule)
    {function : (tokens : List Token) → ReplyTo tokens Expr}
    (same : ∀ tokens, rule.answer tokens = (function tokens).val) :
    Behaves (last :: beyond) function := by
  intro tokens ahead
  have reads := rule.reads_answer tokens
  rw [same] at reads
  exact ⟨reads.staysBefore (bounds_of_isEnd ended) ahead, reads.refusesAhead⟩

theorem statementRule_behaves (rule : StatementRule)
    {function : (tokens : List Token) → ReplyTo tokens rule.Result}
    (same : ∀ tokens, rule.answer tokens = (function tokens).val) :
    Behaves (last :: beyond) function := by
  intro tokens ahead
  have reads := rule.reads_answer tokens
  rw [same] at reads
  exact ⟨reads.staysBefore ended ahead, reads.refusesAhead⟩

theorem terminated_behaves (cause : SyntaxError.Cause) (build : Expr → Stmt) :
    Behaves (last :: beyond) (terminated cause build) := by
  intro tokens ahead
  have reads : ReadsTerminated cause build tokens _ := readsTerminated_iff.2 rfl
  exact ⟨reads.staysBefore ended ahead, reads.refusesAhead⟩

theorem varDeclaration_behaves : Behaves (last :: beyond) varDeclaration := by
  intro tokens ahead
  have reads : ReadsVariable tokens _ := readsVariable_iff.2 rfl
  exact ⟨reads.staysBefore ended ahead, reads.refusesAhead⟩

theorem synchronize_behaves : Behaves (last :: beyond) Grammar.synchronize := fun tokens ahead =>
  ⟨synchronize_staysBefore tokens ended ahead, synchronize_refusesAhead tokens⟩

theorem expect_behaves (kind : Token.Kind) (cause : SyntaxError.Cause) :
    Behaves (last :: beyond) fun tokens => (expect kind cause tokens).val := fun tokens ahead =>
  ⟨expect_staysBefore kind cause (fun taken => taken.2 ended) ahead,
    expect_refusesAhead kind cause tokens⟩

theorem perform_stepsTo (inside : Inside front last beyond cursor) (step : Step) :
    StepsTo front.length cursor (cursor.perform step).1 (cursor.perform step).2 := by
  cases step with
  | peek => exact inside.answer peekRule_behaves _
  | isAtEnd => exact inside.answer peekRule_behaves _
  | check kind => exact inside.answer peekRule_behaves _
  | previous =>
      obtain ⟨token, found⟩ := inside.previous
      rw [perform, found]
      exact ⟨rfl, by simp, Nat.le_refl _, inside.bounded, [], (List.append_nil _).symm, by simp⟩
  | advance =>
      have steps := inside.apply (advanceRule_behaves ended)
      rw [perform]
      cases moved : cursor.apply advanceRule with
      | mk outcome after =>
          rw [moved] at steps
          cases outcome with
          | ok =>
              obtain ⟨token, found⟩ := (steps.inside inside).previous
              dsimp only
              rw [found]
              exact steps.of_ok _
          | error halt => exact steps.map fun _ => .nothing
  | synchronize => exact inside.answer (synchronize_behaves ended) _
  | use kinds => exact inside.answer (useRule_behaves ended kinds) _
  | expect kind message => exact inside.answer (expect_behaves ended kind _) _
  | complain message => exact inside.answer (complainRule_behaves message) _
  | assignment => exact inside.answer (expressionRule_behaves ended .assignment fun _ => rfl) _
  | binary tier => exact inside.answer (expressionRule_behaves ended (.binary tier) fun _ => rfl) _
  | unary => exact inside.answer (expressionRule_behaves ended .unary fun _ => rfl) _
  | primary => exact inside.answer (expressionRule_behaves ended .primary fun _ => rfl) _
  | declaration => exact inside.answer (statementRule_behaves ended .declaration fun _ => rfl) _
  | varDeclaration => exact inside.answer (varDeclaration_behaves ended) _
  | statement => exact inside.answer (statementRule_behaves ended .statement fun _ => rfl) _
  | printStatement => exact inside.answer (terminated_behaves ended .printEndExpected .print) _
  | expressionStatement =>
      exact inside.answer (terminated_behaves ended .expressionEndExpected .expression) _
  | block => exact inside.answer (statementRule_behaves ended .block fun _ => rfl) _
  | program => exact inside.answer (statementRule_behaves ended .program fun _ => rfl) _

theorem inside_performAll (inside : Inside front last beyond cursor) (steps : List Step) :
    Inside front last beyond (cursor.performAll steps) := by
  induction steps generalizing cursor with
  | nil => exact inside
  | cons step steps ih => exact ih ((perform_stepsTo ended inside step).inside inside)

end Ended

end Inside

/-- Without an end of input among the tokens, a program is never read. -/
theorem perform_program_endless (cursor : Cursor)
    (endless : ∀ token ∈ cursor.tokens, ¬token.isEnd) :
    (cursor.perform .program).1 = .error .overrun := by
  have reads := StatementRule.reads_answer .program cursor.rest
  by_cases noOverrun : (StatementRule.answer .program cursor.rest).outcome = .error .overrun
  · show (Except.map Answer.statements (StatementRule.answer .program cursor.rest).outcome) = _
    rw [noOverrun]
    rfl
  · obtain ⟨statements, errors, last, after, same, ended⟩ := reads.ends_of_program rfl noOverrun
    have left := reads.left
    rw [same] at left
    have member := List.mem_of_mem_drop (left.mem List.mem_cons_self)
    exact absurd ended (endless last member)

/-- Tokens after the end of input change nothing but how far the errors are from the last token. -/
theorem perform_program_beyond {front : List Token} {last : Token}
    (inside : ∀ token ∈ front, ¬token.isEnd) (ended : last.isEnd) :
    ∃ (statements : List Stmt) (errors : List SyntaxError), ∀ beyond : List Token,
      (start (front ++ last :: beyond)).perform .program =
        (.ok (.statements statements),
          ⟨front ++ last :: beyond, front.length,
            errors.map (SyntaxError.extended beyond.length)⟩) := by
  obtain ⟨statements, errors, read⟩ := program_reaches_end front inside ended
  refine ⟨statements, errors, fun beyond => ?_⟩
  have reads : StatementRule.program.Reads (front ++ [last]) ⟨.ok statements, errors, [last]⟩ :=
    read ▸ StatementRule.reads_answer .program (front ++ [last])
  have extended := reads.extended beyond ended (List.suffix_append front [last])
  rw [List.append_assoc, List.singleton_append, Reply.extended_ok] at extended
  exact perform_program_of_ok extended

/-- In front of an end of input, whatever was done with a cursor, a step does not want for a token,
does not go back or past the end, and only adds to the errors. A program is read up to the end,
with statements and errors that do not depend on what comes after it. Where there is no end, a
program is never read. -/
theorem perform_total (front : List Token) (last : Token) (inside : ∀ token ∈ front, ¬token.isEnd)
    (ended : last.isEnd) :
    (∀ (beyond : List Token) (steps : List Step) (step : Step),
      let before := (start (front ++ last :: beyond)).performAll steps
      let (outcome, after) := before.perform step
      StepsTo front.length before outcome after) ∧
    (∃ (statements : List Stmt) (errors : List SyntaxError), ∀ beyond : List Token,
      (start (front ++ last :: beyond)).perform .program =
        (.ok (.statements statements),
          ⟨front ++ last :: beyond, front.length,
            errors.map (SyntaxError.extended beyond.length)⟩)) ∧
    ∀ cursor : Cursor, (∀ token ∈ cursor.tokens, ¬token.isEnd) →
      (cursor.perform .program).1 = .error .overrun := by
  refine ⟨fun beyond steps step => ?_, perform_program_beyond inside ended,
    perform_program_endless⟩
  exact perform_stepsTo ended (inside_performAll ended inside_start steps) step

/-- `print -`, the end of input and a stray brace: past both tokens a block is refused at the end,
with one error, and the brace is never looked at. -/
theorem perform_total_noOperand :
    let front : List Token := [⟨.printWord, "print", .nil, 1⟩, ⟨.minus, "-", .nil, 1⟩]
    let last : Token := ⟨.endOfInput, "", .nil, 1⟩
    let brace : Token := ⟨.rightBrace, "\x7d", .nil, 1⟩
    (∀ token ∈ front, ¬token.isEnd) ∧ last.isEnd ∧
      (let before := (start (front ++ [last, brace])).performAll [.advance, .synchronize]
      StepsTo 2 before (before.perform .block).1 (before.perform .block).2 ∧
        before.position = 2 ∧ (before.perform .block).2.errors.length = 1) ∧
      (∃ (statements : List Stmt) (errors : List SyntaxError), ∀ beyond : List Token,
        (start (front ++ last :: beyond)).perform .program =
          (.ok (.statements statements),
            ⟨front ++ last :: beyond, 2, errors.map (SyntaxError.extended beyond.length)⟩)) ∧
      ((start front).perform .program).1 = .error .overrun := by
  intro front last brace
  have inside : ∀ token ∈ front, ¬token.isEnd := by decide
  have ended : last.isEnd := by decide
  obtain ⟨steps, program, endless⟩ := perform_total front last inside ended
  refine ⟨inside, ended, ⟨steps [brace] [.advance, .synchronize] .block, ?_, ?_⟩, program,
    endless (start front) inside⟩
  · decide +kernel
  · decide +kernel

end Lox.Cursor
