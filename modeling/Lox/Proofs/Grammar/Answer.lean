import Lox.Grammar.Statement

/-!
Answers in two parts: what becomes of a first answer and the one that goes on from it.
-/

set_option autoImplicit false

namespace Lox.Grammar

namespace Reply

variable {α β : Type}

/-- An answer with the errors that were recorded before it. -/
def follow (errors : List SyntaxError) (reply : Reply α) : Reply α :=
  { reply with errors := errors ++ reply.errors }

def map (f : α → β) (reply : Reply α) : Reply β :=
  { reply with outcome := reply.outcome.map f }

@[simp] theorem follow_nil (reply : Reply α) : reply.follow [] = reply := rfl

@[simp] theorem map_ok (f : α → β) (result : α) (errors : List SyntaxError) (rest : List Token) :
    (⟨.ok result, errors, rest⟩ : Reply α).map f = ⟨.ok (f result), errors, rest⟩ := rfl

theorem map_map {γ : Type} (f : α → β) (g : β → γ) (reply : Reply α) :
    (reply.map f).map g = reply.map (g ∘ f) := by
  obtain ⟨outcome, errors, rest⟩ := reply
  cases outcome with
  | ok result => rfl
  | error halt => rfl

theorem map_nil_append (reply : Reply (List α)) : reply.map ([] ++ ·) = reply := by
  obtain ⟨outcome, errors, rest⟩ := reply
  cases outcome with
  | ok result => rfl
  | error halt => rfl

end Reply

namespace ReplyTo

variable {α β : Type} {tokens : List Token}

/-- An answer in two parts is the first part, if that stops, or both, one after the other. -/
theorem andThen_cases (first : ReplyTo tokens α)
    (next : α → (rest : List Token) → rest <:+ tokens → ReplyTo rest β) :
    (∃ halt errors rest, first.val = ⟨.error halt, errors, rest⟩ ∧
      (first.andThen next).val = ⟨.error halt, errors, rest⟩) ∨
    ∃ result errors rest left, first.val = ⟨.ok result, errors, rest⟩ ∧
      (first.andThen next).val = (next result rest left).val.follow errors := by
  obtain ⟨⟨outcome, errors, rest⟩, left⟩ := first
  cases outcome with
  | error halt => exact Or.inl ⟨halt, errors, rest, rfl, rfl⟩
  | ok result => exact Or.inr ⟨result, errors, rest, left, rfl, rfl⟩

theorem andThen_of_error (first : ReplyTo tokens α)
    (next : α → (rest : List Token) → rest <:+ tokens → ReplyTo rest β)
    {halt : Halt} {errors : List SyntaxError} {rest : List Token}
    (stopped : first.val = ⟨.error halt, errors, rest⟩) :
    (first.andThen next).val = ⟨.error halt, errors, rest⟩ := by
  obtain ⟨reply, left⟩ := first
  subst stopped
  rfl

theorem andThen_of_ok (first : ReplyTo tokens α)
    (next : α → (rest : List Token) → rest <:+ tokens → ReplyTo rest β)
    {result : α} {errors : List SyntaxError} {rest : List Token}
    (went : first.val = ⟨.ok result, errors, rest⟩) :
    ∃ left, (first.andThen next).val = (next result rest left).val.follow errors := by
  obtain ⟨reply, left⟩ := first
  subst went
  exact ⟨left, rfl⟩

end ReplyTo

theorem Progressing.andThen_cases {α β : Type} {tokens : List Token}
    (first : Progressing tokens α) (ahead : ¬AtEnd tokens)
    (next : α → (rest : List Token) → rest.length < tokens.length → ReplyTo rest β) :
    (∃ halt errors rest, first.val.val = ⟨.error halt, errors, rest⟩ ∧
      (first.andThen ahead next).val = ⟨.error halt, errors, rest⟩) ∨
    ∃ result errors rest shorter, first.val.val = ⟨.ok result, errors, rest⟩ ∧
      (first.andThen ahead next).val = (next result rest shorter).val.follow errors := by
  obtain ⟨⟨⟨outcome, errors, rest⟩, left⟩, progress⟩ := first
  cases outcome with
  | error halt => exact Or.inl ⟨halt, errors, rest, rfl, rfl⟩
  | ok result => exact Or.inr ⟨result, errors, rest, progress ahead result rfl, rfl, rfl⟩

theorem Progressing.andThen_of_error {α β : Type} {tokens : List Token}
    (first : Progressing tokens α) (ahead : ¬AtEnd tokens)
    (next : α → (rest : List Token) → rest.length < tokens.length → ReplyTo rest β)
    {halt : Halt} {errors : List SyntaxError} {rest : List Token}
    (stopped : first.val.val = ⟨.error halt, errors, rest⟩) :
    (first.andThen ahead next).val = ⟨.error halt, errors, rest⟩ := by
  obtain ⟨⟨reply, left⟩, progress⟩ := first
  obtain rfl : reply = ⟨.error halt, errors, rest⟩ := stopped
  rfl

theorem Progressing.andThen_of_ok {α β : Type} {tokens : List Token}
    (first : Progressing tokens α) (ahead : ¬AtEnd tokens)
    (next : α → (rest : List Token) → rest.length < tokens.length → ReplyTo rest β)
    {result : α} {errors : List SyntaxError} {rest : List Token}
    (went : first.val.val = ⟨.ok result, errors, rest⟩) :
    ∃ shorter, (first.andThen ahead next).val = (next result rest shorter).val.follow errors := by
  obtain ⟨⟨reply, left⟩, progress⟩ := first
  obtain rfl : reply = ⟨.ok result, errors, rest⟩ := went
  exact ⟨progress ahead result rfl, rfl⟩

end Lox.Grammar
