import Lox.Proofs.Grammar.Exactness
import Lox.Proofs.Grammar.Relaxed

/-!
Which tokens the errors of a program blame. A rule that goes on has left behind every token that it
blamed, and recovery leaves behind the token that stopped a declaration, so a token is blamed once.
Only the end of the input is never left behind: the block that it is missing from blames it, and so
does each block around that one. Hence `program_blames_once`.
-/

set_option autoImplicit false

namespace Lox

namespace SyntaxError

/-- The error blames one of some tokens, and as many are left from there as it says. -/
def StandsIn (error : SyntaxError) (tokens : List Token) : Prop :=
  ∃ after, error.token :: after <:+ tokens ∧ error.remaining = after.length + 1

theorem StandsIn.bounds {error : SyntaxError} {tokens : List Token}
    (stands : error.StandsIn tokens) : 0 < error.remaining ∧ error.remaining ≤ tokens.length := by
  obtain ⟨after, ahead, same⟩ := stands
  have shorter := ahead.length_le
  rw [List.length_cons] at shorter
  omega

theorem StandsIn.mono {error : SyntaxError} {tokens more : List Token}
    (stands : error.StandsIn tokens) (left : tokens <:+ more) : error.StandsIn more := by
  obtain ⟨after, ahead, same⟩ := stands
  exact ⟨after, ahead.trans left, same⟩

/-- Where in some tokens an error stands. -/
def position (tokens : List Token) (error : SyntaxError) : Nat :=
  tokens.length - error.remaining

theorem StandsIn.position {error : SyntaxError} {tokens : List Token}
    (stands : error.StandsIn tokens) :
    error.position tokens + error.remaining = tokens.length ∧
      tokens[error.position tokens]? = some error.token := by
  have most := stands.bounds.2
  obtain ⟨after, ⟨front, rfl⟩, same⟩ := stands
  have here : error.position (front ++ error.token :: after) = front.length := by
    rw [SyntaxError.position, List.length_append, List.length_cons, same, Nat.add_sub_cancel]
  refine ⟨Nat.sub_add_cancel most, ?_⟩
  rw [here, List.getElem?_append_right (Nat.le_refl _), Nat.sub_self]
  rfl

/-- Two errors, one recorded before the other. They blame the same token only where a token may be
blamed again, and if both stop a declaration, the later one does not stand before the first. -/
structure Apart (again : Nat → Prop) (first later : SyntaxError) : Prop where
  same : first.remaining = later.remaining → again first.remaining
  onward : first.unwinds → later.unwinds → later.remaining ≤ first.remaining

/-- If only the last token may be blamed again, errors that stop a declaration stand one after the
other, or both at the last token. -/
theorem Apart.position {first later : SyntaxError} {tokens : List Token}
    (apart : Apart (· = 1) first later) (unwinds : first.unwinds) (others : later.unwinds)
    (stands : first.StandsIn tokens) (standsLater : later.StandsIn tokens) :
    first.position tokens < later.position tokens ∨
      first.position tokens + 1 = tokens.length ∧ later.position tokens + 1 = tokens.length := by
  have place := stands.position.1
  have farther := standsLater.position.1
  rcases Nat.lt_or_eq_of_le (apart.onward unwinds others) with onward | here
  · exact Or.inl (by omega)
  · have atEnd : first.remaining = 1 := apart.same here.symm
    exact Or.inr (by omega)

theorem countP_position {errors : List SyntaxError} {tokens : List Token}
    (stands : ∀ error ∈ errors, error.StandsIn tokens) {index : Nat}
    (within : index < tokens.length) :
    errors.countP (·.position tokens = index) =
      errors.countP (·.remaining = tokens.length - index) := by
  apply List.countP_congr
  intro error member
  have place := (stands error member).position.1
  simp only [decide_eq_true_iff]
  omega

/-- How many errors blame the last token. -/
def endBlames (errors : List SyntaxError) : Nat :=
  errors.countP (·.remaining = 1)

theorem endBlames_append (first second : List SyntaxError) :
    endBlames (first ++ second) = endBlames first + endBlames second :=
  List.countP_append

/-- Where a token may not be blamed again, one error blames it at most. -/
theorem countP_le_one {again : Nat → Prop} {errors : List SyntaxError}
    (apart : errors.Pairwise (Apart again)) {remaining : Nat} (once : ¬again remaining) :
    errors.countP (·.remaining = remaining) ≤ 1 := by
  induction apart with
  | nil => exact Nat.zero_le 1
  | @cons error errors later _ ih =>
      by_cases here : error.remaining = remaining
      · have others : errors.countP (·.remaining = remaining) = 0 := by
          rw [List.countP_eq_zero]
          intro other member same
          rw [decide_eq_true_iff] at same
          exact once (here ▸ (later other member).same (here.trans same.symm))
        rw [List.countP_cons, others]
        split <;> decide
      · rw [List.countP_cons_of_neg (by simpa using here)]
        exact ih

end SyntaxError

namespace Grammar

/-- The errors of an answer to tokens. All of them blame tokens that the answer has left behind or
stops at. An answer with a result has left them behind, but for those that may be blamed again. -/
structure Reply.InOrder {α : Type} (again : Nat → Prop) (tokens : List Token) (reply : Reply α) :
    Prop where
  left : reply.rest <:+ tokens
  stands : ∀ error ∈ reply.errors, error.StandsIn tokens
  reached : ∀ error ∈ reply.errors, reply.rest.length ≤ error.remaining
  passed : ∀ result, reply.outcome = .ok result →
    ∀ error ∈ reply.errors, error.remaining = reply.rest.length → again error.remaining
  apart : reply.errors.Pairwise (SyntaxError.Apart again)

section Answers

variable {α β : Type} {again : Nat → Prop} {tokens rest : List Token} {reply : Reply α}

namespace Reply.InOrder

theorem quiet (outcome : Except Halt α) (left : rest <:+ tokens) :
    (⟨outcome, [], rest⟩ : Reply α).InOrder again tokens :=
  ⟨left, List.forall_mem_nil _, List.forall_mem_nil _, fun _ _ => List.forall_mem_nil _, .nil⟩

theorem mono (inOrder : reply.InOrder again rest) (left : rest <:+ tokens) :
    reply.InOrder again tokens where
  left := inOrder.left.trans left
  stands error member := (inOrder.stands error member).mono left
  reached := inOrder.reached
  passed := inOrder.passed
  apart := inOrder.apart

theorem map (inOrder : reply.InOrder again tokens) (f : α → β) :
    (reply.map f).InOrder again tokens where
  left := inOrder.left
  stands := inOrder.stands
  reached := inOrder.reached
  passed result went := by
    obtain ⟨found, inner, -⟩ := Reply.ok_of_map went
    exact inOrder.passed found inner
  apart := inOrder.apart

theorem halt {outcome : Except Halt α} {errors : List SyntaxError}
    (inOrder : (⟨outcome, errors, rest⟩ : Reply α).InOrder again tokens) (halt : Halt) :
    (⟨.error halt, errors, rest⟩ : Reply β).InOrder again tokens :=
  ⟨inOrder.left, inOrder.stands, inOrder.reached, nofun, inOrder.apart⟩

/-- What is read after a result blames no token that was left behind. -/
theorem follow {result : β} {errors : List SyntaxError}
    (first : (⟨.ok result, errors, rest⟩ : Reply β).InOrder again tokens)
    (second : reply.InOrder again rest) : (reply.follow errors).InOrder again tokens where
  left := second.left.trans first.left
  stands error member := by
    rcases List.mem_append.1 member with earlier | later
    · exact first.stands error earlier
    · exact (second.stands error later).mono first.left
  reached error member := by
    rcases List.mem_append.1 member with earlier | later
    · exact Nat.le_trans second.left.length_le (first.reached error earlier)
    · exact second.reached error later
  passed found went error member same := by
    rcases List.mem_append.1 member with earlier | later
    · apply first.passed result rfl error earlier
      exact Nat.le_antisymm (same ▸ second.left.length_le) (first.reached error earlier)
    · exact second.passed found went error later same
  apart := by
    refine List.pairwise_append.2 ⟨first.apart, second.apart, ?_⟩
    intro error earlier other later
    -- The rest is between the two: the later error is in it, and the first one is not behind it.
    have before : rest.length ≤ error.remaining := first.reached error earlier
    have bound := ((second.stands other later).bounds).2
    refine ⟨fun same => ?_, fun _ _ => Nat.le_trans bound before⟩
    exact first.passed result rfl error earlier (Nat.le_antisymm (same ▸ bound) before)

/-- Tokens that are skipped are left behind as well. Where none is, the input has come to its last
token. -/
theorem skip {outcome : Except Halt α} {errors : List SyntaxError} {after : List Token}
    (inOrder : (⟨outcome, errors, rest⟩ : Reply α).InOrder (· = 1) tokens) (left : after <:+ rest)
    (leaves : after.length < rest.length ∨ rest.length = 1) (result : β) :
    (⟨.ok result, errors, after⟩ : Reply β).InOrder (· = 1) tokens where
  left := left.trans inOrder.left
  stands := inOrder.stands
  reached error member := Nat.le_trans left.length_le (inOrder.reached error member)
  passed _ _ error member here := by
    -- The error is then at the rest, which was not left behind, so the rest is the last token.
    have before : rest.length ≤ error.remaining := inOrder.reached error member
    have positive := (inOrder.stands error member).bounds.1
    have atMost := left.length_le
    change error.remaining = after.length at here
    omega
  apart := inOrder.apart

/-- The error of a target is recorded after those of the value, which all stand behind it. -/
theorem invalidTarget {token : Token} {value : β} {errors : List SyntaxError}
    {after : List Token} (inOrder : (⟨.ok value, errors, after⟩ : Reply β).InOrder again rest)
    (target : α) :
    (⟨.ok target, errors ++ [⟨.invalidTarget, token, rest.length + 1⟩], after⟩ :
      Reply α).InOrder again (token :: rest) where
  left := inOrder.left.trans (List.suffix_cons token rest)
  stands := by
    rw [List.forall_mem_append, List.forall_mem_singleton]
    exact ⟨fun error member => (inOrder.stands error member).mono (List.suffix_cons token rest),
      rest, List.suffix_rfl, rfl⟩
  reached := by
    rw [List.forall_mem_append, List.forall_mem_singleton]
    exact ⟨inOrder.reached, Nat.le_succ_of_le inOrder.left.length_le⟩
  passed _ _ := by
    rw [List.forall_mem_append, List.forall_mem_singleton]
    refine ⟨inOrder.passed value rfl, fun same => ?_⟩
    exact absurd same (Nat.ne_of_gt (Nat.lt_succ_of_le inOrder.left.length_le))
  apart := by
    refine List.pairwise_append.2 ⟨inOrder.apart, List.pairwise_singleton _ _, ?_⟩
    intro error member target found
    obtain rfl := List.mem_singleton.1 found
    refine ⟨fun same => ?_, fun _ unwinds => nomatch unwinds⟩
    exact absurd same (Nat.ne_of_lt (Nat.lt_succ_of_le (inOrder.stands error member).bounds.2))

end Reply.InOrder

theorem refuse_inOrder (cause : SyntaxError.Cause) (token : Token) (rest : List Token) :
    (ReplyTo.refuse cause token rest : ReplyTo _ α).val.InOrder again (token :: rest) := by
  refine ⟨List.suffix_rfl, ?_, ?_, nofun, List.pairwise_singleton _ _⟩
  · exact List.forall_mem_singleton.2 ⟨rest, List.suffix_rfl, rfl⟩
  · exact List.forall_mem_singleton.2 (Nat.le_refl _)

theorem expect_inOrder (kind : Token.Kind) (cause : SyntaxError.Cause) (tokens : List Token) :
    (expect kind cause tokens).val.val.InOrder again tokens := by
  match tokens with
  | [] => exact .quiet _ List.suffix_rfl
  | token :: rest =>
      rcases expect_cases kind cause token rest with ⟨-, -, same⟩ | ⟨-, same⟩
      · rw [same]
        exact .quiet _ (List.suffix_cons token rest)
      · rw [same]
        exact refuse_inOrder cause token rest

end Answers

variable {again : Nat → Prop}

theorem ExpressionRule.Reads.inOrder {rule : ExpressionRule} {tokens : List Token}
    {reply : Reply Expr} (reads : rule.Reads tokens reply) : reply.InOrder again tokens := by
  induction reads with
  | overrun => exact .quiet _ List.suffix_rfl
  | targetStopped stopped ih => exact ih
  | targetLast read ih => exact ih.halt .overrun
  | noTarget read other ih => exact ih
  | valueStopped read equal stopped first second =>
      exact first.follow (second.mono (List.suffix_cons _ _))
  | @assigned tokens rest after token name value errors later read equal assigned first second =>
      exact (first.follow (second.mono (List.suffix_cons token rest))).map (Expr.assign name)
  | invalidTarget read equal invalid assigned first second =>
      exact first.follow (second.invalidTarget _)
  | operandStopped stopped ih => exact ih
  | operands read more first second => exact first.follow second
  | tighter tighter read ih => exact ih
  | tightest tightest read ih => exact ih
  | chainEnd other => exact .quiet _ List.suffix_rfl
  | chainStopped operator stopped ih => exact ih.mono (List.suffix_cons _ _)
  | chainNext operator read more first second =>
      exact (first.follow second).mono (List.suffix_cons _ _)
  | operator operator read ih => exact (ih.map _).mono (List.suffix_cons _ _)
  | noOperator other read ih => exact ih
  | atom stands => exact .quiet _ (List.suffix_cons _ _)
  | innerStopped opens stopped ih => exact ih.mono (List.suffix_cons _ _)
  | group opens read ih =>
      exact (ih.follow ((expect_inOrder _ _ _).map _)).mono (List.suffix_cons _ _)
  | refused none other => exact refuse_inOrder _ _ _

theorem ReadsTerminated.inOrder {cause : SyntaxError.Cause} {build : Expr → Stmt}
    {tokens : List Token} {reply : Reply Stmt}
    (reads : ReadsTerminated cause build tokens reply) : reply.InOrder again tokens := by
  cases reads with
  | stopped stopped => exact stopped.inOrder.halt _
  | read read => exact read.inOrder.follow ((expect_inOrder _ _ _).map _)

theorem ReadsVariable.inOrder {tokens : List Token} {reply : Reply Stmt}
    (reads : ReadsVariable tokens reply) : reply.InOrder again tokens := by
  cases reads with
  | overrun => exact .quiet _ List.suffix_rfl
  | noName other => exact refuse_inOrder _ _ _
  | nameLast named => exact .quiet _ List.nil_suffix
  | @initial name token rest reply named equal read =>
      exact read.inOrder.mono (List.suffix_append [name, token] rest)
  | noInitial named other =>
      exact ((expect_inOrder _ _ _).map _).mono (List.suffix_cons _ _)

section Program

variable {body : List Token} {last : Token} (inside : ∀ token ∈ body, ¬token.isEnd)

include inside

/-- Skipping leaves a token behind, unless the input ends where it begins. -/
theorem length_lt_of_synchronize {tokens after : List Token} (within : tokens <:+ body ++ [last])
    (went : (synchronize tokens).val = ⟨.ok (), [], after⟩) :
    after.length < tokens.length ∨ tokens.length = 1 := by
  match tokens with
  | [] => cases went
  | token :: rest =>
      by_cases isEnd : token.isEnd
      · rw [suffix_eq_last inside isEnd within]
        exact Or.inr rfl
      · have shorter := synchronize_advances (show ¬AtEnd (token :: rest) from isEnd)
        rw [went] at shorter
        exact Or.inl shorter

theorem Reply.InOrder.recovered {tokens rest : List Token} {halt : Halt}
    {errors : List SyntaxError}
    (inOrder : (⟨.error halt, errors, rest⟩ : Reply Stmt).InOrder (· = 1) tokens)
    (within : tokens <:+ body ++ [last]) :
    (((synchronize rest).val.map fun _ => (none : Option Stmt)).follow errors).InOrder (· = 1)
      tokens := by
  have left := (synchronize rest).property
  rcases synchronize_cases rest with ⟨after, same⟩ | same
  · rw [same] at left
    have leaves := length_lt_of_synchronize inside (inOrder.left.trans within) same
    rw [same, Reply.map_ok, Reply.follow, List.append_nil]
    exact inOrder.skip left leaves none
  · rw [same, Reply.map, Reply.follow, List.append_nil]
    refine ⟨List.nil_suffix, inOrder.stands, fun _ _ => Nat.zero_le _, ?_, inOrder.apart⟩
    rintro _ ⟨⟩

theorem StatementRule.Reads.inOrder {rule : StatementRule} {tokens : List Token}
    {reply : Reply rule.Result} (reads : rule.Reads tokens reply)
    (within : tokens <:+ body ++ [last]) : reply.InOrder (· = 1) tokens := by
  induction reads with
  | overrun => exact .quiet _ List.suffix_rfl
  | variableWord word read => exact read.inOrder.mono (List.suffix_cons _ _)
  | otherWord other read ih => exact ih within
  | declared read ih => exact (ih within).map some
  | attemptOverrun stopped ih => exact (ih within).halt _
  | recovered stopped ih => exact (ih within).recovered inside within
  | print word read => exact read.inOrder.mono (List.suffix_cons _ _)
  | @braces token rest reply opens read ih =>
      have left := List.suffix_cons token rest
      exact ((ih (left.trans within)).map _).mono left
  | expression noPrint noBlock read => exact read.inOrder
  | blockEnd closes => exact .quiet _ (List.suffix_cons _ _)
  | unclosed isEnd => exact refuse_inOrder _ _ _
  | blockStopped stillOpen ahead stopped ih => exact (ih within).halt _
  | blockNext stillOpen ahead read more first second =>
      exact (first within).follow ((second (read.left.trans within)).map _)
  | programEnd isEnd => exact .quiet _ List.suffix_rfl
  | programStopped ahead stopped ih => exact (ih within).halt _
  | programNext ahead read more first second =>
      exact (first within).follow ((second (read.left.trans within)).map _)

end Program

/-! How often the end of the input is blamed. -/

def leftBraces (tokens : List Token) : Nat :=
  tokens.countP (·.kind = .leftBrace)

theorem leftBraces_le {tokens rest : List Token} (left : rest <:+ tokens) :
    leftBraces rest ≤ leftBraces tokens :=
  left.sublist.countP_le

theorem endBlames_le_one {tokens : List Token} {reply : Reply Stmt}
    (inOrder : reply.InOrder (fun _ => False) tokens) : SyntaxError.endBlames reply.errors ≤ 1 :=
  SyntaxError.countP_le_one inOrder.apart not_false

namespace StatementRule

/-- How often a rule blames the end of the input in tokens without a left brace. A block may blame
it for the declaration that it ends in, and then for itself. -/
def endAllowance : StatementRule → Nat
  | .block => 2
  | _ => 1

section Program

variable {body : List Token} {last : Token} (inside : ∀ token ∈ body, ¬token.isEnd)
  (ended : last.isEnd)

include ended in
theorem isEnd_of_short {token : Token} {rest : List Token}
    (within : token :: rest <:+ body ++ [last]) (short : (token :: rest).length ≤ 1) :
    token.isEnd := by
  obtain rfl : rest = [] := by simpa using short
  obtain ⟨front, same⟩ := within
  obtain ⟨-, ⟨⟩⟩ := List.append_inj' same rfl
  exact ended

include ended in
theorem Reads.endBlames_of_short_block {tokens : List Token} {reply : Reply (List Stmt)}
    (reads : StatementRule.block.Reads tokens reply) (within : tokens <:+ body ++ [last])
    (short : tokens.length ≤ 1) : SyntaxError.endBlames reply.errors ≤ 1 := by
  cases reads with
  | overrun => exact Nat.zero_le 1
  | blockEnd closes => exact Nat.zero_le 1
  | unclosed isEnd => exact List.countP_le_length
  | blockStopped stillOpen ahead stopped => exact absurd (isEnd_of_short ended within short) ahead
  | blockNext stillOpen ahead read more => exact absurd (isEnd_of_short ended within short) ahead

include ended in
theorem Reads.endBlames_of_short_program {tokens : List Token} {reply : Reply (List Stmt)}
    (reads : StatementRule.program.Reads tokens reply) (within : tokens <:+ body ++ [last])
    (short : tokens.length ≤ 1) : SyntaxError.endBlames reply.errors ≤ 0 := by
  cases reads with
  | overrun => exact Nat.le_refl 0
  | programEnd isEnd => exact Nat.le_refl 0
  | programStopped ahead stopped => exact absurd (isEnd_of_short ended within short) ahead
  | programNext ahead read more => exact absurd (isEnd_of_short ended within short) ahead

/-- If the first declaration blames the end of the input, nothing but that is left for the
others. -/
theorem endBlames_next {tokens rest : List Token} {first : Option Stmt} {allowance : Nat}
    {errors later : List SyntaxError}
    (inOrder : (⟨.ok first, errors, rest⟩ : Reply (Option Stmt)).InOrder (· = 1) tokens)
    (atFirst : SyntaxError.endBlames errors ≤ 1 + leftBraces tokens)
    (atLater : SyntaxError.endBlames later ≤ allowance + leftBraces rest)
    (short : rest.length ≤ 1 → SyntaxError.endBlames later + 1 ≤ allowance) :
    SyntaxError.endBlames (errors ++ later) ≤ allowance + leftBraces tokens := by
  have fewer : leftBraces rest ≤ leftBraces tokens := leftBraces_le inOrder.left
  rw [SyntaxError.endBlames_append]
  rcases Nat.eq_zero_or_pos (SyntaxError.endBlames errors) with none | some
  · omega
  · -- An error at the end is not behind what is left, so that is one token at most.
    obtain ⟨error, member, blames⟩ := List.countP_pos_iff.1 some
    rw [decide_eq_true_iff] at blames
    have atEnd := short (blames ▸ inOrder.reached error member)
    omega

include inside ended in
theorem Reads.endBlames_le {rule : StatementRule} {tokens : List Token}
    {reply : Reply rule.Result} (reads : rule.Reads tokens reply)
    (within : tokens <:+ body ++ [last]) :
    SyntaxError.endBlames reply.errors ≤ rule.endAllowance + leftBraces tokens := by
  induction reads with
  | overrun => exact Nat.zero_le _
  | variableWord word read => exact Nat.le_add_right_of_le (endBlames_le_one read.inOrder)
  | otherWord other read ih => exact ih within
  | declared read ih => exact ih within
  | attemptOverrun stopped ih => exact ih within
  | recovered stopped ih =>
      rw [Reply.follow, Reply.map, synchronize_errors, List.append_nil]
      exact ih within
  | print word read => exact Nat.le_add_right_of_le (endBlames_le_one read.inOrder)
  | @braces token rest reply opens read ih =>
      have inner : SyntaxError.endBlames reply.errors ≤ 2 + leftBraces rest :=
        ih ((List.suffix_cons token rest).trans within)
      have one : leftBraces (token :: rest) = leftBraces rest + 1 :=
        List.countP_cons_of_pos (by simpa using opens)
      show SyntaxError.endBlames reply.errors ≤ 1 + leftBraces (token :: rest)
      omega
  | expression noPrint noBlock read => exact Nat.le_add_right_of_le (endBlames_le_one read.inOrder)
  | blockEnd closes => exact Nat.zero_le _
  | unclosed isEnd => exact Nat.le_add_right_of_le (Nat.le_succ_of_le List.countP_le_length)
  | blockStopped stillOpen ahead stopped ih =>
      exact Nat.le_trans (ih within) (Nat.add_le_add_right (Nat.le_succ 1) _)
  | blockNext stillOpen ahead read more first second =>
      have beyond := read.left.trans within
      refine endBlames_next (read.inOrder inside within) (first within) (second beyond) ?_
      intro short
      exact Nat.succ_le_succ (more.endBlames_of_short_block ended beyond short)
  | programEnd isEnd => exact Nat.zero_le _
  | programStopped ahead stopped ih => exact ih within
  | programNext ahead read more first second =>
      have beyond := read.left.trans within
      refine endBlames_next (read.inOrder inside within) (first within) (second beyond) ?_
      intro short
      exact Nat.succ_le_succ (more.endBlames_of_short_program ended beyond short)

end Program

end StatementRule

/-- Each error of a program blames one of its tokens. A token before the end is blamed by one error
at most. The errors that stop a declaration blame tokens farther and farther on, until they blame
the end. The end is blamed no more often than there are left braces, and once more. -/
theorem program_blames_once (body : List Token) (last : Token)
    (inside : ∀ token ∈ body, ¬token.isEnd) (ended : last.isEnd) :
    let tokens := body ++ [last]
    let errors := ((Cursor.start tokens).perform .program).2.errors
    (∀ error ∈ errors, error.position tokens + error.remaining = tokens.length ∧
      tokens[error.position tokens]? = some error.token) ∧
    (∀ index < body.length, errors.countP (·.position tokens = index) ≤ 1) ∧
    (errors.filter SyntaxError.unwinds).Pairwise (fun first later =>
      first.position tokens < later.position tokens ∨
        first.position tokens = body.length ∧ later.position tokens = body.length) ∧
    errors.countP (·.position tokens = body.length) ≤ 1 + leftBraces body := by
  intro tokens errors
  have reads := StatementRule.reads_answer .program tokens
  have inOrder : (StatementRule.answer .program tokens).InOrder (· = 1) tokens :=
    reads.inOrder inside List.suffix_rfl
  have stands : ∀ error ∈ errors, error.StandsIn tokens := inOrder.stands
  have whole : tokens.length = body.length + 1 := List.length_append
  refine ⟨fun error member => (stands error member).position, ?_, ?_, ?_⟩
  · intro index before
    rw [SyntaxError.countP_position stands (by omega)]
    exact SyntaxError.countP_le_one inOrder.apart (by omega)
  · rw [List.pairwise_filter]
    refine inOrder.apart.imp_of_mem ?_
    intro first later memberFirst memberLater apart unwinds others
    have onward := apart.position unwinds others (stands first memberFirst)
      (stands later memberLater)
    rw [whole, Nat.add_right_cancel_iff, Nat.add_right_cancel_iff] at onward
    exact onward
  · have most := reads.endBlames_le inside ended List.suffix_rfl
    have braces : leftBraces tokens = leftBraces body := by
      have other : ¬last.kind = .leftBrace := fun opens =>
        not_isEnd_of_kind opens (by decide) ended
      simp [tokens, leftBraces, other]
    rw [SyntaxError.countP_position stands (by omega), whole, Nat.add_sub_cancel_left, ← braces]
    exact most

/-- In `{ { nil = nil; print` the end is blamed for the value that is missing and for each block,
which is as often as it can be. The target is blamed once. -/
theorem program_blames_once_unclosed :
    let print : Token := ⟨.printWord, "print", .nil, 1⟩
    let equals : Token := ⟨.equal, "=", .nil, 1⟩
    let last : Token := ⟨.endOfInput, "", .nil, 1⟩
    let body := [⟨.leftBrace, "\x7b", .nil, 1⟩, ⟨.leftBrace, "\x7b", .nil, 1⟩,
      ⟨.nilWord, "nil", .nil, 1⟩, equals, ⟨.nilWord, "nil", .nil, 1⟩,
      ⟨.semicolon, ";", .nil, 1⟩, print]
    let errors := ((Cursor.start (body ++ [last])).perform .program).2.errors
    (∀ token ∈ body, ¬token.isEnd) ∧ last.isEnd ∧
      errors = [⟨.invalidTarget, equals, 5⟩, ⟨.expressionExpected, last, 1⟩,
        ⟨.closingBraceExpected, last, 1⟩, ⟨.closingBraceExpected, last, 1⟩] ∧
      errors.countP (·.position (body ++ [last]) = 3) ≤ 1 ∧
      errors.countP (·.position (body ++ [last]) = 7) ≤ 3 := by
  intro print equals last body errors
  have inside : ∀ token ∈ body, ¬token.isEnd := by decide
  have ended : last.isEnd := by decide
  obtain ⟨-, once, -, atEnd⟩ := program_blames_once body last inside ended
  exact ⟨inside, ended, by decide +kernel, once 3 (by decide), atEnd⟩

end Grammar

end Lox
