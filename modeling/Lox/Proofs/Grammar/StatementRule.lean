import Lox.Proofs.Grammar.ExpressionRule

/-!
The ways through the rules for statements and programs, as those through the rules for expressions:
a relation with one case for each way, which holds of a rule's answer and of nothing else,
`StatementRule.reads_iff`. An expression with a semicolon after it is read alike wherever it stands:
after `print`, after the equals sign of a declaration, and alone.
-/

set_option autoImplicit false

namespace Lox.Grammar

theorem notRightBrace_of_isEnd {token : Token} (ended : token.isEnd) :
    token.kind ≠ .rightBrace := by
  rw [Token.isEnd, beq_iff_eq] at ended
  rw [ended]
  decide

/-- An expression and the semicolon after it, as the statement they make. -/
def terminated (cause : SyntaxError.Cause) (build : Expr → Stmt) (tokens : List Token) :
    ReplyTo tokens Stmt :=
  (Grammar.assignment tokens).andThen fun value rest _ =>
    (expect .semicolon cause rest).val.map fun _ => build value

/-- An expression and the semicolon after it are read with an answer. -/
inductive ReadsTerminated (cause : SyntaxError.Cause) (build : Expr → Stmt) :
    List Token → Reply Stmt → Prop where
  | stopped {tokens rest : List Token} {halt : Halt} {errors : List SyntaxError}
      (stopped : ExpressionRule.assignment.Reads tokens ⟨.error halt, errors, rest⟩) :
      ReadsTerminated cause build tokens ⟨.error halt, errors, rest⟩
  | read {tokens rest : List Token} {value : Expr} {errors : List SyntaxError}
      (read : ExpressionRule.assignment.Reads tokens ⟨.ok value, errors, rest⟩) :
      ReadsTerminated cause build tokens
        (((expect .semicolon cause rest).val.val.map fun _ => build value).follow errors)

theorem readsTerminated_iff {cause : SyntaxError.Cause} {build : Expr → Stmt}
    {tokens : List Token} {reply : Reply Stmt} :
    ReadsTerminated cause build tokens reply ↔ (terminated cause build tokens).val = reply := by
  constructor
  · intro reads
    cases reads with
    | stopped stopped => exact ReplyTo.andThen_of_error _ _ stopped.answer_eq
    | read read =>
        obtain ⟨left, same⟩ := ReplyTo.andThen_of_ok (Grammar.assignment tokens) _ read.answer_eq
        rw [terminated, same]
        rfl
  · rintro rfl
    have value := ExpressionRule.reads_answer .assignment tokens
    rw [ExpressionRule.answer] at value
    rw [terminated]
    rcases ReplyTo.andThen_cases (Grammar.assignment tokens) _ with
      ⟨halt, errors, rest, stopped, same⟩ | ⟨result, errors, rest, left, went, same⟩
    · rw [same]
      rw [stopped] at value
      exact .stopped value
    · rw [same]
      rw [went] at value
      exact .read value

/-- What follows `var` is read with an answer. -/
inductive ReadsVariable : List Token → Reply Stmt → Prop where
  | overrun : ReadsVariable [] ⟨.error .overrun, [], []⟩
  | noName {token : Token} {rest : List Token} (other : token.kind ≠ .identifier) :
      ReadsVariable (token :: rest) (ReplyTo.refuse .nameExpected token rest).val
  | nameLast {name : Token} (named : name.kind = .identifier) :
      ReadsVariable [name] ⟨.error .overrun, [], []⟩
  | initial {name token : Token} {rest : List Token} {reply : Reply Stmt}
      (named : name.kind = .identifier) (equal : token.kind = .equal)
      (read : ReadsTerminated .declarationEndExpected (fun value => .declare name (some value))
        rest reply) :
      ReadsVariable (name :: token :: rest) reply
  | noInitial {name token : Token} {rest : List Token} (named : name.kind = .identifier)
      (other : token.kind ≠ .equal) :
      ReadsVariable (name :: token :: rest)
        ((expect .semicolon .declarationEndExpected (token :: rest)).val.val.map fun _ =>
          .declare name none)

theorem expect_identifier (cause : SyntaxError.Cause) (token : Token) (rest : List Token)
    (named : token.kind = .identifier) :
    (expect .identifier cause (token :: rest)).val = (ReplyTo.accept token rest).after token := by
  have other : ¬token.isEnd := by
    rw [Token.isEnd, beq_iff_eq, named]
    decide
  rw [expect, if_pos ⟨named, other⟩]
  rfl

theorem varDeclaration_of_name (name token : Token) (rest : List Token)
    (named : name.kind = .identifier) :
    (varDeclaration (name :: token :: rest)).val =
      if token.kind = .equal then
        (terminated .declarationEndExpected (fun value => .declare name (some value)) rest).val
      else
        (expect .semicolon .declarationEndExpected (token :: rest)).val.val.map fun _ =>
          .declare name none := by
  have taken : (expect .identifier .nameExpected (name :: token :: rest)).val.val =
      ⟨.ok name, [], token :: rest⟩ := by
    rw [expect_identifier _ _ _ named]
    rfl
  obtain ⟨left, same⟩ := ReplyTo.andThen_of_ok (expect .identifier .nameExpected _).val _ taken
  rw [varDeclaration, same, Reply.follow_nil]
  by_cases equal : token.kind = .equal
  · simp only [equal, ↓reduceIte]
    rfl
  · simp only [equal, ↓reduceIte]
    rfl

theorem varDeclaration_of_other (token : Token) (rest : List Token)
    (other : token.kind ≠ .identifier) :
    (varDeclaration (token :: rest)).val = (ReplyTo.refuse .nameExpected token rest).val := by
  have unexpected : ¬(token.kind = .identifier ∧ ¬token.isEnd) := fun expected => other expected.1
  rw [varDeclaration, expect, if_neg unexpected]
  rfl

theorem readsVariable_iff {tokens : List Token} {reply : Reply Stmt} :
    ReadsVariable tokens reply ↔ (varDeclaration tokens).val = reply := by
  constructor
  · intro reads
    cases reads with
    | overrun => rfl
    | noName other => exact varDeclaration_of_other _ _ other
    | nameLast named =>
        rw [varDeclaration, expect_identifier _ _ _ named]
        rfl
    | initial named equal read =>
        rw [varDeclaration_of_name _ _ _ named, if_pos equal]
        exact readsTerminated_iff.1 read
    | noInitial named other => rw [varDeclaration_of_name _ _ _ named, if_neg other]
  · rintro rfl
    match tokens with
    | [] => exact .overrun
    | name :: rest =>
        by_cases named : name.kind = .identifier
        · match rest with
          | [] =>
              rw [varDeclaration, expect_identifier _ _ _ named]
              exact .nameLast named
          | token :: rest =>
              rw [varDeclaration_of_name _ _ _ named]
              by_cases equal : token.kind = .equal
              · rw [if_pos equal]
                exact .initial named equal (readsTerminated_iff.2 rfl)
              · rw [if_neg equal]
                exact .noInitial named equal
        · rw [varDeclaration_of_other _ _ named]
          exact .noName named

/-- A rule that reads statements. -/
inductive StatementRule where
  /-- A declaration or any other statement, before a syntax error in it is recovered from. -/
  | attempt
  | declaration
  | statement
  | block
  | program

namespace StatementRule

abbrev Result : StatementRule → Type
  | .attempt => Stmt
  | .declaration => Option Stmt
  | .statement => Stmt
  | .block => List Stmt
  | .program => List Stmt

def answer (rule : StatementRule) (tokens : List Token) : Reply rule.Result :=
  match rule, tokens with
  | .attempt, [] => ⟨.error .overrun, [], []⟩
  | .attempt, token :: rest =>
    if token.kind = .varWord then (varDeclaration rest).val
    else (Grammar.statement (token :: rest)).val.val
  | .declaration, tokens => (Grammar.declaration tokens).val.val
  | .statement, tokens => (Grammar.statement tokens).val.val
  | .block, tokens => (Grammar.block tokens).val
  | .program, tokens => (Grammar.program tokens).val

/-- A rule for statements reads tokens with an answer. -/
inductive Reads : (rule : StatementRule) → List Token → Reply rule.Result → Prop where
  | overrun {rule : StatementRule} : Reads rule [] ⟨.error .overrun, [], []⟩
  | variableWord {token : Token} {rest : List Token} {reply : Reply Stmt}
      (word : token.kind = .varWord) (read : ReadsVariable rest reply) :
      Reads .attempt (token :: rest) reply
  | otherWord {token : Token} {rest : List Token} {reply : Reply Stmt}
      (other : token.kind ≠ .varWord) (read : Reads .statement (token :: rest) reply) :
      Reads .attempt (token :: rest) reply
  | declared {tokens rest : List Token} {statement : Stmt} {errors : List SyntaxError}
      (read : Reads .attempt tokens ⟨.ok statement, errors, rest⟩) :
      Reads .declaration tokens ⟨.ok (some statement), errors, rest⟩
  | attemptOverrun {tokens rest : List Token} {errors : List SyntaxError}
      (stopped : Reads .attempt tokens ⟨.error .overrun, errors, rest⟩) :
      Reads .declaration tokens ⟨.error .overrun, errors, rest⟩
  | recovered {tokens rest : List Token} {error : SyntaxError} {errors : List SyntaxError}
      (stopped : Reads .attempt tokens ⟨.error (.refused error), errors, rest⟩) :
      Reads .declaration tokens (((synchronize rest).val.map fun _ => none).follow errors)
  | print {token : Token} {rest : List Token} {reply : Reply Stmt}
      (word : token.kind = .printWord)
      (read : ReadsTerminated .printEndExpected .print rest reply) :
      Reads .statement (token :: rest) reply
  | braces {token : Token} {rest : List Token} {reply : Reply (List Stmt)}
      (opens : token.kind = .leftBrace) (read : Reads .block rest reply) :
      Reads .statement (token :: rest) (reply.map .block)
  | expression {token : Token} {rest : List Token} {reply : Reply Stmt}
      (noPrint : token.kind ≠ .printWord) (noBlock : token.kind ≠ .leftBrace)
      (read : ReadsTerminated .expressionEndExpected .expression (token :: rest) reply) :
      Reads .statement (token :: rest) reply
  | blockEnd {token : Token} {rest : List Token} (closes : token.kind = .rightBrace) :
      Reads .block (token :: rest) ⟨.ok [], [], rest⟩
  | unclosed {token : Token} {rest : List Token} (ended : token.isEnd) :
      Reads .block (token :: rest)
        ⟨.error (.refused ⟨.closingBraceExpected, token, rest.length + 1⟩),
          [⟨.closingBraceExpected, token, rest.length + 1⟩], token :: rest⟩
  | blockStopped {token : Token} {rest after : List Token} {halt : Halt}
      {errors : List SyntaxError} (stillOpen : token.kind ≠ .rightBrace) (ahead : ¬token.isEnd)
      (stopped : Reads .declaration (token :: rest) ⟨.error halt, errors, after⟩) :
      Reads .block (token :: rest) ⟨.error halt, errors, after⟩
  | blockNext {token : Token} {rest after : List Token} {first : Option Stmt}
      {errors : List SyntaxError} {reply : Reply (List Stmt)}
      (stillOpen : token.kind ≠ .rightBrace) (ahead : ¬token.isEnd)
      (read : Reads .declaration (token :: rest) ⟨.ok first, errors, after⟩)
      (more : Reads .block after reply) :
      Reads .block (token :: rest) ((reply.map (first.toList ++ ·)).follow errors)
  | programEnd {token : Token} {rest : List Token} (ended : token.isEnd) :
      Reads .program (token :: rest) ⟨.ok [], [], token :: rest⟩
  | programStopped {token : Token} {rest after : List Token} {halt : Halt}
      {errors : List SyntaxError} (ahead : ¬token.isEnd)
      (stopped : Reads .declaration (token :: rest) ⟨.error halt, errors, after⟩) :
      Reads .program (token :: rest) ⟨.error halt, errors, after⟩
  | programNext {token : Token} {rest after : List Token} {first : Option Stmt}
      {errors : List SyntaxError} {reply : Reply (List Stmt)} (ahead : ¬token.isEnd)
      (read : Reads .declaration (token :: rest) ⟨.ok first, errors, after⟩)
      (more : Reads .program after reply) :
      Reads .program (token :: rest) ((reply.map (first.toList ++ ·)).follow errors)

/-- What becomes of an attempt, by its outcome. -/
theorem recover_cases {tokens : List Token} (reply : Advancing tokens Stmt) :
    (∃ statement errors rest, reply.val.val = ⟨.ok statement, errors, rest⟩ ∧
      (recover reply).val.val = ⟨.ok (some statement), errors, rest⟩) ∨
    (∃ errors rest, reply.val.val = ⟨.error .overrun, errors, rest⟩ ∧
      (recover reply).val.val = ⟨.error .overrun, errors, rest⟩) ∨
    ∃ error errors rest, reply.val.val = ⟨.error (.refused error), errors, rest⟩ ∧
      (recover reply).val.val = ((synchronize rest).val.map fun _ => none).follow errors := by
  obtain ⟨⟨⟨outcome, errors, rest⟩, left⟩, advances⟩ := reply
  cases outcome with
  | ok statement => exact Or.inl ⟨statement, errors, rest, rfl, rfl⟩
  | error halt =>
      cases halt with
      | overrun => exact Or.inr (Or.inl ⟨errors, rest, rfl, rfl⟩)
      | refused error => exact Or.inr (Or.inr ⟨error, errors, rest, rfl, rfl⟩)

theorem reads_recover {tokens : List Token} (reply : Advancing tokens Stmt)
    (attempt : Reads .attempt tokens reply.val.val) :
    Reads .declaration tokens (recover reply).val.val := by
  rcases recover_cases reply with ⟨statement, errors, rest, went, same⟩ |
    ⟨errors, rest, stopped, same⟩ | ⟨error, errors, rest, stopped, same⟩
  · rw [same]
    rw [went] at attempt
    exact .declared attempt
  · rw [same]
    rw [stopped] at attempt
    exact .attemptOverrun attempt
  · rw [same]
    rw [stopped] at attempt
    exact .recovered attempt

theorem reads_blockNext (token : Token) (rest : List Token)
    (stillOpen : ¬token.kind = .rightBrace) (ahead : ¬token.isEnd = true)
    (first : Reads .declaration (token :: rest) (answer .declaration (token :: rest)))
    (second : ∀ after : List Token, after.length < (token :: rest).length →
      Reads .block after (answer .block after)) :
    Reads .block (token :: rest) (answer .block (token :: rest)) := by
  rw [answer] at first
  rw [answer, Grammar.block, if_neg stillOpen, dif_neg ahead]
  rcases Progressing.andThen_cases (Grammar.declaration (token :: rest)) ahead _ with
    ⟨halt, errors, after, stopped, same⟩ | ⟨statement, errors, after, shorter, went, same⟩
  · rw [same]
    rw [stopped] at first
    exact .blockStopped stillOpen ahead first
  · rw [same]
    rw [went] at first
    exact .blockNext stillOpen ahead first (second after shorter)

theorem reads_mutual :
    (∀ tokens, Reads .declaration tokens (answer .declaration tokens)) ∧
      (∀ tokens, Reads .statement tokens (answer .statement tokens)) ∧
        ∀ tokens, Reads .block tokens (answer .block tokens) := by
  apply Grammar.declaration.mutual_induct
  case case1 =>
    rw [answer, Grammar.declaration]
    exact .overrun
  case case2 =>
    intro token rest word
    simp only [answer, Grammar.declaration, word, ↓reduceIte]
    exact reads_recover _ (.variableWord word (readsVariable_iff.2 rfl))
  case case3 =>
    intro token rest other ih
    simp only [answer, Grammar.declaration, other, ↓reduceIte]
    exact reads_recover _ (.otherWord other ih)
  case case4 =>
    rw [answer, Grammar.statement]
    exact .overrun
  case case5 =>
    intro token rest word
    simp only [answer, Grammar.statement, word, ↓reduceIte]
    exact .print word (readsTerminated_iff.2 rfl)
  case case6 =>
    intro token rest _ opens ih
    simp only [answer, Grammar.statement, opens, reduceCtorEq, ↓reduceIte]
    exact .braces opens ih
  case case7 =>
    intro token rest noPrint noBlock
    simp only [answer, Grammar.statement, noPrint, noBlock, ↓reduceIte]
    exact .expression noPrint noBlock (readsTerminated_iff.2 rfl)
  case case8 =>
    rw [answer, Grammar.block]
    exact .overrun
  case case9 =>
    intro token rest closes
    simp only [answer, Grammar.block, closes, ↓reduceIte, ReplyTo.after, ReplyTo.accept]
    exact .blockEnd closes
  case case10 =>
    intro token rest stillOpen ended
    simp only [answer, Grammar.block, stillOpen, ended, ↓reduceIte, ↓reduceDIte, ReplyTo.refuse]
    exact .unclosed ended
  case case11 => exact reads_blockNext

theorem reads_program (tokens : List Token) :
    Reads .program tokens (answer .program tokens) := by
  induction tokens using Grammar.program.induct with
  | case1 =>
      rw [answer, Grammar.program]
      exact .overrun
  | case2 token rest ended =>
      simp only [answer, Grammar.program, ended, ↓reduceDIte, ReplyTo.accept]
      exact .programEnd ended
  | case3 token rest ahead ih =>
      have first := reads_mutual.1 (token :: rest)
      rw [answer] at first
      rw [answer, Grammar.program, dif_neg ahead]
      rcases Progressing.andThen_cases (Grammar.declaration (token :: rest)) ahead _ with
        ⟨halt, errors, after, stopped, same⟩ | ⟨statement, errors, after, shorter, went, same⟩
      · rw [same]
        rw [stopped] at first
        exact .programStopped ahead first
      · rw [same]
        rw [went] at first
        exact .programNext ahead first (ih after shorter)

/-- Every answer of a rule for statements comes about in one of the ways. -/
theorem reads_answer (rule : StatementRule) (tokens : List Token) :
    rule.Reads tokens (rule.answer tokens) := by
  cases rule with
  | attempt =>
      match tokens with
      | [] => exact .overrun
      | token :: rest =>
          by_cases word : token.kind = .varWord
          · simp only [answer, word, ↓reduceIte]
            exact .variableWord word (readsVariable_iff.2 rfl)
          · simp only [answer, word, ↓reduceIte]
            exact .otherWord word (reads_mutual.2.1 (token :: rest))
  | declaration => exact reads_mutual.1 tokens
  | statement => exact reads_mutual.2.1 tokens
  | block => exact reads_mutual.2.2 tokens
  | program => exact reads_program tokens

theorem answer_nil (rule : StatementRule) : rule.answer [] = ⟨.error .overrun, [], []⟩ := by
  cases rule with
  | attempt => rfl
  | declaration =>
      rw [answer, Grammar.declaration]
      rfl
  | statement =>
      rw [answer, Grammar.statement]
      rfl
  | block =>
      rw [answer, Grammar.block]
      rfl
  | program =>
      rw [answer, Grammar.program]
      rfl

/-- A declaration is an attempt with what is wrong in it recovered from. -/
theorem declaration_cases (tokens : List Token) :
    ∃ reply : Advancing tokens Stmt, reply.val.val = answer .attempt tokens ∧
      Grammar.declaration tokens = recover reply := by
  match tokens with
  | [] =>
      refine ⟨.overrun [], rfl, ?_⟩
      rw [Grammar.declaration]
  | token :: rest =>
      by_cases word : token.kind = .varWord
      · refine ⟨.after token (varDeclaration rest), ?_, ?_⟩
        · rw [answer, if_pos word]
          rfl
        · rw [Grammar.declaration, if_pos word]
      · refine ⟨Grammar.statement (token :: rest), ?_, ?_⟩
        · rw [answer, if_neg word]
        · rw [Grammar.declaration, if_neg word]

theorem recover_of_attempt {tokens : List Token} {outcome : Except Halt Stmt}
    {errors : List SyntaxError} {rest : List Token}
    (attempt : answer .attempt tokens = ⟨outcome, errors, rest⟩) :
    answer .declaration tokens =
      match outcome with
      | .ok found => ⟨.ok (some found), errors, rest⟩
      | .error .overrun => ⟨.error .overrun, errors, rest⟩
      | .error (.refused _) => ((synchronize rest).val.map fun _ => none).follow errors := by
  obtain ⟨reply, same, declares⟩ := declaration_cases tokens
  rw [answer, declares]
  rw [attempt] at same
  obtain ⟨⟨found, left⟩, advances⟩ := reply
  obtain rfl : found = ⟨outcome, errors, rest⟩ := same
  match outcome with
  | .ok found => rfl
  | .error .overrun => rfl
  | .error (.refused error) => rfl

/-- No way leads to anything but the answer. -/
theorem Reads.answer_eq {rule : StatementRule} {tokens : List Token} {reply : Reply rule.Result}
    (reads : rule.Reads tokens reply) : rule.answer tokens = reply := by
  induction reads with
  | overrun => exact answer_nil _
  | variableWord word read =>
      rw [answer, if_pos word]
      exact readsVariable_iff.1 read
  | otherWord other read ih =>
      rw [answer, if_neg other]
      exact ih
  | declared read ih => exact recover_of_attempt ih
  | attemptOverrun stopped ih => exact recover_of_attempt ih
  | recovered stopped ih => exact recover_of_attempt ih
  | print word read =>
      rw [answer, Grammar.statement, if_pos word]
      exact readsTerminated_iff.1 read
  | braces opens read ih =>
      rw [answer, Grammar.statement, if_neg (by rw [opens]; decide), if_pos opens]
      exact congrArg (Reply.map _) ih
  | expression noPrint noBlock read =>
      rw [answer, Grammar.statement, if_neg noPrint, if_neg noBlock]
      exact readsTerminated_iff.1 read
  | blockEnd closes =>
      rw [answer, Grammar.block, if_pos closes]
      rfl
  | unclosed ended =>
      have stillOpen := notRightBrace_of_isEnd ended
      rw [answer, Grammar.block, if_neg stillOpen, dif_pos ended]
      rfl
  | blockStopped stillOpen ahead stopped ih =>
      rw [answer, Grammar.block, if_neg stillOpen, dif_neg ahead]
      exact Progressing.andThen_of_error (Grammar.declaration (_ :: _)) ahead _ ih
  | blockNext stillOpen ahead read more first second =>
      rw [answer, Grammar.block, if_neg stillOpen, dif_neg ahead]
      obtain ⟨shorter, same⟩ :=
        Progressing.andThen_of_ok (Grammar.declaration (_ :: _)) ahead _ first
      rw [same]
      exact congrArg (fun reply : Reply _ => (reply.map _).follow _) second
  | programEnd ended =>
      rw [answer, Grammar.program, dif_pos ended]
      rfl
  | programStopped ahead stopped ih =>
      rw [answer, Grammar.program, dif_neg ahead]
      exact Progressing.andThen_of_error (Grammar.declaration (_ :: _)) ahead _ ih
  | programNext ahead read more first second =>
      rw [answer, Grammar.program, dif_neg ahead]
      obtain ⟨shorter, same⟩ :=
        Progressing.andThen_of_ok (Grammar.declaration (_ :: _)) ahead _ first
      rw [same]
      exact congrArg (fun reply : Reply _ => (reply.map _).follow _) second

theorem reads_iff {rule : StatementRule} {tokens : List Token} {reply : Reply rule.Result} :
    rule.Reads tokens reply ↔ rule.answer tokens = reply := by
  constructor
  · exact Reads.answer_eq
  · rintro rfl
    exact reads_answer rule tokens

end StatementRule

end Lox.Grammar
