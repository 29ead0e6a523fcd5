import Lox.Proofs.Grammar.Answer

/-!
The ways through the rules for expressions. A rule is a function; here each way it can come to an
answer is one case of a relation, so that a fact about all answers is one induction over the ways.
A rule reads what its function answers and nothing else: `ExpressionRule.reads_iff`.
-/

set_option autoImplicit false

namespace Lox.Grammar

/-- A rule that reads an expression. -/
inductive ExpressionRule where
  | assignment
  | binary (tier : Tier)
  | operand (tier : Tier)
  /-- What may follow the operands of a tier that are read so far. -/
  | chain (tier : Tier) (soFar : Expr)
  | unary
  | primary

theorem atom?_leftParen {token : Token} (opens : token.kind = .leftParen) :
    atom? token = none := by
  rw [atom?, opens]

namespace ExpressionRule

def answer (rule : ExpressionRule) (tokens : List Token) : Reply Expr :=
  match rule with
  | .assignment => (Grammar.assignment tokens).val
  | .binary tier => (Grammar.binary tier tokens).val
  | .operand tier => (Grammar.operand tier tokens).val
  | .chain tier soFar => (Grammar.binaryRest tier soFar tokens).val
  | .unary => (Grammar.unary tokens).val
  | .primary => (Grammar.primary tokens).val

/-- A rule for expressions reads tokens with an answer. -/
inductive Reads : ExpressionRule → List Token → Reply Expr → Prop where
  | overrun {rule : ExpressionRule} : Reads rule [] ⟨.error .overrun, [], []⟩
  | targetStopped {tokens rest : List Token} {halt : Halt} {errors : List SyntaxError}
      (stopped : Reads (.binary .equality) tokens ⟨.error halt, errors, rest⟩) :
      Reads .assignment tokens ⟨.error halt, errors, rest⟩
  | targetLast {tokens : List Token} {target : Expr} {errors : List SyntaxError}
      (read : Reads (.binary .equality) tokens ⟨.ok target, errors, []⟩) :
      Reads .assignment tokens ⟨.error .overrun, errors, []⟩
  | noTarget {tokens rest : List Token} {token : Token} {value : Expr}
      {errors : List SyntaxError}
      (read : Reads (.binary .equality) tokens ⟨.ok value, errors, token :: rest⟩)
      (other : token.kind ≠ .equal) :
      Reads .assignment tokens ⟨.ok value, errors, token :: rest⟩
  | valueStopped {tokens rest after : List Token} {token : Token} {target : Expr}
      {errors later : List SyntaxError} {halt : Halt}
      (read : Reads (.binary .equality) tokens ⟨.ok target, errors, token :: rest⟩)
      (equal : token.kind = .equal)
      (stopped : Reads .assignment rest ⟨.error halt, later, after⟩) :
      Reads .assignment tokens ⟨.error halt, errors ++ later, after⟩
  | assigned {tokens rest after : List Token} {token name : Token} {value : Expr}
      {errors later : List SyntaxError}
      (read : Reads (.binary .equality) tokens ⟨.ok (.var name), errors, token :: rest⟩)
      (equal : token.kind = .equal)
      (assigned : Reads .assignment rest ⟨.ok value, later, after⟩) :
      Reads .assignment tokens ⟨.ok (.assign name value), errors ++ later, after⟩
  | invalidTarget {tokens rest after : List Token} {token : Token} {target value : Expr}
      {errors later : List SyntaxError}
      (read : Reads (.binary .equality) tokens ⟨.ok target, errors, token :: rest⟩)
      (equal : token.kind = .equal) (invalid : ∀ name, target ≠ .var name)
      (assigned : Reads .assignment rest ⟨.ok value, later, after⟩) :
      Reads .assignment tokens ⟨.ok target,
        errors ++ (later ++ [⟨.invalidTarget, token, rest.length + 1⟩]), after⟩
  | operandStopped {tier : Tier} {tokens rest : List Token} {halt : Halt}
      {errors : List SyntaxError}
      (stopped : Reads (.operand tier) tokens ⟨.error halt, errors, rest⟩) :
      Reads (.binary tier) tokens ⟨.error halt, errors, rest⟩
  | operands {tier : Tier} {tokens rest : List Token} {first : Expr}
      {errors : List SyntaxError} {reply : Reply Expr}
      (read : Reads (.operand tier) tokens ⟨.ok first, errors, rest⟩)
      (more : Reads (.chain tier first) rest reply) :
      Reads (.binary tier) tokens (reply.follow errors)
  | tighter {tier next : Tier} {tokens : List Token} {reply : Reply Expr}
      (tighter : tier.tighter? = some next) (read : Reads (.binary next) tokens reply) :
      Reads (.operand tier) tokens reply
  | tightest {tier : Tier} {tokens : List Token} {reply : Reply Expr}
      (tightest : tier.tighter? = none) (read : Reads .unary tokens reply) :
      Reads (.operand tier) tokens reply
  | chainEnd {tier : Tier} {soFar : Expr} {token : Token} {rest : List Token}
      (other : token.kind ∉ tier.operators) :
      Reads (.chain tier soFar) (token :: rest) ⟨.ok soFar, [], token :: rest⟩
  | chainStopped {tier : Tier} {soFar : Expr} {token : Token} {rest after : List Token}
      {halt : Halt} {errors : List SyntaxError}
      (operator : token.kind ∈ tier.operators)
      (stopped : Reads (.operand tier) rest ⟨.error halt, errors, after⟩) :
      Reads (.chain tier soFar) (token :: rest) ⟨.error halt, errors, after⟩
  | chainNext {tier : Tier} {soFar right : Expr} {token : Token} {rest after : List Token}
      {errors : List SyntaxError} {reply : Reply Expr}
      (operator : token.kind ∈ tier.operators)
      (read : Reads (.operand tier) rest ⟨.ok right, errors, after⟩)
      (more : Reads (.chain tier (.binary soFar token right)) after reply) :
      Reads (.chain tier soFar) (token :: rest) (reply.follow errors)
  | operator {token : Token} {rest : List Token} {reply : Reply Expr}
      (operator : token.kind ∈ unaryOperators) (read : Reads .unary rest reply) :
      Reads .unary (token :: rest) (reply.map (.unary token))
  | noOperator {token : Token} {rest : List Token} {reply : Reply Expr}
      (other : token.kind ∉ unaryOperators) (read : Reads .primary (token :: rest) reply) :
      Reads .unary (token :: rest) reply
  | atom {token : Token} {rest : List Token} {atom : Expr} (stands : atom? token = some atom) :
      Reads .primary (token :: rest) ⟨.ok atom, [], rest⟩
  | innerStopped {token : Token} {rest after : List Token} {halt : Halt}
      {errors : List SyntaxError} (opens : token.kind = .leftParen)
      (stopped : Reads .assignment rest ⟨.error halt, errors, after⟩) :
      Reads .primary (token :: rest) ⟨.error halt, errors, after⟩
  | group {token : Token} {rest after : List Token} {inner : Expr}
      {errors : List SyntaxError} (opens : token.kind = .leftParen)
      (read : Reads .assignment rest ⟨.ok inner, errors, after⟩) :
      Reads .primary (token :: rest)
        (((expect .rightParen .closingParenExpected after).val.val.map fun _ =>
          .group inner).follow errors)
  | refused {token : Token} {rest : List Token} (none : atom? token = none)
      (other : token.kind ≠ .leftParen) :
      Reads .primary (token :: rest)
        ⟨.error (.refused ⟨.expressionExpected, token, rest.length + 1⟩),
          [⟨.expressionExpected, token, rest.length + 1⟩], token :: rest⟩

theorem reads_assignment (tokens : List Token)
    (first : Reads (.binary .equality) tokens (answer (.binary .equality) tokens))
    (second : ∀ token rest, token :: rest <:+ tokens →
      Reads .assignment rest (answer .assignment rest)) :
    Reads .assignment tokens (answer .assignment tokens) := by
  rw [answer] at first
  rw [answer, Grammar.assignment]
  rcases ReplyTo.andThen_cases (Grammar.binary .equality tokens) _ with
    ⟨halt, errors, rest, stopped, same⟩ | ⟨target, errors, rest, left, went, same⟩
  · rw [same]
    rw [stopped] at first
    exact .targetStopped first
  · rw [same]
    rw [went] at first
    match rest with
    | [] =>
        rw [ReplyTo.overrun, Reply.follow, List.append_nil]
        exact .targetLast first
    | token :: rest =>
        have value := second token rest left
        rw [answer] at value
        by_cases equal : token.kind = .equal
        · simp only [equal, ↓reduceIte, ReplyTo.after]
          rcases ReplyTo.andThen_cases (Grammar.assignment rest) _ with
            ⟨halt, later, after, stopped, same⟩ | ⟨result, later, after, left, went, same⟩
          · rw [same]
            rw [stopped] at value
            exact .valueStopped first equal value
          · rw [same]
            rw [went] at value
            split
            · simpa [ReplyTo.accept, Reply.follow] using .assigned first equal value
            · rename_i invalid
              exact .invalidTarget first equal invalid value
        · simp only [equal, ↓reduceIte, ReplyTo.accept, Reply.follow, List.append_nil]
          exact .noTarget first equal

theorem reads_binary (tier : Tier) (tokens : List Token)
    (first : Reads (.operand tier) tokens (answer (.operand tier) tokens))
    (second : ∀ soFar rest, rest <:+ tokens →
      Reads (.chain tier soFar) rest (answer (.chain tier soFar) rest)) :
    Reads (.binary tier) tokens (answer (.binary tier) tokens) := by
  rw [answer] at first
  rw [answer, Grammar.binary]
  rcases ReplyTo.andThen_cases (Grammar.operand tier tokens) _ with
    ⟨halt, errors, rest, stopped, same⟩ | ⟨soFar, errors, rest, left, went, same⟩
  · rw [same]
    rw [stopped] at first
    exact .operandStopped first
  · rw [same]
    rw [went] at first
    exact .operands first (second soFar rest left)

theorem reads_chainNext (tier : Tier) (soFar : Expr) (token : Token) (rest : List Token)
    (operator : token.kind ∈ tier.operators)
    (first : Reads (.operand tier) rest (answer (.operand tier) rest))
    (second : ∀ right after, after <:+ rest →
      Reads (.chain tier (.binary soFar token right)) after
        (answer (.chain tier (.binary soFar token right)) after)) :
    Reads (.chain tier soFar) (token :: rest) (answer (.chain tier soFar) (token :: rest)) := by
  rw [answer] at first
  simp only [answer, Grammar.binaryRest, operator, ↓reduceIte, ReplyTo.after]
  rcases ReplyTo.andThen_cases (Grammar.operand tier rest) _ with
    ⟨halt, errors, after, stopped, same⟩ | ⟨right, errors, after, left, went, same⟩
  · rw [same]
    rw [stopped] at first
    exact .chainStopped operator first
  · rw [same]
    rw [went] at first
    exact .chainNext operator first (second right after left)

theorem reads_group (token : Token) (rest : List Token) (none : atom? token = none)
    (opens : token.kind = .leftParen)
    (first : Reads .assignment rest (answer .assignment rest)) :
    Reads .primary (token :: rest) (answer .primary (token :: rest)) := by
  rw [answer] at first
  simp only [answer, Grammar.primary, none, opens, ↓reduceIte, ReplyTo.after]
  rcases ReplyTo.andThen_cases (Grammar.assignment rest) _ with
    ⟨halt, errors, after, stopped, same⟩ | ⟨inner, errors, after, left, went, same⟩
  · rw [same]
    rw [stopped] at first
    exact .innerStopped opens first
  · rw [same]
    rw [went] at first
    exact .group opens first

/-- Every answer of a rule for expressions comes about in one of the ways. -/
theorem reads_answer (rule : ExpressionRule) (tokens : List Token) :
    rule.Reads tokens (rule.answer tokens) := by
  have all := Grammar.assignment.mutual_induct
    (fun tokens => Reads .assignment tokens (answer .assignment tokens))
    (fun tier tokens => Reads (.binary tier) tokens (answer (.binary tier) tokens))
    (fun tier soFar tokens =>
      Reads (.chain tier soFar) tokens (answer (.chain tier soFar) tokens))
    (fun tier tokens => Reads (.operand tier) tokens (answer (.operand tier) tokens))
    (fun tokens => Reads .unary tokens (answer .unary tokens))
    (fun tokens => Reads .primary tokens (answer .primary tokens))
    reads_assignment reads_binary
    (fun tier soFar => by
      rw [answer, Grammar.binaryRest]
      exact .overrun)
    reads_chainNext
    (fun tier soFar token rest other => by
      simp only [answer, Grammar.binaryRest, other, ↓reduceIte, ReplyTo.accept]
      exact .chainEnd other)
    (fun tier tokens next tighter ih => by
      rw [answer, Grammar.operand]
      split
      · rename_i found
        obtain rfl := Option.some.inj (tighter.symm.trans found)
        exact .tighter tighter ih
      · rename_i found
        cases tighter.symm.trans found)
    (fun tier tokens tightest ih => by
      rw [answer, Grammar.operand]
      split
      · rename_i found
        cases tightest.symm.trans found
      · exact .tightest tightest ih)
    (by
      rw [answer, Grammar.unary]
      exact .overrun)
    (fun token rest operator ih => by
      simp only [answer, Grammar.unary, operator, ↓reduceIte, ReplyTo.after]
      exact .operator operator ih)
    (fun token rest other ih => by
      simp only [answer, Grammar.unary, other, ↓reduceIte]
      exact .noOperator other ih)
    (by
      rw [answer, Grammar.primary]
      exact .overrun)
    (fun token rest atom stands => by
      simp only [answer, Grammar.primary, stands, ReplyTo.after, ReplyTo.accept]
      exact .atom stands)
    reads_group
    (fun token rest none other => by
      simp only [answer, Grammar.primary, none, other, ↓reduceIte, ReplyTo.refuse]
      exact .refused none other)
  obtain ⟨assignment, binary, chain, operand, unary, primary⟩ := all
  cases rule with
  | assignment => exact assignment tokens
  | binary tier => exact binary tier tokens
  | operand tier => exact operand tier tokens
  | chain tier soFar => exact chain tier soFar tokens
  | unary => exact unary tokens
  | primary => exact primary tokens

theorem unary_nil : (Grammar.unary []).val = ⟨.error .overrun, [], []⟩ := by
  rw [Grammar.unary]
  rfl

/-- Tiers lead one to the next until there is an operand, which needs a token. -/
theorem binary_nil (tier : Tier) :
    (Grammar.operand tier []).val = ⟨.error .overrun, [], []⟩ ∧
      (Grammar.binary tier []).val = ⟨.error .overrun, [], []⟩ := by
  have stops (tier : Tier) (none : (Grammar.operand tier []).val = ⟨.error .overrun, [], []⟩) :
      (Grammar.binary tier []).val = ⟨.error .overrun, [], []⟩ := by
    rw [Grammar.binary]
    exact ReplyTo.andThen_of_error _ _ none
  have multiplication : (Grammar.operand .multiplication []).val = ⟨.error .overrun, [], []⟩ := by
    rw [Grammar.operand]
    exact unary_nil
  have addition : (Grammar.operand .addition []).val = ⟨.error .overrun, [], []⟩ := by
    rw [Grammar.operand]
    exact stops _ multiplication
  have comparison : (Grammar.operand .comparison []).val = ⟨.error .overrun, [], []⟩ := by
    rw [Grammar.operand]
    exact stops _ addition
  have equality : (Grammar.operand .equality []).val = ⟨.error .overrun, [], []⟩ := by
    rw [Grammar.operand]
    exact stops _ comparison
  cases tier with
  | equality => exact ⟨equality, stops _ equality⟩
  | comparison => exact ⟨comparison, stops _ comparison⟩
  | addition => exact ⟨addition, stops _ addition⟩
  | multiplication => exact ⟨multiplication, stops _ multiplication⟩

theorem answer_nil (rule : ExpressionRule) : rule.answer [] = ⟨.error .overrun, [], []⟩ := by
  cases rule with
  | assignment =>
      rw [answer, Grammar.assignment]
      exact ReplyTo.andThen_of_error _ _ (binary_nil .equality).2
  | binary tier => exact (binary_nil tier).2
  | operand tier => exact (binary_nil tier).1
  | chain tier soFar =>
      rw [answer, Grammar.binaryRest]
      rfl
  | unary => exact unary_nil
  | primary =>
      rw [answer, Grammar.primary]
      rfl

/-- No way leads to anything but the answer. -/
theorem Reads.answer_eq {rule : ExpressionRule} {tokens : List Token} {reply : Reply Expr}
    (reads : rule.Reads tokens reply) : rule.answer tokens = reply := by
  induction reads with
  | overrun => exact answer_nil _
  | targetStopped stopped ih =>
      rw [answer, Grammar.assignment]
      exact ReplyTo.andThen_of_error _ _ ih
  | targetLast read ih =>
      rw [answer, Grammar.assignment]
      obtain ⟨left, same⟩ := ReplyTo.andThen_of_ok (Grammar.binary .equality _) _ ih
      rw [same]
      simp only [ReplyTo.overrun, Reply.follow, List.append_nil]
  | noTarget read other ih =>
      rw [answer, Grammar.assignment]
      obtain ⟨left, same⟩ := ReplyTo.andThen_of_ok (Grammar.binary .equality _) _ ih
      rw [same]
      simp only [other, ↓reduceIte, ReplyTo.accept, Reply.follow, List.append_nil]
  | valueStopped read equal stopped first second =>
      rw [answer, Grammar.assignment]
      obtain ⟨left, same⟩ := ReplyTo.andThen_of_ok (Grammar.binary .equality _) _ first
      rw [same]
      simp only [equal, ↓reduceIte, ReplyTo.after]
      rw [ReplyTo.andThen_of_error _ _ second, Reply.follow]
  | assigned read equal assigned first second =>
      rw [answer, Grammar.assignment]
      obtain ⟨left, same⟩ := ReplyTo.andThen_of_ok (Grammar.binary .equality _) _ first
      rw [same]
      simp only [equal, ↓reduceIte, ReplyTo.after]
      obtain ⟨left, same⟩ := ReplyTo.andThen_of_ok (Grammar.assignment _) _ second
      rw [same]
      simp only [ReplyTo.accept, Reply.follow, List.append_nil]
  | invalidTarget read equal invalid assigned first second =>
      rw [answer, Grammar.assignment]
      obtain ⟨left, same⟩ := ReplyTo.andThen_of_ok (Grammar.binary .equality _) _ first
      rw [same]
      simp only [equal, ↓reduceIte, ReplyTo.after]
      obtain ⟨left, same⟩ := ReplyTo.andThen_of_ok (Grammar.assignment _) _ second
      rw [same]
      simp only [ReplyTo.accept, ReplyTo.record, Reply.follow]
  | operandStopped stopped ih =>
      rw [answer, Grammar.binary]
      exact ReplyTo.andThen_of_error _ _ ih
  | operands read more first second =>
      rw [answer, Grammar.binary]
      obtain ⟨left, same⟩ := ReplyTo.andThen_of_ok (Grammar.operand _ _) _ first
      rw [same]
      exact congrArg _ second
  | tighter tighter read ih =>
      rw [answer, Grammar.operand]
      split
      · rename_i found
        obtain rfl := Option.some.inj (tighter.symm.trans found)
        exact ih
      · rename_i found
        cases tighter.symm.trans found
  | tightest tightest read ih =>
      rw [answer, Grammar.operand]
      split
      · rename_i found
        cases tightest.symm.trans found
      · exact ih
  | chainEnd other =>
      simp only [answer, Grammar.binaryRest, other, ↓reduceIte, ReplyTo.accept]
  | chainStopped operator stopped ih =>
      simp only [answer, Grammar.binaryRest, operator, ↓reduceIte, ReplyTo.after]
      exact ReplyTo.andThen_of_error _ _ ih
  | chainNext operator read more first second =>
      simp only [answer, Grammar.binaryRest, operator, ↓reduceIte, ReplyTo.after]
      obtain ⟨left, same⟩ := ReplyTo.andThen_of_ok (Grammar.operand _ _) _ first
      rw [same]
      exact congrArg _ second
  | operator operator read ih =>
      simp only [answer, Grammar.unary, operator, ↓reduceIte, ReplyTo.after]
      exact congrArg (Reply.map _) ih
  | noOperator other read ih =>
      simp only [answer, Grammar.unary, other, ↓reduceIte]
      exact ih
  | atom stands =>
      simp only [answer, Grammar.primary, stands, ReplyTo.after, ReplyTo.accept]
  | innerStopped opens stopped ih =>
      have none := atom?_leftParen opens
      simp only [answer, Grammar.primary, none, opens, ↓reduceIte, ReplyTo.after]
      exact ReplyTo.andThen_of_error _ _ ih
  | group opens read ih =>
      have none := atom?_leftParen opens
      simp only [answer, Grammar.primary, none, opens, ↓reduceIte, ReplyTo.after]
      obtain ⟨left, same⟩ := ReplyTo.andThen_of_ok (Grammar.assignment _) _ ih
      rw [same]
      rfl
  | refused none other =>
      simp only [answer, Grammar.primary, none, other, ↓reduceIte, ReplyTo.refuse]

theorem reads_iff {rule : ExpressionRule} {tokens : List Token} {reply : Reply Expr} :
    rule.Reads tokens reply ↔ rule.answer tokens = reply := by
  constructor
  · exact Reads.answer_eq
  · rintro rfl
    exact reads_answer rule tokens

end ExpressionRule

end Lox.Grammar
