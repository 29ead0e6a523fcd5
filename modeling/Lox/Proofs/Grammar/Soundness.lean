import Lox.Proofs.Grammar.Derivation
import Lox.Proofs.Grammar.Halting

/-!
What is read is derived. Whatever errors a rule recovers from, the tree it answers with is that of a
derivation, whose tokens are among those used up and in their order; without an error they are all
of them. So a tree that is read has the shape the grammar gives it, also where the tokens do not.
-/

set_option autoImplicit false

namespace Lox.Grammar

namespace Derivation

theorem chain_tree_var {tier : Tier} (chain : Derivation (.chain tier)) (soFar : Expr)
    (name : Token) (found : chain.tree soFar = .var name) :
    chain.tokens = [] ∧ soFar = .var name := by
  match chain with
  | .chainEnd => exact ⟨rfl, found⟩
  | .chainNext operator right rest _ =>
      obtain ⟨-, impossible⟩ := rest.chain_tree_var _ name found
      cases impossible

mutual

theorem binary_tree_var {tier : Tier} (derivation : Derivation (.binary tier)) (name : Token)
    (found : derivation.tree = .var name) :
    derivation.tokens = [name] ∧ name.kind = .identifier := by
  match derivation with
  | .binary first rest =>
      obtain ⟨nothing, operand⟩ := rest.chain_tree_var _ name found
      obtain ⟨same, named⟩ := first.operand_tree_var name operand
      refine ⟨?_, named⟩
      rw [tokens, same, nothing, List.append_nil]

theorem operand_tree_var {tier : Tier} (derivation : Derivation (.operand tier)) (name : Token)
    (found : derivation.tree = .var name) :
    derivation.tokens = [name] ∧ name.kind = .identifier := by
  match derivation with
  | .tighter operand _ => exact operand.binary_tree_var name found
  | .tightest operand => exact operand.unary_tree_var name found

theorem unary_tree_var (derivation : Derivation .unary) (name : Token)
    (found : derivation.tree = .var name) :
    derivation.tokens = [name] ∧ name.kind = .identifier := by
  match derivation with
  | .unary _ _ _ => cases found
  | .primary (.group _ _ _ _ _) => cases found
  | .primary (.atom token tree stands) =>
      obtain rfl : tree = .var name := found
      cases stands with
      | name named => exact ⟨rfl, named⟩

end

end Derivation

/-- Some tokens are derived from a symbol and stand for a tree. -/
def Symbol.Derives (symbol : Symbol) (tree : symbol.Tree) (tokens : List Token) : Prop :=
  ∃ derivation : Derivation symbol, derivation.tree = tree ∧ derivation.tokens = tokens

/-- Of the tokens in front of `rest` a part has a property; without an error it is all of them. -/
def Keeps (property : List Token → Prop) (tokens : List Token) (errors : List SyntaxError)
    (rest : List Token) : Prop :=
  ∃ used kept, tokens = used ++ rest ∧ kept.Sublist used ∧ (errors = [] → kept = used) ∧
    property kept

namespace Keeps

variable {property other : List Token → Prop} {tokens rest after : List Token}
  {errors later : List SyntaxError}

theorem imp (keeps : Keeps property tokens errors rest)
    (weaker : ∀ kept, property kept → other kept) : Keeps other tokens errors rest := by
  obtain ⟨used, kept, same, sublist, all, holds⟩ := keeps
  exact ⟨used, kept, same, sublist, all, weaker kept holds⟩

theorem nothing (holds : property []) : Keeps property tokens [] tokens :=
  ⟨[], [], rfl, List.Sublist.refl [], fun _ => rfl, holds⟩

theorem single (token : Token) (rest : List Token) :
    Keeps (fun kept => kept = [token]) (token :: rest) [] rest :=
  ⟨[token], [token], rfl, List.Sublist.refl [token], fun _ => rfl, rfl⟩

theorem cons (token : Token) (keeps : Keeps property tokens errors rest) :
    Keeps (fun kept => ∃ tail, kept = token :: tail ∧ property tail) (token :: tokens) errors
      rest := by
  obtain ⟨used, kept, rfl, sublist, all, holds⟩ := keeps
  refine ⟨token :: used, token :: kept, rfl, sublist.cons_cons token, ?_, kept, rfl, holds⟩
  intro none
  rw [all none]

theorem append (first : Keeps property tokens errors rest) (second : Keeps other rest later after) :
    Keeps (fun kept => ∃ front back, kept = front ++ back ∧ property front ∧ other back) tokens
      (errors ++ later) after := by
  obtain ⟨used, kept, rfl, sublist, all, holds⟩ := first
  obtain ⟨more, also, rfl, sublist', all', holds'⟩ := second
  refine ⟨used ++ more, kept ++ also, ?_, sublist.append sublist', ?_, kept, also, rfl, holds,
    holds'⟩
  · rw [List.append_assoc]
  · intro none
    rw [List.append_eq_nil_iff] at none
    rw [all none.1, all' none.2]

/-- With an error, tokens that are used up need not be kept. -/
theorem skip (first : Keeps property tokens errors rest) (left : after <:+ rest)
    (wrong : later ≠ []) : Keeps property tokens later after := by
  obtain ⟨used, kept, rfl, sublist, -, holds⟩ := first
  obtain ⟨skipped, rfl⟩ := left
  refine ⟨used ++ skipped, kept, ?_, sublist.trans (List.sublist_append_left used skipped),
    fun none => absurd none wrong, holds⟩
  rw [List.append_assoc]

end Keeps

theorem Reply.ok_of_map {α β : Type} {reply : Reply α} {f : α → β} {result : β}
    (went : (reply.map f).outcome = .ok result) : ∃ found, reply.outcome = .ok found ∧
      f found = result := by
  rw [Reply.map] at went
  cases outcome : reply.outcome with
  | ok found =>
      rw [outcome] at went
      exact ⟨found, rfl, Except.ok.inj went⟩
  | error halt =>
      rw [outcome] at went
      cases went

theorem expect_ok {kind : Token.Kind} {cause : SyntaxError.Cause} {tokens : List Token}
    {token : Token} (went : (expect kind cause tokens).val.val.outcome = .ok token) :
    token.kind = kind ∧ (expect kind cause tokens).val.val.errors = [] ∧
      tokens = token :: (expect kind cause tokens).val.val.rest := by
  match tokens with
  | [] => cases went
  | ahead :: rest =>
      rcases expect_cases kind cause ahead rest with ⟨same, -, found⟩ | ⟨-, found⟩
      · rw [found] at went ⊢
        obtain rfl : ahead = token := Except.ok.inj went
        exact ⟨same, rfl, rfl⟩
      · rw [found] at went
        cases went

theorem expect_keeps {kind : Token.Kind} {cause : SyntaxError.Cause} {tokens : List Token}
    {token : Token} (went : (expect kind cause tokens).val.val.outcome = .ok token) :
    token.kind = kind ∧ Keeps (fun kept => kept = [token]) tokens
      (expect kind cause tokens).val.val.errors (expect kind cause tokens).val.val.rest := by
  obtain ⟨same, quiet, ahead⟩ := expect_ok went
  have used := Keeps.single token (expect kind cause tokens).val.val.rest
  rw [← ahead] at used
  rw [quiet]
  exact ⟨same, used⟩

theorem standsFor_of_atom? {token : Token} {atom : Expr} (stands : atom? token = some atom) :
    StandsFor token atom := by
  rw [atom?] at stands
  split at stands
  · obtain rfl := Option.some.inj stands
    exact .falseWord ‹_›
  · obtain rfl := Option.some.inj stands
    exact .trueWord ‹_›
  · obtain rfl := Option.some.inj stands
    exact .nilWord ‹_›
  · obtain rfl := Option.some.inj stands
    exact .number ‹_›
  · obtain rfl := Option.some.inj stands
    exact .string ‹_›
  · obtain rfl := Option.some.inj stands
    exact .name ‹_›
  · cases stands

namespace ExpressionRule

/-- The tokens that a rule reads as a tree are derived from the symbol of the rule. -/
def Derives (rule : ExpressionRule) (tree : Expr) (tokens : List Token) : Prop :=
  match rule with
  | .assignment => Symbol.assignment.Derives tree tokens
  | .binary tier => (Symbol.binary tier).Derives tree tokens
  | .operand tier => (Symbol.operand tier).Derives tree tokens
  | .chain tier soFar =>
    ∃ chain : Derivation (.chain tier), chain.tree soFar = tree ∧ chain.tokens = tokens
  | .unary => Symbol.unary.Derives tree tokens
  | .primary => Symbol.primary.Derives tree tokens

/-- The induction is on the way through the rule. A target that is refused is kept alone: its
error is recorded. -/
theorem Reads.keeps {rule : ExpressionRule} {tokens : List Token} {reply : Reply Expr}
    (reads : rule.Reads tokens reply) (tree : Expr) (went : reply.outcome = .ok tree) :
    Keeps (rule.Derives tree) tokens reply.errors reply.rest := by
  induction reads generalizing tree with
  | overrun => cases went
  | targetStopped stopped ih => cases went
  | targetLast read ih => cases went
  | noTarget read other ih =>
      apply (ih tree went).imp
      rintro kept ⟨derivation, same, derived⟩
      exact ⟨.equality derivation, same, derived⟩
  | valueStopped read equal stopped first second => cases went
  | assigned read equal assigned first second =>
      obtain rfl := Except.ok.inj went
      apply ((first _ rfl).append ((second _ rfl).cons _)).imp
      rintro kept ⟨front, back, rfl, ⟨target, found, rfl⟩, tail, rfl, value, rfl, rfl⟩
      obtain ⟨same, named⟩ := target.binary_tree_var _ found
      refine ⟨.assign _ _ value named equal, rfl, ?_⟩
      rw [same]
      rfl
  | invalidTarget read equal invalid assigned first second =>
      have target := first tree went
      have value := (second _ rfl)
      apply (target.skip ?_ ?_).imp
      · rintro kept ⟨derivation, same, derived⟩
        exact ⟨.equality derivation, same, derived⟩
      · obtain ⟨used, -, same, -⟩ := value
        exact ⟨_ :: used, by rw [List.cons_append, ← same]⟩
      · simp
  | operandStopped stopped ih => cases went
  | operands read more first second =>
      apply ((first _ rfl).append (second tree went)).imp
      rintro kept ⟨front, back, rfl, ⟨operand, rfl, rfl⟩, chain, same, rfl⟩
      exact ⟨.binary operand chain, same, rfl⟩
  | tighter tighter read ih =>
      apply (ih tree went).imp
      rintro kept ⟨operand, same, derived⟩
      exact ⟨.tighter operand (Tier.hasOperands_iff.2 tighter), same, derived⟩
  | @tightest tier tokens reply tightest read ih =>
      obtain rfl : tier = .multiplication := by
        cases tier <;> first | rfl | cases tightest
      apply (ih tree went).imp
      rintro kept ⟨operand, same, derived⟩
      exact ⟨.tightest operand, same, derived⟩
  | chainEnd other =>
      apply Keeps.nothing
      exact ⟨.chainEnd, Except.ok.inj went, rfl⟩
  | chainStopped operator stopped ih => cases went
  | chainNext operator read more first second =>
      apply (((first _ rfl).append (second tree went)).cons _).imp
      rintro kept ⟨tail, rfl, front, back, rfl, ⟨right, rfl, rfl⟩, chain, same, rfl⟩
      exact ⟨.chainNext _ right chain (Tier.hasOperator_iff.2 operator), same, rfl⟩
  | operator operator read ih =>
      obtain ⟨inner, inside, rfl⟩ := Reply.ok_of_map went
      apply ((ih inner inside).cons _).imp
      rintro kept ⟨tail, rfl, operand, rfl, rfl⟩
      exact ⟨.unary _ operand (isUnaryOperator_iff.2 operator), rfl, rfl⟩
  | noOperator other read ih =>
      apply (ih tree went).imp
      rintro kept ⟨operand, same, derived⟩
      exact ⟨.primary operand, same, derived⟩
  | atom stands =>
      obtain rfl := Except.ok.inj went
      apply (Keeps.single _ _).imp
      rintro kept rfl
      exact ⟨.atom _ _ (standsFor_of_atom? stands), rfl, rfl⟩
  | innerStopped opens stopped ih => cases went
  | group opens read ih =>
      obtain ⟨token, closed, rfl⟩ := Reply.ok_of_map went
      obtain ⟨closes, closing⟩ := expect_keeps closed
      apply (((ih _ rfl).append closing).cons _).imp
      rintro kept ⟨tail, rfl, front, back, rfl, ⟨inner, rfl, rfl⟩, rfl⟩
      exact ⟨.group _ inner token opens closes, rfl, rfl⟩
  | refused none other => cases went

end ExpressionRule

namespace Derivation

/-- Declarations after others. -/
def append : Derivation .declarations → Derivation .declarations → Derivation .declarations
  | .nothing, more => more
  | .next first rest, more => .next first (rest.append more)

theorem tokens_append (first more : Derivation .declarations) :
    (first.append more).tokens = first.tokens ++ more.tokens := by
  match first with
  | .nothing => rw [append, tokens, List.nil_append]
  | .next head tail => rw [append, tokens, tokens, tokens_append tail more, List.append_assoc]

theorem tree_append (first more : Derivation .declarations) :
    (first.append more).tree = first.tree ++ more.tree := by
  match first with
  | .nothing => rw [append, tree, List.nil_append]
  | .next head tail => rw [append, tree, tree, tree_append tail more, List.cons_append]

end Derivation

theorem ReadsTerminated.keeps {cause : SyntaxError.Cause} {build : Expr → Stmt}
    {tokens : List Token} {reply : Reply Stmt} (reads : ReadsTerminated cause build tokens reply)
    {statement : Stmt} (went : reply.outcome = .ok statement) :
    Keeps (fun kept => ∃ (value : Derivation .assignment) (semicolon : Token),
      semicolon.kind = .semicolon ∧ build value.tree = statement ∧
        value.tokens ++ [semicolon] = kept) tokens reply.errors reply.rest := by
  cases reads with
  | stopped stopped => cases went
  | read read =>
      obtain ⟨semicolon, closed, rfl⟩ := Reply.ok_of_map went
      obtain ⟨closes, closing⟩ := expect_keeps closed
      apply ((read.keeps _ rfl).append closing).imp
      rintro kept ⟨front, back, rfl, ⟨value, rfl, rfl⟩, rfl⟩
      exact ⟨value, semicolon, closes, rfl, rfl⟩

theorem ReadsVariable.keeps {tokens : List Token} {reply : Reply Stmt}
    (reads : ReadsVariable tokens reply) {statement : Stmt}
    (went : reply.outcome = .ok statement) {word : Token} (isWord : word.kind = .varWord) :
    Keeps (fun kept => Symbol.declaration.Derives statement (word :: kept)) tokens reply.errors
      reply.rest := by
  cases reads with
  | overrun => cases went
  | noName other => cases went
  | nameLast named => cases went
  | initial named equal read =>
      apply (((read.keeps went).cons _).cons _).imp
      rintro kept ⟨tail, rfl, later, rfl, value, semicolon, closes, rfl, rfl⟩
      exact ⟨.initialized word _ _ value semicolon isWord named equal closes, rfl, rfl⟩
  | noInitial named other =>
      obtain ⟨semicolon, closed, rfl⟩ := Reply.ok_of_map went
      obtain ⟨closes, closing⟩ := expect_keeps closed
      apply (closing.cons _).imp
      rintro kept ⟨tail, rfl, rfl⟩
      exact ⟨.variable word _ semicolon isWord named closes, rfl, rfl⟩

namespace StatementRule

/-- The tokens that a rule reads as a result are derived. A block is read with the brace that
closes it. -/
def Derives (rule : StatementRule) (result : rule.Result) (tokens : List Token) : Prop :=
  match rule with
  | .attempt => Symbol.declaration.Derives result tokens
  | .declaration => Symbol.declarations.Derives result.toList tokens
  | .statement => Symbol.declaration.Derives result tokens
  | .block => ∃ body right, right.kind = .rightBrace ∧ body ++ [right] = tokens ∧
    Symbol.declarations.Derives result body
  | .program => Symbol.declarations.Derives result tokens

theorem answer_left (rule : StatementRule) (tokens : List Token) :
    (rule.answer tokens).rest <:+ tokens := by
  cases rule with
  | attempt =>
      obtain ⟨reply, same, -⟩ := declaration_cases tokens
      rw [← same]
      exact reply.val.property
  | declaration => exact (Grammar.declaration tokens).val.property
  | statement => exact (Grammar.statement tokens).val.property
  | block => exact (Grammar.block tokens).property
  | program => exact (Grammar.program tokens).property

theorem Reads.left {rule : StatementRule} {tokens : List Token} {reply : Reply rule.Result}
    (reads : rule.Reads tokens reply) : reply.rest <:+ tokens := by
  rw [← reads.answer_eq]
  exact rule.answer_left tokens

/-- A declaration that is recovered from is left out; its error is recorded. -/
theorem Reads.keeps {rule : StatementRule} {tokens : List Token} {reply : Reply rule.Result}
    (reads : rule.Reads tokens reply) (result : rule.Result)
    (went : reply.outcome = .ok result) :
    Keeps (rule.Derives result) tokens reply.errors reply.rest := by
  induction reads with
  | overrun => cases went
  | variableWord word read =>
      apply ((read.keeps went word).cons _).imp
      rintro kept ⟨tail, rfl, derives⟩
      exact derives
  | otherWord other read ih => exact ih result went
  | declared read ih =>
      obtain rfl := Except.ok.inj went
      apply (ih _ rfl).imp
      rintro kept ⟨derivation, rfl, rfl⟩
      exact ⟨.next derivation .nothing, rfl, List.append_nil _⟩
  | attemptOverrun stopped ih => cases went
  | recovered stopped ih =>
      obtain ⟨_, skipped, rfl⟩ := Reply.ok_of_map went
      obtain ⟨⟨earlier, recorded⟩, -⟩ := stopped.refusesAhead _ rfl
      apply Keeps.skip (Keeps.nothing ⟨.nothing, rfl, rfl⟩)
      · exact (synchronize _).property.trans stopped.left
      · dsimp only at recorded
        rw [Reply.follow, recorded]
        simp
  | print word read =>
      apply ((read.keeps went).cons _).imp
      rintro kept ⟨tail, rfl, value, semicolon, closes, rfl, rfl⟩
      exact ⟨.print _ value semicolon word closes, rfl, rfl⟩
  | braces opens read ih =>
      obtain ⟨body, inside, rfl⟩ := Reply.ok_of_map went
      apply ((ih body inside).cons _).imp
      rintro kept ⟨tail, rfl, inner, right, closes, rfl, statements, rfl, rfl⟩
      exact ⟨.block _ statements right opens closes, rfl, rfl⟩
  | expression noPrint noBlock read =>
      apply (read.keeps went).imp
      rintro kept ⟨value, semicolon, closes, rfl, rfl⟩
      exact ⟨.expression value semicolon closes, rfl, rfl⟩
  | blockEnd closes =>
      obtain rfl := Except.ok.inj went
      apply (Keeps.single _ _).imp
      rintro kept rfl
      exact ⟨[], _, closes, rfl, .nothing, rfl, rfl⟩
  | unclosed isEnd => cases went
  | blockStopped stillOpen other stopped ih => cases went
  | blockNext stillOpen other read more first second =>
      obtain ⟨later, inside, rfl⟩ := Reply.ok_of_map went
      apply ((first _ rfl).append (second later inside)).imp
      rintro kept ⟨front, back, rfl, ⟨head, tree, rfl⟩, inner, right, closes, rfl, tail, rfl, rfl⟩
      refine ⟨head.tokens ++ tail.tokens, right, closes, ?_, head.append tail, ?_, ?_⟩
      · rw [List.append_assoc]
      · rw [head.tree_append, tree]
      · exact head.tokens_append tail
  | programEnd isEnd =>
      obtain rfl := Except.ok.inj went
      exact Keeps.nothing ⟨.nothing, rfl, rfl⟩
  | programStopped other stopped ih => cases went
  | programNext other read more first second =>
      obtain ⟨later, inside, rfl⟩ := Reply.ok_of_map went
      apply ((first _ rfl).append (second later inside)).imp
      rintro kept ⟨front, back, rfl, ⟨head, tree, rfl⟩, tail, rfl, rfl⟩
      refine ⟨head.append tail, ?_, head.tokens_append tail⟩
      rw [head.tree_append, tree]

end StatementRule

end Lox.Grammar
