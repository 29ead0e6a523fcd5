import Lox.Proofs.Grammar.Derivation

/-!
One token of lookahead settles how a derivation goes on, so no tokens have two derivations:
`Derivation.unique_of_append`. What comes after a derivation must not go on with it, which is no
more than one token of the end of the input says.
-/

set_option autoImplicit false

namespace Lox.Grammar

namespace Tier

theorem operators_disjoint {tier other : Tier} {kind : Token.Kind}
    (operator : kind ∈ tier.operators) (member : kind ∈ other.operators) : tier = other := by
  cases tier <;> cases other <;> first | rfl | (cases kind <;> simp [operators] at operator member)

theorem HasOperands.unique {tier first second : Tier} (operands : tier.HasOperands first)
    (others : tier.HasOperands second) : first = second := by
  cases operands <;> cases others <;> rfl

end Tier

namespace Symbol

def primaryFirsts : List Token.Kind :=
  [.number, .string, .trueWord, .falseWord, .nilWord, .identifier, .leftParen]

def expressionFirsts : List Token.Kind :=
  unaryOperators ++ primaryFirsts

def declarationFirsts : List Token.Kind :=
  [.varWord, .printWord, .leftBrace] ++ expressionFirsts

/-- The kinds that a derivation can begin with. -/
def firsts : Symbol → List Token.Kind
  | .declarations => declarationFirsts
  | .declaration => declarationFirsts
  | .assignment => expressionFirsts
  | .binary _ => expressionFirsts
  | .chain tier => tier.operators
  | .operand _ => expressionFirsts
  | .unary => expressionFirsts
  | .primary => primaryFirsts

/-- The kinds with which a derivation can be made longer. -/
def Continues (symbol : Symbol) (kind : Token.Kind) : Prop :=
  match symbol with
  | .declarations => kind ∈ declarationFirsts
  | .assignment => kind = .equal ∨ ∃ tier : Tier, kind ∈ tier.operators
  | .binary tier => ∃ inner : Tier, inner.rank ≤ tier.rank ∧ kind ∈ inner.operators
  | .chain tier => ∃ inner : Tier, inner.rank ≤ tier.rank ∧ kind ∈ inner.operators
  | .operand tier => ∃ inner : Tier, inner.rank < tier.rank ∧ kind ∈ inner.operators
  | .declaration => False
  | .unary => False
  | .primary => False

/-- A derivation ends before some tokens: there is a token, and it does not go on with it. -/
def EndsBefore (symbol : Symbol) (after : List Token) : Prop :=
  ∃ token rest, after = token :: rest ∧ ¬symbol.Continues token.kind

def IsNullable : Symbol → Prop
  | .declarations => True
  | .chain _ => True
  | _ => False

end Symbol

namespace Derivation

/-- Derived tokens begin with one of the first kinds; only a symbol that repeats another derives
no tokens. -/
theorem begins {symbol : Symbol} (derivation : Derivation symbol) :
    (∃ token rest, derivation.tokens = token :: rest ∧ token.kind ∈ symbol.firsts) ∨
      (symbol.IsNullable ∧ derivation.tokens = []) := by
  induction derivation with
  | nothing => exact Or.inr ⟨trivial, rfl⟩
  | next first rest ih _ =>
      rcases ih with ⟨token, more, same, member⟩ | ⟨nullable, -⟩
      · exact Or.inl ⟨token, more ++ rest.tokens, by rw [tokens, same]; rfl, member⟩
      · exact nullable.elim
  | «variable» word name semicolon isWord named closes =>
      exact Or.inl ⟨word, _, rfl, by rw [isWord]; decide⟩
  | initialized word name equals initial semicolon isWord named equal closes ih =>
      exact Or.inl ⟨word, _, rfl, by rw [isWord]; decide⟩
  | print word value semicolon isWord closes ih =>
      exact Or.inl ⟨word, _, rfl, by rw [isWord]; decide⟩
  | block left body right opens closes ih =>
      exact Or.inl ⟨left, _, rfl, by rw [opens]; decide⟩
  | expression value semicolon closes ih =>
      rcases ih with ⟨token, more, same, member⟩ | ⟨nullable, -⟩
      · refine Or.inl ⟨token, more ++ [semicolon], by rw [tokens, same]; rfl, ?_⟩
        exact List.mem_append_right _ member
      · exact nullable.elim
  | assign name equals value named equal ih =>
      exact Or.inl ⟨name, _, rfl, by rw [named]; decide⟩
  | equality value ih => exact ih
  | binary first rest ih _ =>
      rcases ih with ⟨token, more, same, member⟩ | ⟨nullable, -⟩
      · exact Or.inl ⟨token, more ++ rest.tokens, by rw [tokens, same]; rfl, member⟩
      · exact nullable.elim
  | chainEnd => exact Or.inr ⟨trivial, rfl⟩
  | chainNext operator right rest isOperator _ _ =>
      exact Or.inl ⟨operator, _, rfl, Tier.hasOperator_iff.1 isOperator⟩
  | tighter operand tighter ih => exact ih
  | tightest operand ih => exact ih
  | unary operator operand isOperator ih =>
      exact Or.inl ⟨operator, _, rfl, List.mem_append_left _ (isUnaryOperator_iff.1 isOperator)⟩
  | primary operand ih =>
      rcases ih with ⟨token, more, same, member⟩ | ⟨nullable, -⟩
      · exact Or.inl ⟨token, more, same, List.mem_append_right _ member⟩
      · exact nullable.elim
  | atom token tree stands =>
      refine Or.inl ⟨token, [], rfl, ?_⟩
      cases stands <;> rename_i kind <;> rw [kind] <;> decide
  | group left inner right opens closes ih =>
      exact Or.inl ⟨left, _, rfl, by rw [opens]; decide⟩

/-- The first token of what is derived, for a symbol that derives some. -/
theorem tokens_eq_cons {symbol : Symbol} (derivation : Derivation symbol)
    (some : ¬symbol.IsNullable) :
    ∃ token rest, derivation.tokens = token :: rest ∧ token.kind ∈ symbol.firsts := by
  rcases derivation.begins with found | ⟨nullable, -⟩
  · exact found
  · exact absurd nullable some

end Derivation

namespace Symbol

theorem EndsBefore.mono {outer inner : Symbol} {after : List Token}
    (less : ∀ kind, inner.Continues kind → outer.Continues kind)
    (ends : outer.EndsBefore after) : inner.EndsBefore after := by
  obtain ⟨token, rest, rfl, stops⟩ := ends
  exact ⟨token, rest, rfl, fun goesOn => stops (less token.kind goesOn)⟩

theorem EndsBefore.equality {after : List Token} (ends : assignment.EndsBefore after) :
    (binary .equality).EndsBefore after := by
  apply ends.mono
  rintro kind ⟨inner, -, operator⟩
  exact Or.inr ⟨inner, operator⟩

theorem EndsBefore.operand {tier : Tier} {after : List Token}
    (ends : (binary tier).EndsBefore after) : (Symbol.operand tier).EndsBefore after := by
  apply ends.mono
  rintro kind ⟨inner, tighter, operator⟩
  exact ⟨inner, Nat.le_of_lt tighter, operator⟩

theorem EndsBefore.tighter {tier next : Tier} {after : List Token}
    (tighter : tier.HasOperands next) (ends : (Symbol.operand tier).EndsBefore after) :
    (binary next).EndsBefore after := by
  have lower := Tier.rank_tighter (Tier.hasOperands_iff.1 tighter)
  apply ends.mono
  rintro kind ⟨inner, within, operator⟩
  exact ⟨inner, Nat.lt_of_le_of_lt within lower, operator⟩

theorem EndsBefore.unary {symbol : Symbol} {after : List Token}
    (ends : symbol.EndsBefore after) : Symbol.unary.EndsBefore after :=
  ends.mono fun _ goesOn => goesOn.elim

/-- An operator of a tier ends an operand of it: the tiers have no operators in common. -/
theorem operand_endsBefore {tier : Tier} {token : Token} (rest : List Token)
    (operator : token.kind ∈ tier.operators) : (operand tier).EndsBefore (token :: rest) := by
  refine ⟨token, rest, rfl, ?_⟩
  rintro ⟨inner, tighter, member⟩
  rw [Tier.operators_disjoint operator member] at tighter
  exact Nat.lt_irrefl _ tighter

theorem assignment_endsBefore {token : Token} (rest : List Token)
    (closes : token.kind = .semicolon ∨ token.kind = .rightParen) :
    assignment.EndsBefore (token :: rest) := by
  refine ⟨token, rest, rfl, ?_⟩
  rintro (equal | ⟨tier, operator⟩)
  · rcases closes with closes | closes <;> rw [closes] at equal <;> cases equal
  · rcases closes with closes | closes <;> rw [closes] at operator <;> revert operator <;>
      cases tier <;> decide

theorem declarations_endsBefore {token : Token} (rest : List Token)
    (closes : token.kind = .rightBrace ∨ token.isEnd) :
    declarations.EndsBefore (token :: rest) := by
  refine ⟨token, rest, rfl, ?_⟩
  intro goesOn
  change token.kind ∈ declarationFirsts at goesOn
  rcases closes with closes | closes
  · rw [closes] at goesOn
    revert goesOn
    decide
  · rw [Token.isEnd, beq_iff_eq] at closes
    rw [closes] at goesOn
    revert goesOn
    decide

/-- An equals sign ends whatever may stand before it. -/
theorem equality_endsBefore {token : Token} (rest : List Token) (equal : token.kind = .equal) :
    (binary .equality).EndsBefore (token :: rest) := by
  refine ⟨token, rest, rfl, ?_⟩
  rintro ⟨inner, -, operator⟩
  rw [equal] at operator
  revert operator
  cases inner <;> decide

end Symbol

namespace Derivation

/-- What follows an operand is an operator of its tier, or whatever follows the whole. -/
theorem operand_endsBefore {tier : Tier} (chain : Derivation (.chain tier)) {after : List Token}
    (ends : (Symbol.binary tier).EndsBefore after) :
    (Symbol.operand tier).EndsBefore (chain.tokens ++ after) := by
  cases chain with
  | chainEnd => exact ends.operand
  | chainNext operator right rest isOperator =>
      exact Symbol.operand_endsBefore _ (Tier.hasOperator_iff.1 isOperator)

theorem declaration_endsBefore (rest : Derivation .declarations) {after : List Token}
    (ends : Symbol.declarations.EndsBefore after) :
    Symbol.declaration.EndsBefore (rest.tokens ++ after) := by
  rcases rest.begins with ⟨token, more, same, -⟩ | ⟨-, nothing⟩
  · rw [same]
    exact ⟨token, more ++ after, rfl, id⟩
  · rw [nothing]
    exact ends.mono fun _ goesOn => goesOn.elim

/-- After a name that begins an operand there is nothing or an operator. -/
theorem after_name {symbol : Symbol} (derivation : Derivation symbol) {name : Token}
    {rest : List Token} (named : name.kind = .identifier)
    (derived : derivation.tokens = name :: rest)
    (operand : symbol = .unary ∨ symbol = .primary ∨ ∃ tier, symbol = .binary tier ∨
      symbol = .operand tier) :
    rest = [] ∨ ∃ operator more, rest = operator :: more ∧
      ∃ tier : Tier, operator.kind ∈ tier.operators := by
  induction derivation generalizing rest with
  | binary first chain ih _ =>
      obtain ⟨token, more, same, -⟩ := first.tokens_eq_cons id
      rw [tokens, same, List.cons_append, List.cons.injEq] at derived
      obtain ⟨rfl, rfl⟩ := derived
      rcases ih same (by simp) with rfl | ⟨operator, later, rfl, isOperator⟩
      · rcases chain.begins with ⟨operator, later, follows, member⟩ | ⟨-, nothing⟩
        · exact Or.inr ⟨operator, later, follows, _, member⟩
        · exact Or.inl nothing
      · exact Or.inr ⟨operator, later ++ chain.tokens, rfl, isOperator⟩
  | tighter inner tighter ih => exact ih derived (by simp)
  | tightest inner ih => exact ih derived (by simp)
  | unary operator inner isOperator =>
      rw [tokens, List.cons.injEq] at derived
      rw [derived.1, named] at isOperator
      cases isOperator
  | primary inner ih => exact ih derived (by simp)
  | atom token tree stands =>
      rw [tokens, List.cons.injEq] at derived
      exact Or.inl derived.2.symm
  | group left inner right opens closes =>
      rw [tokens, List.cons.injEq] at derived
      rw [derived.1, named] at opens
      cases opens
  | _ => simp at operand

theorem ne_tokens_append {symbol : Symbol} (derivation : Derivation symbol) {token : Token}
    {rest more : List Token} (some : ¬symbol.IsNullable) (other : token.kind ∉ symbol.firsts) :
    token :: rest ≠ derivation.tokens ++ more := by
  obtain ⟨first, later, begun, member⟩ := derivation.tokens_eq_cons some
  intro same
  rw [begun, List.cons_append, List.cons.injEq] at same
  rw [same.1] at other
  exact other member

theorem declaration_ne_after (derivation : Derivation .declaration) {after more : List Token}
    (ends : Symbol.declarations.EndsBefore after) : after ≠ derivation.tokens ++ more := by
  obtain ⟨token, rest, rfl, stops⟩ := ends
  exact derivation.ne_tokens_append id stops

theorem chainNext_ne_after {tier : Tier} {operator : Token} {rest after : List Token}
    (isOperator : tier.HasOperator operator.kind) (ends : (Symbol.chain tier).EndsBefore after) :
    after ≠ operator :: rest := by
  rintro rfl
  obtain ⟨token, more, same, stops⟩ := ends
  rw [List.cons.injEq] at same
  rw [same.1] at isOperator
  exact stops ⟨tier, Nat.le_refl _, Tier.hasOperator_iff.1 isOperator⟩

/-- An assignment is told from other expressions by the token after its name. -/
theorem assign_ne_equality (derivation : Derivation (.binary .equality)) {name equals : Token}
    {rest after : List Token} (named : name.kind = .identifier) (equal : equals.kind = .equal)
    (ends : Symbol.assignment.EndsBefore after) :
    name :: equals :: rest ≠ derivation.tokens ++ after := by
  obtain ⟨token, more, begun, -⟩ := derivation.tokens_eq_cons id
  intro same
  rw [begun, List.cons_append, List.cons.injEq] at same
  obtain ⟨rfl, same⟩ := same
  rcases derivation.after_name named begun (by simp) with
    rfl | ⟨operator, later, rfl, tier, isOperator⟩
  · obtain ⟨token, rest, rfl, stops⟩ := ends
    rw [List.nil_append, List.cons.injEq] at same
    rw [← same.1] at stops
    exact stops (Or.inl equal)
  · rw [List.cons_append, List.cons.injEq] at same
    rw [← same.1, equal] at isOperator
    revert isOperator
    cases tier <;> decide

theorem unary_ne_primary (derivation : Derivation .primary) {operator : Token}
    {rest more : List Token} (isOperator : IsUnaryOperator operator.kind) :
    operator :: rest ≠ derivation.tokens ++ more := by
  apply derivation.ne_tokens_append id
  have disjoint : ∀ kind ∈ unaryOperators, kind ∉ Symbol.primaryFirsts := by decide
  exact disjoint operator.kind (isUnaryOperator_iff.1 isOperator)

/-- The word or brace in front of a statement; an expression has none. -/
def lead? : Derivation .declaration → Option Token.Kind
  | .variable .. => some .varWord
  | .initialized .. => some .varWord
  | .print .. => some .printWord
  | .block .. => some .leftBrace
  | .expression .. => none

theorem lead?_eq_of_cons (derivation : Derivation .declaration) {token : Token}
    {rest more : List Token} (begun : derivation.tokens ++ more = token :: rest) :
    derivation.lead? =
      if token.kind ∈ [.varWord, .printWord, .leftBrace] then some token.kind else none := by
  cases derivation with
  | «variable» word name semicolon isWord =>
      rw [tokens, List.cons_append, List.cons.injEq] at begun
      rw [← begun.1, isWord]
      rfl
  | initialized word name equals initial semicolon isWord =>
      rw [tokens, List.cons_append, List.cons.injEq] at begun
      rw [← begun.1, isWord]
      rfl
  | print word value semicolon isWord =>
      rw [tokens, List.cons_append, List.cons.injEq] at begun
      rw [← begun.1, isWord]
      rfl
  | block left body right opens =>
      rw [tokens, List.cons_append, List.cons.injEq] at begun
      rw [← begun.1, opens]
      rfl
  | expression value semicolon closes =>
      obtain ⟨first, later, same, member⟩ := value.tokens_eq_cons id
      rw [tokens, same, List.cons_append, List.cons_append, List.cons.injEq] at begun
      have others : ∀ kind ∈ Symbol.expressionFirsts,
          kind ∉ [Token.Kind.varWord, .printWord, .leftBrace] := by
        decide
      rw [← begun.1, if_neg (others first.kind member)]
      rfl

theorem lead?_eq (first second : Derivation .declaration) {after later : List Token}
    (same : first.tokens ++ after = second.tokens ++ later) : first.lead? = second.lead? := by
  obtain ⟨token, rest, begun, -⟩ := first.tokens_eq_cons id
  rw [begun, List.cons_append] at same
  have leads := lead?_eq_of_cons first (show first.tokens ++ after = token :: (rest ++ after) by
    rw [begun, List.cons_append])
  rw [leads, lead?_eq_of_cons second same.symm]

theorem atom_unique {token : Token} {first second : Expr} (stands : StandsFor token first)
    (other : StandsFor token second) : first = second := by
  cases stands <;> cases other <;> rename_i kind found <;> first
    | rfl
    | cases kind.symm.trans found

theorem not_leftParen_of_standsFor {token : Token} {tree : Expr} (stands : StandsFor token tree) :
    token.kind ≠ .leftParen := by
  cases stands <;> rename_i kind <;> rw [kind] <;> decide

/-- No other derivation of the symbol begins the same tokens, where neither can be made longer by
what comes after it. -/
def IsUnique {symbol : Symbol} (first : Derivation symbol) : Prop :=
  ∀ (second : Derivation symbol) {after later : List Token}, symbol.EndsBefore after →
    symbol.EndsBefore later → first.tokens ++ after = second.tokens ++ later →
    first = second ∧ after = later

/-- A part that a token closes: the part is the same, and so is the token. -/
theorem IsUnique.closed {symbol : Symbol} {inner other : Derivation symbol} {right last : Token}
    {after later : List Token} (unique : inner.IsUnique)
    (ends : symbol.EndsBefore (right :: after)) (stops : symbol.EndsBefore (last :: later))
    (same : inner.tokens ++ right :: after = other.tokens ++ last :: later) :
    inner = other ∧ right = last ∧ after = later := by
  obtain ⟨one, left⟩ := unique other ends stops same
  rw [List.cons.injEq] at left
  exact ⟨one, left⟩

/-- A part and the rest: the part comes first, and what is left settles the rest. -/
theorem IsUnique.append {symbol following : Symbol} {head other : Derivation symbol}
    {tail rest : Derivation following} {after later : List Token} (unique : head.IsUnique)
    (uniqueTail : tail.IsUnique) (between : symbol.EndsBefore (tail.tokens ++ after))
    (others : symbol.EndsBefore (rest.tokens ++ later)) (ends : following.EndsBefore after)
    (stops : following.EndsBefore later)
    (same : head.tokens ++ tail.tokens ++ after = other.tokens ++ rest.tokens ++ later) :
    head = other ∧ tail = rest ∧ after = later := by
  rw [List.append_assoc, List.append_assoc] at same
  obtain ⟨one, left⟩ := unique other between others same
  exact ⟨one, uniqueTail rest ends stops left⟩

/-- Two derivations of a symbol that begin the same tokens are one, if neither can be made longer
by what comes after it. The induction is on the first; the token in front tells which production
the second has. -/
theorem unique_of_append {symbol : Symbol} (first second : Derivation symbol)
    {after later : List Token} (ends : symbol.EndsBefore after)
    (stops : symbol.EndsBefore later)
    (same : first.tokens ++ after = second.tokens ++ later) :
    first = second ∧ after = later := by
  induction first generalizing after later with
  | nothing =>
      cases second with
      | nothing => exact ⟨rfl, same⟩
      | next head tail =>
          rw [tokens, tokens, List.append_assoc] at same
          exact absurd same (head.declaration_ne_after ends)
  | next head tail ihHead ihTail =>
      cases second with
      | nothing =>
          rw [tokens, tokens, List.append_assoc] at same
          exact absurd same.symm (head.declaration_ne_after stops)
      | next _ otherTail =>
          obtain ⟨rfl, rfl, rfl⟩ := IsUnique.append ihHead ihTail
            (declaration_endsBefore tail ends) (declaration_endsBefore otherTail stops) ends stops
            same
          exact ⟨rfl, rfl⟩
  | «variable» word name semicolon isWord named closes =>
      have leads := lead?_eq _ second same
      cases second with
      | «variable» =>
          simp only [tokens, List.cons_append, List.nil_append, List.cons.injEq] at same
          obtain ⟨rfl, rfl, rfl, rfl⟩ := same
          exact ⟨rfl, rfl⟩
      | initialized _ _ equals _ _ _ _ equal _ =>
          simp only [tokens, List.cons_append, List.cons.injEq] at same
          rw [same.2.2.1, equal] at closes
          cases closes
      | _ => cases leads
  | initialized word name equals initial semicolon isWord named equal closes ih =>
      have leads := lead?_eq _ second same
      cases second with
      | «variable» _ _ _ _ _ otherCloses =>
          simp only [tokens, List.cons_append, List.cons.injEq] at same
          rw [← same.2.2.1, equal] at otherCloses
          cases otherCloses
      | initialized _ _ _ _ _ _ _ _ otherCloses =>
          simp only [tokens, List.cons_append, List.append_assoc, List.nil_append,
            List.cons.injEq] at same
          obtain ⟨rfl, rfl, rfl, same⟩ := same
          obtain ⟨rfl, rfl, rfl⟩ := IsUnique.closed ih
            (Symbol.assignment_endsBefore after (Or.inl closes))
            (Symbol.assignment_endsBefore later (Or.inl otherCloses)) same
          exact ⟨rfl, rfl⟩
      | _ => cases leads
  | print word value semicolon isWord closes ih =>
      have leads := lead?_eq _ second same
      cases second with
      | print _ _ _ _ otherCloses =>
          simp only [tokens, List.cons_append, List.append_assoc, List.nil_append,
            List.cons.injEq] at same
          obtain ⟨rfl, same⟩ := same
          obtain ⟨rfl, rfl, rfl⟩ := IsUnique.closed ih
            (Symbol.assignment_endsBefore after (Or.inl closes))
            (Symbol.assignment_endsBefore later (Or.inl otherCloses)) same
          exact ⟨rfl, rfl⟩
      | _ => cases leads
  | block left body right opens closes ih =>
      have leads := lead?_eq _ second same
      cases second with
      | block _ _ _ _ otherCloses =>
          simp only [tokens, List.cons_append, List.append_assoc, List.nil_append,
            List.cons.injEq] at same
          obtain ⟨rfl, same⟩ := same
          obtain ⟨rfl, rfl, rfl⟩ := IsUnique.closed ih
            (Symbol.declarations_endsBefore after (Or.inl closes))
            (Symbol.declarations_endsBefore later (Or.inl otherCloses)) same
          exact ⟨rfl, rfl⟩
      | _ => cases leads
  | expression value semicolon closes ih =>
      have leads := lead?_eq _ second same
      cases second with
      | expression _ _ otherCloses =>
          simp only [tokens, List.append_assoc, List.cons_append, List.nil_append] at same
          obtain ⟨rfl, rfl, rfl⟩ := IsUnique.closed ih
            (Symbol.assignment_endsBefore after (Or.inl closes))
            (Symbol.assignment_endsBefore later (Or.inl otherCloses)) same
          exact ⟨rfl, rfl⟩
      | _ => cases leads
  | assign name equals value named equal ih =>
      cases second with
      | assign _ _ otherValue =>
          simp only [tokens, List.cons_append, List.cons.injEq] at same
          obtain ⟨rfl, rfl, same⟩ := same
          obtain ⟨rfl, rfl⟩ := ih otherValue ends stops same
          exact ⟨rfl, rfl⟩
      | equality otherValue => exact absurd same (otherValue.assign_ne_equality named equal stops)
  | equality value ih =>
      cases second with
      | assign _ _ _ named equal =>
          exact absurd same.symm (value.assign_ne_equality named equal ends)
      | equality otherValue =>
          obtain ⟨rfl, rfl⟩ := ih otherValue ends.equality stops.equality same
          exact ⟨rfl, rfl⟩
  | binary operand chain ihOperand ihChain =>
      cases second with
      | binary _ otherChain =>
          obtain ⟨rfl, rfl, rfl⟩ := IsUnique.append ihOperand ihChain
            (operand_endsBefore chain ends) (operand_endsBefore otherChain stops) ends stops same
          exact ⟨rfl, rfl⟩
  | chainEnd =>
      cases second with
      | chainEnd => exact ⟨rfl, same⟩
      | chainNext _ _ _ isOperator => exact absurd same (chainNext_ne_after isOperator ends)
  | chainNext operator right chain isOperator ihRight ihChain =>
      cases second with
      | chainEnd => exact absurd same.symm (chainNext_ne_after isOperator stops)
      | chainNext _ _ otherChain _ =>
          simp only [tokens, List.cons_append, List.cons.injEq] at same
          obtain ⟨rfl, same⟩ := same
          obtain ⟨rfl, rfl, rfl⟩ := IsUnique.append ihRight ihChain
            (operand_endsBefore chain ends) (operand_endsBefore otherChain stops) ends stops same
          exact ⟨rfl, rfl⟩
  | tighter operand tighter ih =>
      cases second with
      | tighter otherOperand otherTighter =>
          obtain rfl := tighter.unique otherTighter
          obtain ⟨rfl, rfl⟩ := ih otherOperand (ends.tighter tighter) (stops.tighter tighter) same
          exact ⟨rfl, rfl⟩
      | tightest => cases tighter
  | tightest operand ih =>
      cases second with
      | tighter _ tighter => cases tighter
      | tightest otherOperand =>
          obtain ⟨rfl, rfl⟩ := ih otherOperand ends.unary stops.unary same
          exact ⟨rfl, rfl⟩
  | unary operator operand isOperator ih =>
      cases second with
      | unary _ otherOperand =>
          simp only [tokens, List.cons_append, List.cons.injEq] at same
          obtain ⟨rfl, same⟩ := same
          obtain ⟨rfl, rfl⟩ := ih otherOperand ends stops same
          exact ⟨rfl, rfl⟩
      | primary other => exact absurd same (other.unary_ne_primary isOperator)
  | primary operand ih =>
      cases second with
      | unary _ _ isOperator => exact absurd same.symm (operand.unary_ne_primary isOperator)
      | primary other =>
          obtain ⟨rfl, rfl⟩ := ih other ends stops same
          exact ⟨rfl, rfl⟩
  | atom token tree stands =>
      cases second with
      | atom _ _ otherStands =>
          simp only [tokens, List.cons_append, List.nil_append, List.cons.injEq] at same
          obtain ⟨rfl, rfl⟩ := same
          obtain rfl := atom_unique stands otherStands
          exact ⟨rfl, rfl⟩
      | group _ _ _ opens =>
          simp only [tokens, List.cons_append, List.cons.injEq] at same
          rw [← same.1] at opens
          exact absurd opens (not_leftParen_of_standsFor stands)
  | group left inner right opens closes ih =>
      cases second with
      | atom _ _ stands =>
          simp only [tokens, List.cons_append, List.cons.injEq] at same
          rw [same.1] at opens
          exact absurd opens (not_leftParen_of_standsFor stands)
      | group _ _ _ _ otherCloses =>
          simp only [tokens, List.cons_append, List.append_assoc, List.nil_append,
            List.cons.injEq] at same
          obtain ⟨rfl, same⟩ := same
          obtain ⟨rfl, rfl, rfl⟩ := IsUnique.closed ih
            (Symbol.assignment_endsBefore after (Or.inr closes))
            (Symbol.assignment_endsBefore later (Or.inr otherCloses)) same
          exact ⟨rfl, rfl⟩

end Derivation

end Lox.Grammar
