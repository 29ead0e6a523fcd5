import Lox.Proofs.Grammar.Recovery
import Lox.Proofs.Tree.Parenthesized
import Lox.Proofs.Tree.Proper

/-!
Every expression can be written and is read as itself: `expression_parenthesized`. Tokens that are
written for a tree with its compound operands in parentheses are derived from the grammar, and stand
for the tree with a group around each of these operands. An operand is then always a primary, which
every tier of operators takes.
-/

set_option autoImplicit false

namespace Lox.Grammar

/-! Looser symbols derive what tighter ones do. -/

namespace Symbol

variable {tree : Expr} {tokens : List Token}

theorem Derives.single {tier : Tier} (derives : (operand tier).Derives tree tokens) :
    (binary tier).Derives tree tokens := by
  obtain ⟨derivation, rfl, rfl⟩ := derives
  exact ⟨.binary derivation .chainEnd, rfl, List.append_nil _⟩

theorem Derives.tighter {tier next : Tier} (derives : (binary next).Derives tree tokens)
    (operands : tier.HasOperands next) : (operand tier).Derives tree tokens := by
  obtain ⟨derivation, rfl, rfl⟩ := derives
  exact ⟨.tighter derivation operands, rfl, rfl⟩

theorem Derives.operand (derives : unary.Derives tree tokens) (tier : Tier) :
    (operand tier).Derives tree tokens := by
  obtain ⟨derivation, rfl, rfl⟩ := derives
  have product : (Symbol.operand .multiplication).Derives derivation.tree derivation.tokens :=
    ⟨.tightest derivation, rfl, rfl⟩
  have sum := product.single.tighter .products
  have comparison := sum.single.tighter .sums
  cases tier with
  | multiplication => exact product
  | addition => exact sum
  | comparison => exact comparison
  | equality => exact comparison.single.tighter .comparisons

theorem Derives.assignment {tier : Tier} (derives : (binary tier).Derives tree tokens) :
    assignment.Derives tree tokens := by
  have equality : (binary .equality).Derives tree tokens := by
    cases tier with
    | equality => exact derives
    | comparison => exact (derives.tighter .comparisons).single
    | addition => exact ((derives.tighter .sums).single.tighter .comparisons).single
    | multiplication =>
        exact (((derives.tighter .products).single.tighter .sums).single.tighter
          .comparisons).single
  obtain ⟨derivation, rfl, rfl⟩ := equality
  exact ⟨.equality derivation, rfl, rfl⟩

theorem Derives.unary (derives : primary.Derives tree tokens) : unary.Derives tree tokens := by
  obtain ⟨derivation, rfl, rfl⟩ := derives
  exact ⟨.primary derivation, rfl, rfl⟩

theorem Derives.ofOperand (derives : Symbol.unary.Derives tree tokens) :
    Symbol.assignment.Derives tree tokens :=
  (derives.operand .equality).single.assignment

/-- A tree is derived from any tokens that `written` is written for. -/
def Spells (symbol : Symbol) (tree : symbol.Tree) (written : List Token) : Prop :=
  ∀ tokens, List.Forall₂ Token.WrittenFor written tokens → symbol.Derives tree tokens

end Symbol

theorem standsFor_written (value : Value) : StandsFor value.written (.literal value) := by
  match value with
  | .nil => exact .nilWord rfl
  | .boolean true => exact .trueWord rfl
  | .boolean false => exact .falseWord rfl
  | .number number => exact .number rfl
  | .text text => exact .string rfl

/-- A token stands for what the token written for it does. -/
theorem StandsFor.source {written source : Token} {tree : Expr} (stands : StandsFor written tree)
    (writtenFor : written.WrittenFor source) : StandsFor source tree := by
  have same := writtenFor.kind
  cases stands with
  | number kind =>
      have number := same.symm.trans kind
      rw [writtenFor.literal (Or.inl number)]
      exact .number number
  | string kind =>
      have string := same.symm.trans kind
      rw [writtenFor.literal (Or.inr string)]
      exact .string string
  | trueWord kind => exact .trueWord (same.symm.trans kind)
  | falseWord kind => exact .falseWord (same.symm.trans kind)
  | nilWord kind => exact .nilWord (same.symm.trans kind)
  | name kind =>
      have named := same.symm.trans kind
      rw [writtenFor.kept (by rw [named]; decide)]
      exact .name named

/-- Tokens that others are written for, in two parts if those are. -/
theorem exists_of_forall₂_append {written : Token → Token → Prop} {first second tokens : List Token}
    (each : List.Forall₂ written (first ++ second) tokens) :
    ∃ front back, tokens = front ++ back ∧ List.Forall₂ written first front ∧
      List.Forall₂ written second back := by
  have front := List.forall₂_take first.length each
  have back := List.forall₂_drop first.length each
  rw [List.take_left] at front
  rw [List.drop_left] at back
  exact ⟨_, _, (List.take_append_drop first.length tokens).symm, front, back⟩

namespace Symbol.Spells

theorem atom {token : Token} {tree : Expr} (stands : StandsFor token tree) :
    primary.Spells tree [token] := by
  intro tokens each
  obtain ⟨source, rest, writtenFor, nothing, rfl⟩ := List.forall₂_cons_left_iff.1 each
  obtain rfl := List.forall₂_nil_left_iff.1 nothing
  exact ⟨.atom source tree (stands.source writtenFor), rfl, rfl⟩

theorem group {inner : Expr} {written : List Token} (spells : assignment.Spells inner written) :
    primary.Spells (.group inner)
      (.plain .leftParen .nil :: (written ++ [.plain .rightParen .nil])) := by
  intro tokens each
  obtain ⟨left, later, opens, parts, rfl⟩ := List.forall₂_cons_left_iff.1 each
  obtain ⟨inside, last, rfl, body, ending⟩ := exists_of_forall₂_append parts
  obtain ⟨right, rest, closes, nothing, rfl⟩ := List.forall₂_cons_left_iff.1 ending
  obtain rfl := List.forall₂_nil_left_iff.1 nothing
  obtain ⟨derivation, rfl, rfl⟩ := spells inside body
  exact ⟨.group left derivation right opens.kind.symm closes.kind.symm, rfl, rfl⟩

/-- An operator is written as itself. -/
theorem eq_of_operator {operator source : Token} (kept : operator.kind ∈ Token.keptKinds)
    (writtenFor : operator.WrittenFor source) : operator = source :=
  writtenFor.kept (writtenFor.kind ▸ kept)

theorem unary {operator : Token} {operand : Expr} {written : List Token}
    (isOperator : IsUnaryOperator operator.kind) (spells : primary.Spells operand written) :
    assignment.Spells (.unary operator operand) (operator :: written) := by
  intro tokens each
  obtain ⟨source, later, same, body, rfl⟩ := List.forall₂_cons_left_iff.1 each
  obtain rfl := eq_of_operator isOperator.kept same
  obtain ⟨derivation, rfl, rfl⟩ := (spells later body).unary
  have derives : Symbol.unary.Derives (.unary operator derivation.tree)
      (operator :: derivation.tokens) := ⟨.unary operator derivation isOperator, rfl, rfl⟩
  exact derives.ofOperand

theorem binary {operator : Token} {tier : Tier} {left right : Expr} {written later : List Token}
    (isOperator : tier.HasOperator operator.kind) (first : primary.Spells left written)
    (second : primary.Spells right later) :
    assignment.Spells (.binary left operator right) (written ++ operator :: later) := by
  intro tokens each
  obtain ⟨front, back, rfl, leading, ending⟩ := exists_of_forall₂_append each
  obtain ⟨source, rest, same, trailing, rfl⟩ := List.forall₂_cons_left_iff.1 ending
  obtain rfl := eq_of_operator isOperator.kept same
  obtain ⟨before, rfl, rfl⟩ := (first front leading).unary.operand tier
  obtain ⟨after, rfl, rfl⟩ := (second rest trailing).unary.operand tier
  have derives : (Symbol.binary tier).Derives (.binary before.tree operator after.tree)
      (before.tokens ++ operator :: after.tokens) := by
    refine ⟨.binary before (.chainNext operator after .chainEnd isOperator), rfl, ?_⟩
    simp only [Derivation.tokens, List.append_nil]
  exact derives.assignment

theorem assign {name : Token} {value : Expr} {written : List Token}
    (named : name.kind = .identifier) (spells : assignment.Spells value written) :
    assignment.Spells (.assign name value) (name :: .plain .equal .nil :: written) := by
  intro tokens each
  obtain ⟨source, later, same, parts, rfl⟩ := List.forall₂_cons_left_iff.1 each
  obtain ⟨equals, rest, equal, body, rfl⟩ := List.forall₂_cons_left_iff.1 parts
  obtain rfl := eq_of_operator (by rw [named]; decide) same
  obtain ⟨derivation, rfl, rfl⟩ := spells rest body
  exact ⟨.assign name equals derivation named equal.kind.symm, rfl, rfl⟩

end Symbol.Spells

/-- A tree that can be written, as an operand and alone. -/
structure Spelled (tree : Expr) : Prop where
  operand : Symbol.primary.Spells tree.grouped.asOperand (tree.enclose tree.parenthesized)
  alone : Symbol.assignment.Spells tree.grouped tree.parenthesized

/-- What is no compound is an operand as it is. -/
theorem Spelled.ofSimple {tree : Expr} (simple : ¬tree.isCompound)
    (spells : Symbol.primary.Spells tree.grouped tree.parenthesized) : Spelled tree := by
  constructor
  · rw [Expr.asOperand_of_simple simple, Expr.enclose, if_neg simple]
    exact spells
  · intro tokens each
    exact (spells tokens each).unary.ofOperand

/-- A compound is an operand in parentheses. -/
theorem Spelled.ofCompound {tree : Expr} (compound : tree.isCompound)
    (spells : Symbol.assignment.Spells tree.grouped tree.parenthesized) : Spelled tree := by
  refine ⟨?_, spells⟩
  rw [Expr.asOperand_of_compound compound, Expr.enclose, if_pos compound]
  exact spells.group

/-- The induction is on the tree; each part of it is written as an operand or alone. -/
theorem spelled_of_proper {tree : Expr} (proper : tree.Proper) (named : tree.IsNamed) :
    Spelled tree := by
  induction proper with
  | literal value => exact .ofSimple nofun (.atom (standsFor_written value))
  | group proper ih => exact .ofSimple nofun (ih named).alone.group
  | unary isOperator proper ih =>
      exact .ofCompound rfl (.unary (isUnaryOperator_iff.2 isOperator) (ih named).operand)
  | binary tier isOperator proper properRight first second =>
      have operator := Tier.hasOperator_iff.2 isOperator
      exact .ofCompound rfl (.binary operator (first named.1).operand (second named.2).operand)
  | assign name proper ih => exact .ofCompound rfl (.assign named.1 (ih named.2).alone)
  | var name => exact .ofSimple nofun (.atom (.name named))

/-- Tokens that an expression is derived from are read as its tree up to the end of the input. -/
theorem perform_assignment_of_derives {tree : Expr} {tokens : List Token} {last : Token}
    (derives : Symbol.assignment.Derives tree tokens) (ended : last.isEnd) :
    (Cursor.start (tokens ++ [last])).perform .assignment =
      (.ok (.expression tree), ⟨tokens ++ [last], tokens.length, []⟩) := by
  obtain ⟨derivation, rfl, rfl⟩ := derives
  have ends := Symbol.assignment_endsBefore_of_bounds [] (bounds_of_isEnd ended)
  have read : (Grammar.assignment (derivation.tokens ++ [last])).val =
      ⟨.ok derivation.tree, [], [last]⟩ := (derivation.readsAs [last] ends).answer_eq
  rw [Cursor.perform, Cursor.answer, Cursor.apply_start, read, List.length_append,
    Nat.add_sub_cancel]
  rfl

/-- Tokens written for an expression of any shape, with its compound operands in parentheses, are
read to their end as the expression with a group around each of these operands. This evaluates to
what the expression does, or stops as it does, and leaves the same variables. -/
theorem expression_parenthesized (tree : Expr) (proper : tree.Proper) (named : tree.IsNamed)
    (tokens : List Token) (spelled : List.Forall₂ Token.WrittenFor tree.parenthesized tokens)
    (last : Token) (ended : last.isEnd) :
    (Cursor.start (tokens ++ [last])).perform .assignment =
        (.ok (.expression tree.grouped), ⟨tokens ++ [last], tokens.length, []⟩) ∧
      ∀ environment, tree.grouped.eval environment = tree.eval environment := by
  have derives := (spelled_of_proper proper named).alone tokens spelled
  refine ⟨perform_assignment_of_derives derives ended, fun environment => ?_⟩
  rw [tree.eval_grouped]

/-- The product of `a = b + "c"` and `- ! d` is written `(a = b + "c") * (-(!d))`. Read back it has
three groups, and stops at `d`, which is nowhere, after `a` has its new value. -/
theorem expression_parenthesized_product :
    let a : Token := ⟨.identifier, "a", .nil, 1⟩
    let b : Token := ⟨.identifier, "b", .nil, 1⟩
    let d : Token := ⟨.identifier, "d", .nil, 2⟩
    let plus : Token := ⟨.plus, "+", .nil, 1⟩
    let star : Token := ⟨.star, "*", .nil, 1⟩
    let minus : Token := ⟨.minus, "-", .nil, 2⟩
    let bang : Token := ⟨.bang, "!", .nil, 2⟩
    let left (line : Int) : Token := ⟨.leftParen, "(", .nil, line⟩
    let right (line : Int) : Token := ⟨.rightParen, ")", .nil, line⟩
    let sum : Expr := .assign a (.binary (.var b) plus (.literal (.text "c")))
    let tree : Expr := .binary sum star (.unary minus (.unary bang (.var d)))
    let read : Expr := .binary (.group sum) star
      (.group (.unary minus (.group (.unary bang (.var d)))))
    let tokens := [left 1, a, ⟨.equal, "=", .nil, 1⟩, b, plus, ⟨.string, "c", .text "c", 1⟩,
      right 1, star, left 2, minus, left 2, bang, d, right 2, right 2]
    let last : Token := ⟨.endOfInput, "", .nil, 2⟩
    tree.Proper ∧ tree.IsNamed ∧ List.Forall₂ Token.WrittenFor tree.parenthesized tokens ∧
      last.isEnd ∧
      (Cursor.start (tokens ++ [last])).perform .assignment =
        (.ok (.expression read), ⟨tokens ++ [last], 15, []⟩) ∧
      read.eval (.global ⟨[("a", .nil), ("b", .text "x")]⟩) =
        .error (.failed (.undefinedVariable d))
          (.global ⟨[("a", .text "xc"), ("b", .text "x")]⟩) := by
  intro a b d plus star minus bang left right sum tree read tokens last
  have proper : tree.Proper := by
    have assigned : sum.Proper :=
      .assign a (.binary .addition (by decide) (.var b) (.literal (.text "c")))
    exact .binary .multiplication (by decide) assigned
      (.unary (by decide) (.unary (by decide) (.var d)))
  have named : tree.IsNamed := ⟨⟨rfl, rfl, trivial⟩, rfl⟩
  have spelled : List.Forall₂ Token.WrittenFor tree.parenthesized tokens := by
    have written : tree.parenthesized = tokens.map Token.rewritten := by decide
    rw [written, List.forall₂_map_left_iff]
    exact List.forall₂_same.2 fun token _ => token.rewritten_writtenFor
  have ended : last.isEnd := by decide
  obtain ⟨parsed, same⟩ := expression_parenthesized tree proper named tokens spelled last ended
  refine ⟨proper, named, spelled, ended, parsed, ?_⟩
  exact (same _).trans rfl

end Lox.Grammar
