import Lox.Grammar.Statement

/-!
The grammar, apart from the rules that read it. A derivation of a symbol holds the tokens that it
derives, one in each place where the grammar has one, and stands for a syntax tree.

    declarations → declaration*
    declaration  → "var" name ( "=" assignment )? ";" | "print" assignment ";"
                 | "{" declarations "}" | assignment ";"
    assignment   → name "=" assignment | equality
    a tier       → operand ( operator operand )*, an operand being the next tier, at last unary
    unary        → ( "!" | "-" ) unary | primary
    primary      → number | string | "true" | "false" | "nil" | name | "(" assignment ")"
-/

set_option autoImplicit false

namespace Lox.Grammar

/-- What the grammar has productions for. -/
inductive Symbol where
  | declarations
  | declaration
  | assignment
  | binary (tier : Tier)
  /-- Operators of a tier, each with the operand after it. -/
  | chain (tier : Tier)
  | operand (tier : Tier)
  | unary
  | primary

namespace Symbol

/-- What a derivation stands for. A chain of operators needs the operand before it to make a
tree. -/
abbrev Tree : Symbol → Type
  | .declarations => List Stmt
  | .declaration => Stmt
  | .chain _ => Expr → Expr
  | .assignment => Expr
  | .binary _ => Expr
  | .operand _ => Expr
  | .unary => Expr
  | .primary => Expr

end Symbol

/-- The binary operators of a tier. -/
inductive Tier.HasOperator : Tier → Token.Kind → Prop where
  | bangEqual : HasOperator .equality .bangEqual
  | equalEqual : HasOperator .equality .equalEqual
  | greater : HasOperator .comparison .greater
  | greaterEqual : HasOperator .comparison .greaterEqual
  | less : HasOperator .comparison .less
  | lessEqual : HasOperator .comparison .lessEqual
  | minus : HasOperator .addition .minus
  | plus : HasOperator .addition .plus
  | slash : HasOperator .multiplication .slash
  | star : HasOperator .multiplication .star

/-- What the operands of a tier are made of, where they are of another tier. -/
inductive Tier.HasOperands : Tier → Tier → Prop where
  | comparisons : HasOperands .equality .comparison
  | sums : HasOperands .comparison .addition
  | products : HasOperands .addition .multiplication

/-- The operators in front of an operand. -/
inductive IsUnaryOperator : Token.Kind → Prop where
  | bang : IsUnaryOperator .bang
  | minus : IsUnaryOperator .minus

/-- A token that makes an expression by itself. -/
inductive StandsFor : Token → Expr → Prop where
  | number {token : Token} (kind : token.kind = .number) :
      StandsFor token (.literal token.literal)
  | string {token : Token} (kind : token.kind = .string) :
      StandsFor token (.literal token.literal)
  | trueWord {token : Token} (kind : token.kind = .trueWord) :
      StandsFor token (.literal (.boolean true))
  | falseWord {token : Token} (kind : token.kind = .falseWord) :
      StandsFor token (.literal (.boolean false))
  | nilWord {token : Token} (kind : token.kind = .nilWord) : StandsFor token (.literal .nil)
  | name {token : Token} (kind : token.kind = .identifier) : StandsFor token (.var token)

/-- How tokens are derived from a symbol, one constructor for each production. -/
inductive Derivation : Symbol → Type where
  | nothing : Derivation .declarations
  | next (first : Derivation .declaration) (rest : Derivation .declarations) :
      Derivation .declarations
  | variable (word name semicolon : Token) (isWord : word.kind = .varWord)
      (named : name.kind = .identifier) (closes : semicolon.kind = .semicolon) :
      Derivation .declaration
  | initialized (word name equals : Token) (initial : Derivation .assignment)
      (semicolon : Token) (isWord : word.kind = .varWord) (named : name.kind = .identifier)
      (equal : equals.kind = .equal) (closes : semicolon.kind = .semicolon) :
      Derivation .declaration
  | print (word : Token) (value : Derivation .assignment) (semicolon : Token)
      (isWord : word.kind = .printWord) (closes : semicolon.kind = .semicolon) :
      Derivation .declaration
  | block (left : Token) (body : Derivation .declarations) (right : Token)
      (opens : left.kind = .leftBrace) (closes : right.kind = .rightBrace) :
      Derivation .declaration
  | expression (value : Derivation .assignment) (semicolon : Token)
      (closes : semicolon.kind = .semicolon) : Derivation .declaration
  | assign (name equals : Token) (value : Derivation .assignment)
      (named : name.kind = .identifier) (equal : equals.kind = .equal) :
      Derivation .assignment
  | equality (value : Derivation (.binary .equality)) : Derivation .assignment
  | binary {tier : Tier} (first : Derivation (.operand tier)) (rest : Derivation (.chain tier)) :
      Derivation (.binary tier)
  | chainEnd {tier : Tier} : Derivation (.chain tier)
  | chainNext {tier : Tier} (operator : Token) (right : Derivation (.operand tier))
      (rest : Derivation (.chain tier)) (isOperator : tier.HasOperator operator.kind) :
      Derivation (.chain tier)
  | tighter {tier next : Tier} (operand : Derivation (.binary next))
      (tighter : tier.HasOperands next) : Derivation (.operand tier)
  | tightest (operand : Derivation .unary) : Derivation (.operand .multiplication)
  | unary (operator : Token) (operand : Derivation .unary)
      (isOperator : IsUnaryOperator operator.kind) : Derivation .unary
  | primary (operand : Derivation .primary) : Derivation .unary
  | atom (token : Token) (tree : Expr) (stands : StandsFor token tree) : Derivation .primary
  | group (left : Token) (inner : Derivation .assignment) (right : Token)
      (opens : left.kind = .leftParen) (closes : right.kind = .rightParen) :
      Derivation .primary

namespace Derivation

/-- The tokens that are derived. -/
def tokens {symbol : Symbol} : Derivation symbol → List Token
  | .nothing => []
  | .next first rest => first.tokens ++ rest.tokens
  | .variable word name semicolon _ _ _ => [word, name, semicolon]
  | .initialized word name equals initial semicolon _ _ _ _ =>
    word :: name :: equals :: (initial.tokens ++ [semicolon])
  | .print word value semicolon _ _ => word :: (value.tokens ++ [semicolon])
  | .block left body right _ _ => left :: (body.tokens ++ [right])
  | .expression value semicolon _ => value.tokens ++ [semicolon]
  | .assign name equals value _ _ => name :: equals :: value.tokens
  | .equality value => value.tokens
  | .binary first rest => first.tokens ++ rest.tokens
  | .chainEnd => []
  | .chainNext operator right rest _ => operator :: (right.tokens ++ rest.tokens)
  | .tighter operand _ => operand.tokens
  | .tightest operand => operand.tokens
  | .unary operator operand _ => operator :: operand.tokens
  | .primary operand => operand.tokens
  | .atom token _ _ => [token]
  | .group left inner right _ _ => left :: (inner.tokens ++ [right])

/-- The tree that a derivation stands for: operators of a tier nest to the left, assignments and
the operators in front of an operand to the right. -/
def tree {symbol : Symbol} : Derivation symbol → symbol.Tree
  | .nothing => []
  | .next first rest => first.tree :: rest.tree
  | .variable _ name _ _ _ _ => .declare name none
  | .initialized _ name _ initial _ _ _ _ _ => .declare name (some initial.tree)
  | .print _ value _ _ _ => .print value.tree
  | .block _ body _ _ _ => .block body.tree
  | .expression value _ _ => .expression value.tree
  | .assign name _ value _ _ => .assign name value.tree
  | .equality value => value.tree
  | .binary first rest => rest.tree first.tree
  | .chainEnd => fun soFar => soFar
  | .chainNext operator right rest _ => fun soFar =>
    rest.tree (.binary soFar operator right.tree)
  | .tighter operand _ => operand.tree
  | .tightest operand => operand.tree
  | .unary operator operand _ => .unary operator operand.tree
  | .primary operand => operand.tree
  | .atom _ tree _ => tree
  | .group _ inner _ _ _ => .group inner.tree

end Derivation

/-! The rules take their operators and operands as the grammar has them. -/

theorem Tier.hasOperator_iff {tier : Tier} {kind : Token.Kind} :
    tier.HasOperator kind ↔ kind ∈ tier.operators := by
  constructor
  · intro operator
    cases operator <;> decide
  · intro member
    cases tier <;> cases kind <;> first
      | constructor
      | simp [operators] at member

theorem Tier.hasOperands_iff {tier next : Tier} :
    tier.HasOperands next ↔ tier.tighter? = some next := by
  constructor
  · intro operands
    cases operands <;> rfl
  · intro tighter
    cases tier <;> cases tighter <;> constructor

theorem isUnaryOperator_iff {kind : Token.Kind} :
    IsUnaryOperator kind ↔ kind ∈ unaryOperators := by
  constructor
  · intro operator
    cases operator <;> decide
  · intro member
    cases kind <;> first
      | constructor
      | simp [unaryOperators] at member

end Lox.Grammar
