import Lox.Proofs.Tree.TreeForm

/-!
Forms are read as trees. The form of a scanned tree is read as the tree, but for the lines of its
tokens: `Expr.Scanned.toExpr_form` and `Stmt.Scanned.toStmt_form`. So programs that are written
alike are the same but for those lines: `Stmt.writeLines_forms_eq_iff`.
-/

set_option autoImplicit false

namespace Lox

open Segment

/-- The value that a word stands for, unless it is a name. -/
def Value.ofWord? (word : List Char) : Option Value :=
  if word = "nil".toList then some .nil
  else if word = "true".toList then some (.boolean true)
  else if word = "false".toList then some (.boolean false)
  else if word.head?.any fun char => Decimal.isDigit char || char == '-' then
    (Number.read? (.ofList word)).map .number
  else none

def Token.ofOperator (head : List Char) : Token :=
  ⟨(Token.operators.lookup head).getD .endOfInput, .ofList head, .nil, 0⟩

namespace Form

def name : Form → Token
  | .word text => ⟨.identifier, .ofList text, .nil, 0⟩
  | .quoted _ | .list _ _ => default

def toExpr : Form → Expr
  | .word text =>
    match Value.ofWord? text with
    | some value => .literal value
    | none => .var (Form.word text).name
  | .quoted body => .literal (.text (.ofList body))
  | .list head [only] =>
    if head = "group".toList then .group only.toExpr else .unary (.ofOperator head) only.toExpr
  | .list head [first, second] =>
    if head = "=".toList then .assign first.name second.toExpr
    else .binary first.toExpr (.ofOperator head) second.toExpr
  | .list _ _ => default

/-- A statement that is no block. -/
def toSimple (head : List Char) : List Form → Stmt
  | [only] =>
    if head = ";".toList then .expression only.toExpr
    else if head = "print".toList then .print only.toExpr
    else .declare only.name none
  | [first, second] => .declare first.name (some second.toExpr)
  | _ => default

mutual

def toStmt : Form → Stmt
  | .list head parts =>
    if head = "block".toList then .block (toStmts parts) else toSimple head parts
  | .word _ | .quoted _ => default

def toStmts : List Form → List Stmt
  | [] => []
  | form :: rest => form.toStmt :: toStmts rest

end

theorem toStmts_eq_map (forms : List Form) : toStmts forms = forms.map toStmt := by
  induction forms with
  | nil => rfl
  | cons form rest ih => rw [toStmts, ih, List.map_cons]

end Form

section Words

/-- A word that is not one of the three values is a number if it begins like one. -/
theorem Value.ofWord?_of_ne {word : List Char}
    (other : ∀ value ∈ ["nil", "true", "false"], word ≠ value.toList) :
    Value.ofWord? word =
      if word.head?.any fun char => Decimal.isDigit char || char == '-' then
        (Number.read? (.ofList word)).map .number
      else none := by
  rw [Value.ofWord?, if_neg (other "nil" (by simp)), if_neg (other "true" (by simp)),
    if_neg (other "false" (by simp))]

theorem Value.ofWord?_number {number : Float} (finite : number.isFinite) :
    Value.ofWord? (Number.Style.dumped.write number).toList = some (.number number) := by
  have ending : Number.Style.dumped.EndsInZeros := .inr rfl
  obtain ⟨first, rest, text, begins⟩ := Number.exists_first_write ending finite
  have starts : (Decimal.isDigit first || first == '-') = true := by simpa using begins
  have other : ∀ value ∈ ["nil", "true", "false"],
      (Number.Style.dumped.write number).toList ≠ value.toList := by
    have letters : ∀ value ∈ ["nil", "true", "false"],
        value.toList.head?.all fun char => !(Decimal.isDigit char || char == '-') := by decide
    intro value listed same
    have letter := letters value listed
    rw [← same, text, List.head?_cons, Option.all_some, starts] at letter
    cases letter
  rw [Value.ofWord?_of_ne other, text, List.head?_cons, Option.any_some, if_pos starts, ← text,
    String.ofList_toList, Number.read?_write ending finite, Option.map_some]

theorem Token.IsName.ofWord? {name : Token} (isName : name.IsName) :
    Value.ofWord? name.lexeme.toList = none := by
  obtain ⟨-, -, ⟨first, rest, text, starts, -⟩, free⟩ := isName
  have other : ∀ value ∈ ["nil", "true", "false"], name.lexeme.toList ≠ value.toList := by
    have reserved : ∀ value ∈ ["nil", "true", "false"],
        ∃ entry ∈ Token.Kind.reserved, entry.1 = value := by decide
    intro value listed same
    obtain ⟨entry, member, rfl⟩ := reserved value listed
    exact free entry member same.symm
  have noSign : first ≠ '-' := by
    rintro rfl
    exact absurd starts (by decide)
  rw [Value.ofWord?_of_ne other, text, List.head?_cons, Option.any_some, if_neg]
  simp [not_isDigit_of_isWordStart starts, noSign]

theorem Token.IsOperator.ofOperator {operator : Token} (isOperator : operator.IsOperator) :
    Token.ofOperator operator.lexeme.toList = operator.moved fun _ => 0 := by
  obtain ⟨listed, literal⟩ := isOperator
  have found : ∀ entry ∈ Token.operators, Token.operators.lookup entry.1 = some entry.2 := by decide
  obtain ⟨kind, lexeme, value, line⟩ := operator
  dsimp only at listed literal ⊢
  rw [Token.ofOperator, found _ listed, literal, String.ofList_toList]
  rfl

theorem Token.IsOperator.ne_head {operator : Token} (isOperator : operator.IsOperator)
    {head : String} (other : ∀ entry ∈ Token.operators, entry.1 ≠ head.toList) :
    operator.lexeme.toList ≠ head.toList :=
  other _ isOperator.listed

theorem Token.IsName.name {name : Token} (isName : name.IsName) :
    (Form.word name.lexeme.toList).name = name.moved fun _ => 0 := by
  obtain ⟨same, literal, -, -⟩ := isName
  obtain ⟨kind, lexeme, value, line⟩ := name
  dsimp only at same literal ⊢
  rw [Form.name, String.ofList_toList, same, literal]
  rfl

end Words

theorem Value.toExpr_form {value : Value}
    (finite : ∀ number ∈ (Expr.literal value).numbers, number.isFinite) :
    value.form.toExpr = .literal value := by
  cases value with
  | nil => rfl
  | boolean truth => cases truth <;> rfl
  | number number =>
      have isFinite := finite number (List.mem_singleton_self number)
      rw [Value.form, Form.toExpr, Value.prefixForm, Value.ofWord?_number isFinite]
      intro body other
      cases other
  | text body => rw [Value.form, Form.toExpr, String.ofList_toList]

theorem Expr.Scanned.toExpr_form {expression : Expr} (scanned : expression.Scanned)
    (finite : ∀ number ∈ expression.numbers, number.isFinite) :
    expression.form.toExpr = expression.moved fun _ => 0 := by
  induction scanned with
  | literal unquoted => exact Value.toExpr_form finite
  | group scanned ih =>
      rw [Expr.form, Form.toExpr, if_pos rfl, ih finite, Expr.moved]
  | unary isOperator scanned ih =>
      rw [Expr.form, Form.toExpr, if_neg (isOperator.ne_head (by decide)), ih finite,
        isOperator.ofOperator, Expr.moved]
  | binary isOperator scanned scannedRight ih ihRight =>
      rw [Expr.numbers, List.forall_mem_append] at finite
      rw [Expr.form, Form.toExpr, if_neg (isOperator.ne_head (by decide)), ih finite.1,
        ihRight finite.2, isOperator.ofOperator, Expr.moved]
  | assign isName scanned ih =>
      rw [Expr.form, Form.toExpr, if_pos rfl, ih finite, isName.name, Expr.moved]
  | var isName =>
      rw [Expr.form, Form.toExpr, isName.ofWord?, isName.name, Expr.moved]

namespace Stmt

theorem Scanned.toStmt_form {statement : Stmt} (scanned : statement.Scanned)
    (finite : ∀ number ∈ statement.numbers, number.isFinite) :
    statement.form.toStmt = statement.moved fun _ => 0 := by
  induction scanned with
  | expression scanned =>
      rw [form, Form.toStmt, if_neg (by decide), Form.toSimple, if_pos rfl,
        scanned.toExpr_form finite, moved]
  | print scanned =>
      rw [form, Form.toStmt, if_neg (by decide), Form.toSimple, if_neg (by decide), if_pos rfl,
        scanned.toExpr_form finite, moved]
  | declare isName =>
      rw [form, Form.toStmt, if_neg (by decide), Form.toSimple, if_neg (by decide),
        if_neg (by decide), isName.name, moved]
  | initialized isName scanned =>
      rw [form, Form.toStmt, if_neg (by decide), Form.toSimple, isName.name,
        scanned.toExpr_form finite, moved]
  | block scanned ih =>
      rw [form, Form.toStmt, if_pos rfl, moved, Form.toStmts_eq_map, forms_eq_map, List.map_map,
        allMoved_eq_map]
      refine congrArg _ (List.map_congr_left ?_)
      intro statement member
      exact ih statement member fun number inside => finite number (mem_allNumbers member inside)

variable {statements : List Stmt} (scanned : ∀ statement ∈ statements, statement.Scanned)
  (finite : ∀ number ∈ allNumbers statements, number.isFinite)

include scanned finite

theorem toStmts_forms :
    Form.toStmts (forms statements) = statements.map (moved fun _ => 0) := by
  rw [Form.toStmts_eq_map, forms_eq_map, List.map_map]
  refine List.map_congr_left ?_
  intro statement member
  exact (scanned statement member).toStmt_form fun number found =>
    finite number (mem_allNumbers member found)

/-- Programs that are written alike are the same but for the lines of their tokens. -/
theorem writeLines_forms_eq_iff {others : List Stmt}
    (scannedOthers : ∀ statement ∈ others, statement.Scanned)
    (finiteOthers : ∀ number ∈ allNumbers others, number.isFinite) :
    Form.writeLines (forms statements) = Form.writeLines (forms others) ↔
      statements.map (moved fun _ => 0) = others.map (moved fun _ => 0) := by
  constructor
  · intro same
    have alike := Form.writeLines_inj (clear_forms scanned finite)
      (clear_forms scannedOthers finiteOthers) same
    rw [← toStmts_forms scanned finite, alike, toStmts_forms scannedOthers finiteOthers]
  · intro same
    rw [← forms_moved scanned, same, forms_moved scannedOthers]

end Stmt

end Lox
