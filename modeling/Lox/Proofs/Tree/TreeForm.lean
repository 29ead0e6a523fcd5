import Lox.Proofs.Lines.Moved
import Lox.Proofs.Number.Written
import Lox.Proofs.Tree.Form
import Lox.Proofs.Tree.Scanned
import Lox.Tree.PrefixForm

/-!
The form of a tree. The prefix form of a scanned program is the lines of its forms,
`Stmt.programForm?_eq`, and these are clear, `Stmt.clear_forms`.
-/

set_option autoImplicit false

namespace Lox

open Segment

def Value.form : Value → Form
  | .text body => .quoted body.toList
  | value => .word value.prefixForm.toList

def Expr.form : Expr → Form
  | .literal value => value.form
  | .group inner => .list "group".toList [inner.form]
  | .unary operator operand => .list operator.lexeme.toList [operand.form]
  | .binary left operator right => .list operator.lexeme.toList [left.form, right.form]
  | .assign name value => .list "=".toList [.word name.lexeme.toList, value.form]
  | .var name => .word name.lexeme.toList
  | .misplaced _ => .word []

mutual

def Stmt.form : Stmt → Form
  | .expression inner => .list ";".toList [inner.form]
  | .print inner => .list "print".toList [inner.form]
  | .declare name none => .list "var".toList [.word name.lexeme.toList]
  | .declare name (some initial) =>
    .list "var".toList [.word name.lexeme.toList, initial.form]
  | .block body => .list "block".toList (Stmt.forms body)
  | .misplaced _ => .word []

def Stmt.forms : List Stmt → List Form
  | [] => []
  | statement :: rest => statement.form :: Stmt.forms rest

end

theorem Stmt.forms_eq_map (statements : List Stmt) : forms statements = statements.map form := by
  induction statements with
  | nil => rfl
  | cons statement rest ih => rw [forms, ih, List.map_cons]

/-! The lines of tokens are not written. -/

theorem Expr.form_moved (move : Int → Int) (expression : Expr) :
    (expression.moved move).form = expression.form := by
  induction expression with
  | literal value => rfl
  | group inner ih => rw [moved, form, form, ih]
  | unary operator operand ih => rw [moved, form, form, ih, Token.moved_lexeme]
  | binary left operator right ih ihRight =>
      rw [moved, form, form, ih, ihRight, Token.moved_lexeme]
  | assign name value ih => rw [moved, form, form, ih, Token.moved_lexeme]
  | var name => rfl
  | misplaced found => rfl

namespace Stmt

variable {move : Int → Int}

theorem Scanned.form_moved {statement : Stmt} (scanned : statement.Scanned) :
    (statement.moved move).form = statement.form := by
  induction scanned with
  | expression scanned => rw [moved, form, form, Expr.form_moved]
  | print scanned => rw [moved, form, form, Expr.form_moved]
  | declare isName => rfl
  | initialized isName scanned => rw [moved, form, form, Expr.form_moved, Token.moved_lexeme]
  | block scanned ih =>
      rw [moved, form, form, allMoved_eq_map, forms_eq_map, forms_eq_map, List.map_map]
      exact congrArg _ (List.map_congr_left ih)

theorem forms_moved {statements : List Stmt}
    (scanned : ∀ statement ∈ statements, statement.Scanned) :
    forms (statements.map (moved move)) = forms statements := by
  rw [forms_eq_map, forms_eq_map, List.map_map]
  exact List.map_congr_left fun statement member => (scanned statement member).form_moved

end Stmt

/-! What is written for a tree is clear. -/

theorem not_isMark_of_isWordPart {char : Char} (part : isWordPart char) : ¬Form.isMark char := by
  intro mark
  simp only [Form.isMark, Bool.or_eq_true, beq_iff_eq] at mark
  rcases mark with (((rfl | rfl) | rfl) | rfl) | rfl <;> exact absurd part (by decide)

theorem Token.IsName.clear {name : Token} (isName : name.IsName) :
    (Form.word name.lexeme.toList).Clear := by
  obtain ⟨first, rest, text, starts, goesOn⟩ := isName.starts
  rw [text]
  have part : isWordPart first := by rw [isWordPart, starts, Bool.true_or]
  refine .word (List.cons_ne_nil first rest) (List.forall_mem_cons.2 ⟨?_, ?_⟩)
  · exact not_isMark_of_isWordPart part
  · exact fun char member => not_isMark_of_isWordPart (goesOn char member)

theorem Number.clear_write {number : Float} (finite : number.isFinite) :
    (Form.word (Number.Style.dumped.write number).toList).Clear := by
  have ending : Number.Style.dumped.EndsInZeros := .inr rfl
  obtain ⟨first, rest, text, -⟩ := Number.exists_first_write ending finite
  refine .word (text ▸ List.cons_ne_nil _ _) ?_
  intro char member
  rcases Number.mem_write ending finite member with digit | sign
  · apply not_isMark_of_isWordPart
    rw [isWordPart, digit, Bool.or_true]
  · have plain : Number.signs.all (!Form.isMark ·) := by decide
    exact Form.plain_of_all plain char sign

theorem Value.clear_form {value : Value} (unquoted : value.IsUnquoted)
    (finite : ∀ number ∈ (Expr.literal value).numbers, number.isFinite) : value.form.Clear := by
  cases value with
  | nil => exact .word (by decide) (Form.plain_of_all (by decide))
  | boolean truth => cases truth <;> exact .word (by decide) (Form.plain_of_all (by decide))
  | number number => exact Number.clear_write (finite number (List.mem_singleton_self number))
  | text body => exact .quoted (unquoted body rfl)

theorem Token.IsOperator.plain {operator : Token} (isOperator : operator.IsOperator) :
    ∀ char ∈ operator.lexeme.toList, ¬Form.isMark char := by
  have plain : ∀ entry ∈ Token.operators, entry.1.all (!Form.isMark ·) := by decide
  exact Form.plain_of_all (plain _ isOperator.listed)

theorem Expr.Scanned.clear_form {expression : Expr} (scanned : expression.Scanned)
    (finite : ∀ number ∈ expression.numbers, number.isFinite) : expression.form.Clear := by
  induction scanned with
  | literal unquoted => exact Value.clear_form unquoted finite
  | group scanned ih => exact .one (Form.plain_of_all (by decide)) (ih finite)
  | unary isOperator scanned ih => exact .one isOperator.plain (ih finite)
  | binary isOperator scanned scannedRight ih ihRight =>
      rw [Expr.numbers, List.forall_mem_append] at finite
      exact .pair isOperator.plain (ih finite.1) (ihRight finite.2)
  | assign isName scanned ih =>
      exact .pair (Form.plain_of_all (by decide)) isName.clear (ih finite)
  | var isName => exact isName.clear

namespace Stmt

theorem Scanned.clear_form {statement : Stmt} (scanned : statement.Scanned)
    (finite : ∀ number ∈ statement.numbers, number.isFinite) : statement.form.Clear := by
  induction scanned with
  | expression scanned => exact .one (Form.plain_of_all (by decide)) (scanned.clear_form finite)
  | print scanned => exact .one (Form.plain_of_all (by decide)) (scanned.clear_form finite)
  | declare isName => exact .one (Form.plain_of_all (by decide)) isName.clear
  | initialized isName scanned =>
      exact .pair (Form.plain_of_all (by decide)) isName.clear (scanned.clear_form finite)
  | block scanned ih =>
      refine .list (Form.plain_of_all (by decide)) ?_
      intro part member
      rw [forms_eq_map] at member
      obtain ⟨statement, inside, rfl⟩ := List.mem_map.1 member
      exact ih statement inside fun number found => finite number (mem_allNumbers inside found)

theorem clear_forms {statements : List Stmt}
    (scanned : ∀ statement ∈ statements, statement.Scanned)
    (finite : ∀ number ∈ allNumbers statements, number.isFinite) :
    ∀ form ∈ forms statements, form.Clear := by
  intro form member
  rw [forms_eq_map] at member
  obtain ⟨statement, inside, rfl⟩ := List.mem_map.1 member
  exact (scanned statement inside).clear_form fun number found =>
    finite number (mem_allNumbers inside found)

end Stmt

/-! The prefix form of a tree is its form, written. -/

namespace Form

/-- A form as text. -/
def text (form : Form) : String :=
  .ofList form.write

theorem intercalate_writes (mark : Char) (first : List Char) (forms : List Form) :
    [mark].intercalate (first :: forms.map write) = first ++ writeEach mark forms := by
  induction forms generalizing first with
  | nil =>
      rw [List.map_nil, List.intercalate_singleton]
      exact (List.append_nil first).symm
  | cons form rest ih =>
      rw [List.map_cons, List.intercalate_cons_cons, ih, writeEach_cons, List.append_assoc,
        List.singleton_append]

theorem map_toList_text (forms : List Form) :
    (forms.map text).map String.toList = forms.map write := by
  simp [text]

theorem toList_text (form : Form) : form.text.toList = form.write :=
  String.toList_ofList

theorem parenthesized_texts (head : String) (forms : List Form) :
    Node.parenthesized head (forms.map text) = (list head.toList forms).text := by
  have spaces := intercalate_writes ' ' head.toList forms
  rw [← map_toList_text, ← List.map_cons] at spaces
  rw [← String.toList_inj, Node.parenthesized, String.toList_append, String.toList_append,
    String.toList_intercalate, toList_text, write, writeParts_eq, ← List.append_assoc]
  exact congrArg (['('] ++ · ++ [')']) spaces

theorem lines_texts (forms : List Form) :
    "\n".intercalate (forms.map text) = .ofList (writeLines forms) := by
  rw [← String.toList_inj, String.toList_intercalate, map_toList_text]
  refine Eq.trans ?_ String.toList_ofList.symm
  cases forms with
  | nil => rfl
  | cons first rest => exact intercalate_writes '\n' first.write rest

end Form

theorem Value.prefixForm_eq (value : Value) : value.prefixForm = value.form.text := by
  cases value with
  | text body =>
      rw [← String.toList_inj, prefixForm, form, Form.toList_text, Form.write, String.toList_append,
        String.toList_append]
      rfl
  | _ => exact String.ofList_toList.symm

/-- A name is written like a word. -/
theorem Form.text_word (word : String) : (Form.word word.toList).text = word :=
  String.ofList_toList

/-- What is bound to a name is written like a form whose first part is the name. -/
theorem Form.parenthesized_name (head name : String) (forms : List Form) :
    Node.parenthesized (head ++ " " ++ name) (forms.map text) =
      (list head.toList (.word name.toList :: forms)).text := by
  rw [← parenthesized_texts, List.map_cons, text_word, Node.parenthesized, Node.parenthesized,
    String.intercalate_cons_append, String.intercalate_cons_cons]

theorem Expr.Scanned.prefixForm?_eq {expression : Expr} (scanned : expression.Scanned) :
    expression.toNode.prefixForm? = some expression.form.text := by
  induction scanned with
  | @literal value unquoted => rw [Expr.toNode, Node.prefixForm?, value.prefixForm_eq, Expr.form]
  | group scanned ih =>
      rw [Expr.toNode, Node.prefixForm?, ih]
      exact congrArg some (Form.parenthesized_texts "group" [_])
  | unary isOperator scanned ih =>
      rw [Expr.toNode, Node.prefixForm?, ih]
      exact congrArg some (Form.parenthesized_texts _ [_])
  | binary isOperator scanned scannedRight ih ihRight =>
      rw [Expr.toNode, Node.prefixForm?, ih, ihRight]
      exact congrArg some (Form.parenthesized_texts _ [_, _])
  | assign isName scanned ih =>
      rw [Expr.toNode, Node.prefixForm?, ih]
      exact congrArg some (Form.parenthesized_name "=" _ [_])
  | var isName => rw [Expr.toNode, Node.prefixForm?, Expr.form, Form.text_word]

namespace Stmt

theorem prefixForms?_of_each {statements : List Stmt}
    (each : ∀ statement ∈ statements, statement.toNode.prefixForm? = some statement.form.text) :
    Node.prefixForms? (toNodes statements) = some ((forms statements).map Form.text) := by
  induction statements with
  | nil => rfl
  | cons statement rest ih =>
      rw [List.forall_mem_cons] at each
      rw [toNodes, Node.prefixForms?, each.1, ih each.2]
      rfl

theorem Scanned.prefixForm?_eq {statement : Stmt} (scanned : statement.Scanned) :
    statement.toNode.prefixForm? = some statement.form.text := by
  induction scanned with
  | expression scanned =>
      rw [toNode, Node.prefixForm?, scanned.prefixForm?_eq]
      exact congrArg some (Form.parenthesized_texts ";" [_])
  | print scanned =>
      rw [toNode, Node.prefixForm?, scanned.prefixForm?_eq]
      exact congrArg some (Form.parenthesized_texts "print" [_])
  | declare isName =>
      rw [toNode, Node.prefixForm?]
      exact congrArg some (Form.parenthesized_name "var" _ [])
  | initialized isName scanned =>
      rw [toNode, Node.prefixForm?, scanned.prefixForm?_eq]
      · exact congrArg some (Form.parenthesized_name "var" _ [_])
      · cases scanned <;> simp [Expr.toNode]
  | block scanned ih =>
      rw [toNode, Node.prefixForm?, prefixForms?_of_each ih]
      exact congrArg some (Form.parenthesized_texts "block" _)

/-- A program is written as the lines of its forms. -/
theorem programForm?_eq {statements : List Stmt}
    (scanned : ∀ statement ∈ statements, statement.Scanned) :
    Node.programForm? (toNodes statements) =
      some (.ofList (Form.writeLines (forms statements))) := by
  have each := prefixForms?_of_each fun statement member =>
    (scanned statement member).prefixForm?_eq
  rw [Node.programForm?, each]
  exact congrArg some (Form.lines_texts _)
end Stmt

end Lox
