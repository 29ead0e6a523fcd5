import Lox.Execution
import Lox.Scan
import Lox.Proofs.Grammar.Answer

/-!
The same things on other lines. A token carries the line it was found on, and so does whatever is
made of tokens or blamed on one; `moved` gives each of these another line and changes nothing else.
-/

set_option autoImplicit false

namespace Lox

variable (move : Int → Int)

def Token.moved (token : Token) : Token :=
  { token with line := move token.line }

def ScanError.moved (error : ScanError) : ScanError :=
  { error with line := move error.line }

def SyntaxError.moved (error : SyntaxError) : SyntaxError :=
  { error with token := error.token.moved move }

/-- A tree that is misplaced stays as it is; no grammar rule makes one. -/
def Expr.moved : Expr → Expr
  | .literal value => .literal value
  | .group inner => .group inner.moved
  | .unary operator operand => .unary (operator.moved move) operand.moved
  | .binary left operator right => .binary left.moved (operator.moved move) right.moved
  | .assign name value => .assign (name.moved move) value.moved
  | .var name => .var (name.moved move)
  | .misplaced found => .misplaced found

mutual

def Stmt.moved : Stmt → Stmt
  | .expression inner => .expression (inner.moved move)
  | .print inner => .print (inner.moved move)
  | .declare name none => .declare (name.moved move) none
  | .declare name (some initial) => .declare (name.moved move) (some (initial.moved move))
  | .block body => .block (Stmt.allMoved body)
  | .misplaced found => .misplaced found

def Stmt.allMoved : List Stmt → List Stmt
  | [] => []
  | statement :: rest => statement.moved :: Stmt.allMoved rest

end

def RuntimeError.moved : RuntimeError → RuntimeError
  | .operation operator cause => .operation (operator.moved move) cause
  | .undefinedVariable name => .undefinedVariable (name.moved move)

def Stop.moved : Stop → Stop
  | .failed error => .failed (error.moved move)
  | .notExpression found => .notExpression found
  | .notStatement found => .notStatement found

def Execution.moved (execution : Execution) : Execution :=
  { execution with stop := execution.stop.map (Stop.moved move) }

def Diagnostic.moved : Diagnostic → Diagnostic
  | .scan line message => .scan (move line) message
  | .parse token message => .parse (token.moved move) message
  | .runtime token message => .runtime (token.moved move) message
  | .undefinedVariable name => .undefinedVariable (name.moved move)
  | .other line message report => .other (move line) message report

namespace Token

@[simp] theorem moved_kind (token : Token) : (token.moved move).kind = token.kind := rfl

@[simp] theorem moved_lexeme (token : Token) : (token.moved move).lexeme = token.lexeme := rfl

@[simp] theorem moved_isEnd (token : Token) : (token.moved move).isEnd = token.isEnd := rfl

end Token

namespace Diagnostic

@[simp] theorem moved_message (diagnostic : Diagnostic) :
    (diagnostic.moved move).message = diagnostic.message := by
  cases diagnostic <;> rfl

@[simp] theorem moved_line (diagnostic : Diagnostic) :
    (diagnostic.moved move).line = move diagnostic.line := by
  cases diagnostic <;> rfl

@[simp] theorem moved_isRuntime (diagnostic : Diagnostic) :
    (diagnostic.moved move).isRuntime = diagnostic.isRuntime := by
  cases diagnostic <;> rfl

end Diagnostic

@[simp] theorem RuntimeError.moved_diagnostic (error : RuntimeError) :
    (error.moved move).diagnostic = error.diagnostic.moved move := by
  cases error with
  | operation operator cause => cases cause <;> rfl
  | undefinedVariable name => rfl

@[simp] theorem SyntaxError.moved_diagnostic (error : SyntaxError) :
    (error.moved move).diagnostic = error.diagnostic.moved move := rfl

@[simp] theorem ScanError.moved_diagnostic (error : ScanError) :
    (error.moved move).diagnostic = error.diagnostic.moved move := rfl

namespace Stmt

theorem allMoved_eq_map (statements : List Stmt) :
    Stmt.allMoved move statements = statements.map (Stmt.moved move) := by
  induction statements with
  | nil => rfl
  | cons statement rest ih => rw [allMoved, ih, List.map_cons]

end Stmt

namespace Grammar

def Halt.moved : Halt → Halt
  | .refused error => .refused (error.moved move)
  | .overrun => .overrun

namespace Reply

variable {α β : Type}

/-- An answer on other lines. What it has for a result is given another line by `result`. -/
def moved (result : α → α) (reply : Reply α) : Reply α where
  outcome :=
    match reply.outcome with
    | .ok found => .ok (result found)
    | .error halt => .error (halt.moved move)
  errors := reply.errors.map (SyntaxError.moved move)
  rest := reply.rest.map (Token.moved move)

@[simp] theorem moved_follow (result : α → α) (errors : List SyntaxError) (reply : Reply α) :
    (reply.follow errors).moved move result =
      (reply.moved move result).follow (errors.map (SyntaxError.moved move)) := by
  simp [moved, follow]

theorem moved_map (first : α → α) (last : β → β) (build built : α → β)
    (same : ∀ found, last (build found) = built (first found)) (reply : Reply α) :
    (reply.map build).moved move last = (reply.moved move first).map built := by
  obtain ⟨outcome, errors, rest⟩ := reply
  cases outcome with
  | ok found => simp [moved, map, Except.map, same]
  | error halt => rfl

end Reply

end Grammar

end Lox
