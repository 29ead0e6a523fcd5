import Lox.Proofs.Scope.Completed

/-!
The scopes that are open. Only a block opens one, and it closes it however it ends, so statements
leave as many scopes open as there were: `Stmt.execAll_depth`. What begins in the global scope ends
there.
-/

set_option autoImplicit false

namespace Lox

namespace Environment

/-- The number of open scopes inside the global one. -/
def depth : Environment → Nat
  | .global _ => 0
  | .inner _ outer => outer.depth + 1

theorem isGlobal_iff (environment : Environment) :
    environment.isGlobal ↔ environment.depth = 0 := by
  cases environment with
  | global scope => simp [isGlobal, depth]
  | inner scope outer => simp [isGlobal, depth]

theorem eq_global {environment : Environment} (isGlobal : environment.isGlobal) :
    environment = .global environment.globals := by
  cases environment with
  | global scope => rfl
  | inner scope outer => cases isGlobal

theorem Declares.depth_eq {names : List String} {outer : List (List String)}
    {environment : Environment} (declares : environment.Declares (names :: outer)) :
    environment.depth = outer.length := by
  induction environment generalizing names outer with
  | global scope =>
      cases declares
      rfl
  | inner scope enclosing ih =>
      cases declares with
      | inner same rest =>
          obtain ⟨outerNames, further, rfl⟩ := List.exists_cons_of_ne_nil rest.ne_nil
          rw [depth, ih rest, List.length_cons]

end Environment

/-- Statements of any kind, also those that stop, leave as many scopes open as there were. -/
theorem Stmt.execAll_depth (environment : Environment) (statements : List Stmt) :
    (execAll environment statements).environment.depth = environment.depth := by
  have before := environment.declares_names
  rw [environment.names_eq] at before
  obtain ⟨later, after, -⟩ := exists_execAll_declares environment statements
  rw [before.depth_eq, after.depth_eq]

theorem Stmt.execAll_isGlobal {environment : Environment} (isGlobal : environment.isGlobal)
    (statements : List Stmt) : (execAll environment statements).environment.isGlobal := by
  rw [Environment.isGlobal_iff, execAll_depth]
  exact environment.isGlobal_iff.1 isGlobal

end Lox
