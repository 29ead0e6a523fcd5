import Lox.Operation
import Lox.Reporter
import Lox.Scan
import Lox.Grammar.Reply

/-!
What a reporter holds after a report: what it held before and the new reports behind it, in order.
Each of the two flags stands as soon as there was a diagnostic for it, and then stays.
-/

set_option autoImplicit false

namespace Lox

theorem ScanError.diagnostic_isRuntime (error : ScanError) :
    error.diagnostic.isRuntime = false := rfl

theorem SyntaxError.diagnostic_isRuntime (error : SyntaxError) :
    error.diagnostic.isRuntime = false := rfl

theorem RuntimeError.diagnostic_isRuntime (error : RuntimeError) :
    error.diagnostic.isRuntime = true := by
  cases error with
  | operation operator cause => rfl
  | undefinedVariable name => rfl

namespace Reporter

theorem report_eq_collected (reporter : Reporter) (color : Bool) (diagnostics : List Diagnostic) :
    (reporter.report color diagnostics).1 = diagnostics.foldl collect reporter := rfl

theorem report_messages (reporter : Reporter) (color : Bool) (diagnostics : List Diagnostic) :
    (reporter.report color diagnostics).1.messages =
      reporter.messages ++ diagnostics.map (·.report) := by
  rw [report_eq_collected]
  induction diagnostics generalizing reporter with
  | nil => simp
  | cons diagnostic rest ih =>
      rw [List.foldl_cons, ih, List.map_cons]
      simp only [collect, List.append_assoc, List.singleton_append]

theorem report_hadError (reporter : Reporter) (color : Bool) (diagnostics : List Diagnostic) :
    (reporter.report color diagnostics).1.hadError =
      (reporter.hadError || diagnostics.any (!·.isRuntime)) := by
  rw [report_eq_collected]
  induction diagnostics generalizing reporter with
  | nil => simp
  | cons diagnostic rest ih =>
      rw [List.foldl_cons, ih, List.any_cons]
      simp only [collect, Bool.or_assoc]

theorem report_hadRuntimeError (reporter : Reporter) (color : Bool)
    (diagnostics : List Diagnostic) :
    (reporter.report color diagnostics).1.hadRuntimeError =
      (reporter.hadRuntimeError || diagnostics.any (·.isRuntime)) := by
  rw [report_eq_collected]
  induction diagnostics generalizing reporter with
  | nil => simp
  | cons diagnostic rest ih =>
      rw [List.foldl_cons, ih, List.any_cons]
      simp only [collect, Bool.or_assoc]

theorem report_echo (reporter : Reporter) (color : Bool) (diagnostics : List Diagnostic) :
    (reporter.report color diagnostics).1.echo = reporter.echo := by
  rw [report_eq_collected]
  induction diagnostics generalizing reporter with
  | nil => rfl
  | cons diagnostic rest ih =>
      rw [List.foldl_cons, ih]
      rfl

/-- The exit code tells which flags stand. -/
theorem exitCode_iff (reporter : Reporter) :
    (reporter.exitCode = 65 ↔ reporter.hadError = true) ∧
      (reporter.exitCode = 70 ↔ reporter.hadError = false ∧ reporter.hadRuntimeError = true) ∧
        (reporter.exitCode = 0 ↔ reporter.hadError = false ∧ reporter.hadRuntimeError = false) := by
  unfold exitCode
  cases reporter.hadError <;> cases reporter.hadRuntimeError <;> decide

end Reporter

end Lox
