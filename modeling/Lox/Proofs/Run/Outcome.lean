import Lox.Proofs.Run.Reading

/-!
What a run comes to. A text without errors is executed and its failure, if it has one, is reported;
of a text with errors the errors are reported and nothing else is done.
-/

set_option autoImplicit false

namespace Lox

namespace Run

/-- A run that reports some diagnostics and nothing else. -/
def telling (settings : Settings) (reporter : Reporter) (diagnostics : List Diagnostic)
    (output : String) (environment : Environment) : Run where
  output := output
  errorOutput := (reporter.report settings.color diagnostics).2
  environment := environment
  reporter := (reporter.report settings.color diagnostics).1

/-- Proper statements are run to an end, and what stops them is reported. -/
theorem exists_ofStatements {statements : List Stmt}
    (proper : ∀ statement ∈ statements, statement.Proper) (environment : Environment) :
    ∃ failure : Option RuntimeError,
      (Stmt.execAll environment statements).stop = failure.map .failed ∧
        (∀ error ∈ failure, error.IsOrdinary) ∧
          ∀ settings reporter, ofStatements settings statements environment reporter =
            .ok (telling settings reporter (failure.toList.map (·.diagnostic))
              (Stmt.execAll environment statements).output
              (Stmt.execAll environment statements).environment) := by
  have ordinary := Stmt.execAll_isOrdinary proper environment
  obtain ⟨failure, found, stopped, known⟩ := ordinary.failure?
  refine ⟨failure, stopped, known, ?_⟩
  intro settings reporter
  rw [ofStatements, found]
  rfl

variable {source : String} {reading : Reading} (read : Reading.ofSource source = .ok reading)
  {settings : Settings} {dump : String} (written : reading.preamble settings = .ok dump)
  (environment : Environment) (reporter : Reporter)

include read written

/-- A text without errors does what its statements do. -/
theorem ofSource_of_clean (clean : reading.diagnostics = []) :
    ofSource settings source environment reporter =
      (ofStatements settings reading.statements environment reporter).map fun run =>
        { run with output := dump ++ run.output } := by
  rw [ofSource, read]
  change (reading.preamble settings >>= _) = _
  rw [written]
  change (if reading.diagnostics.isEmpty = true then _ else _) = _
  rw [clean]
  cases ofStatements settings reading.statements environment reporter with
  | error fault => rfl
  | ok run => rfl

/-- A text without errors is executed, and the error that stops it, if one does, is reported. -/
theorem exists_ofSource_of_clean (clean : reading.diagnostics = []) :
    ∃ failure : Option RuntimeError,
      (Stmt.execAll environment reading.statements).stop = failure.map .failed ∧
        (∀ error ∈ failure, error.IsOrdinary) ∧
          ∀ reporter, ofSource settings source environment reporter =
            .ok (telling settings reporter (failure.toList.map (·.diagnostic))
              (dump ++ (Stmt.execAll environment reading.statements).output)
              (Stmt.execAll environment reading.statements).environment) := by
  obtain ⟨failure, stopped, ordinary, run⟩ :=
    exists_ofStatements (Reading.statements_proper read) environment
  refine ⟨failure, stopped, ordinary, ?_⟩
  intro reporter
  rw [ofSource_of_clean read written environment reporter clean, run]
  rfl

/-- Of a text with errors, the errors are reported. -/
theorem ofSource_of_wrong (wrong : reading.diagnostics ≠ []) :
    ofSource settings source environment reporter =
      .ok (telling settings reporter reading.diagnostics dump environment) := by
  have inhabited : ¬reading.diagnostics.isEmpty = true := by
    rw [List.isEmpty_iff]
    exact wrong
  rw [ofSource, read]
  change (reading.preamble settings >>= _) = _
  rw [written]
  change (if reading.diagnostics.isEmpty = true then _ else _) = _
  rw [if_neg inhabited]
  rfl

end Run

end Lox
