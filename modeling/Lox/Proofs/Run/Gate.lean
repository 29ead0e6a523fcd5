import Lox.Proofs.Reporter.Collected
import Lox.Proofs.Run.Outcome

/-!
The gate in front of an execution: `ofSource_gate`. A text with lexical or syntax errors is not
executed at all, and one without is. What was reported before a run decides nothing in it.
-/

set_option autoImplicit false

namespace Lox

namespace Run

/-- Nothing is executed, and the errors of the text are reported. -/
structure Refuses (run : Run) (environment : Environment) (reporter : Reporter)
    (errors : List Diagnostic) : Prop where
  output : run.output = ""
  environment : run.environment = environment
  messages : run.reporter.messages = reporter.messages ++ errors.map (·.report)
  hadError : run.reporter.hadError = true
  hadRuntimeError : run.reporter.hadRuntimeError = reporter.hadRuntimeError

/-- All is as an execution leaves it, and what stopped that is reported. -/
structure Executes (run : Run) (execution : Execution) (failure : Option RuntimeError)
    (reporter : Reporter) : Prop where
  output : run.output = execution.output
  environment : run.environment = execution.environment
  messages : run.reporter.messages =
    reporter.messages ++ failure.toList.map (·.diagnostic.report)
  hadError : run.reporter.hadError = reporter.hadError
  hadRuntimeError : run.reporter.hadRuntimeError = (reporter.hadRuntimeError || failure.isSome)

theorem telling_refuses (settings : Settings) (reporter : Reporter) (environment : Environment)
    {errors : List Diagnostic} (wrong : errors ≠ [])
    (before : ∀ diagnostic ∈ errors, diagnostic.isRuntime = false) :
    (telling settings reporter errors "" environment).Refuses environment reporter errors := by
  refine ⟨rfl, rfl, reporter.report_messages settings.color errors, ?_, ?_⟩
  · show (reporter.report settings.color errors).1.hadError = true
    rw [reporter.report_hadError, Bool.or_eq_true, List.any_eq_true]
    obtain ⟨diagnostic, member⟩ := List.exists_mem_of_ne_nil errors wrong
    exact Or.inr ⟨diagnostic, member, by rw [before diagnostic member]; rfl⟩
  · show (reporter.report settings.color errors).1.hadRuntimeError = reporter.hadRuntimeError
    have none : errors.any (·.isRuntime) = false := by
      rw [List.any_eq_false]
      intro diagnostic member
      rw [before diagnostic member]
      exact Bool.false_ne_true
    rw [reporter.report_hadRuntimeError, none, Bool.or_false]

theorem telling_executes (settings : Settings) (reporter : Reporter) (execution : Execution)
    (failure : Option RuntimeError) :
    (telling settings reporter (failure.toList.map (·.diagnostic)) execution.output
      execution.environment).Executes execution failure reporter := by
  constructor
  case output => rfl
  case environment => rfl
  case messages =>
      rw [telling, reporter.report_messages, List.map_map]
      rfl
  case hadError =>
      rw [telling, reporter.report_hadError]
      cases failure with
      | none => simp
      | some error => simp [error.diagnostic_isRuntime]
  case hadRuntimeError =>
      rw [telling, reporter.report_hadRuntimeError]
      cases failure with
      | none => simp
      | some error => simp [error.diagnostic_isRuntime]

end Run

theorem Reading.diagnostics_before (reading : Reading) :
    ∀ diagnostic ∈ reading.diagnostics, diagnostic.isRuntime = false := by
  intro diagnostic member
  rcases List.mem_append.1 member with scan | parse
  · obtain ⟨error, -, rfl⟩ := List.mem_map.1 scan
    exact error.diagnostic_isRuntime
  · obtain ⟨error, -, rfl⟩ := List.mem_map.1 parse
    exact error.diagnostic_isRuntime

theorem Reading.diagnostics_ne_nil (reading : Reading) :
    reading.diagnostics ≠ [] ↔ reading.scanErrors ≠ [] ∨ reading.syntaxErrors ≠ [] := by
  rw [diagnostics, Ne, List.append_eq_nil_iff, List.map_eq_nil_iff, List.map_eq_nil_iff,
    Classical.not_and_iff_not_or_not]

namespace Run

/-- The gate reads what is wrong with the text, and nothing of what the reporter holds. -/
theorem exists_ofSource_gated (settings : Settings) (noDump : settings.dump = false)
    {source : String} {reading : Reading} (read : Reading.ofSource source = .ok reading)
    (environment : Environment) :
    ∃ failure : Option RuntimeError,
      (Stmt.execAll environment reading.statements).stop = failure.map .failed ∧
        ∀ reporter, ∃ done, ofSource settings source environment reporter = .ok done ∧
          (reading.diagnostics ≠ [] →
            done.Refuses environment reporter reading.diagnostics) ∧
            (reading.diagnostics = [] →
              done.Executes (Stmt.execAll environment reading.statements) failure reporter) := by
  have written := Reading.preamble_of_noDump noDump reading
  by_cases clean : reading.diagnostics = []
  · obtain ⟨failure, stopped, -, run⟩ := exists_ofSource_of_clean read written environment clean
    refine ⟨failure, stopped, fun reporter =>
      ⟨_, run reporter, fun wrong => absurd clean wrong, ?_⟩⟩
    intro _
    rw [String.empty_append]
    exact telling_executes settings reporter (Stmt.execAll environment reading.statements) failure
  · obtain ⟨failure, stopped, -, -⟩ :=
      exists_ofStatements (Reading.statements_proper read) environment
    refine ⟨failure, stopped, fun reporter =>
      ⟨_, ofSource_of_wrong read written environment reporter clean, ?_,
        fun noErrors => absurd noErrors clean⟩⟩
    intro wrong
    exact telling_refuses settings reporter environment wrong reading.diagnostics_before

theorem Refuses.exitCode {run : Run} {environment : Environment} {echo : Bool}
    {errors : List Diagnostic} (refuses : run.Refuses environment (.new echo) errors) :
    run.reporter.exitCode = 65 := by
  rw [run.reporter.exitCode_iff.1]
  exact refuses.hadError

theorem Executes.exitCode {run : Run} {execution : Execution} {failure : Option RuntimeError}
    {echo : Bool} (executes : run.Executes execution failure (.new echo)) :
    run.reporter.exitCode = if failure.isSome then 70 else 0 := by
  have hadError : run.reporter.hadError = false := executes.hadError
  have hadRuntimeError : run.reporter.hadRuntimeError = failure.isSome := by
    rw [executes.hadRuntimeError]
    rfl
  cases failure with
  | none => exact run.reporter.exitCode_iff.2.2.2 ⟨hadError, hadRuntimeError⟩
  | some error => exact run.reporter.exitCode_iff.2.1.2 ⟨hadError, hadRuntimeError⟩

/-- A run of a text with lexical or syntax errors executes nothing and reports those errors; a run
of one without executes what is read and reports at most the error that stops it. Both do so
whatever was reported before, and the exit code of a new reporter tells which of the two it was. -/
theorem ofSource_gate (color : Bool) (source : String) (environment : Environment) :
    let scan := Scan.ofSource source
    let parse := (Cursor.start scan.tokens).apply Grammar.program
    let errors := scan.errors.map (·.diagnostic) ++ parse.2.errors.map (·.diagnostic)
    let wrong := scan.errors ≠ [] ∨ parse.2.errors ≠ []
    let run := ofSource ⟨false, color⟩ source environment
    ∃ statements failure, parse.1 = .ok statements ∧
      (Stmt.execAll environment statements).stop = Option.map .failed failure ∧
        (∀ reporter, ∃ done, run reporter = .ok done ∧
          (wrong → done.Refuses environment reporter errors) ∧
            (¬wrong → done.Executes (Stmt.execAll environment statements) failure reporter)) ∧
          (∀ reporter other, ∃ done also, run reporter = .ok done ∧ run other = .ok also ∧
            done.output = also.output ∧ done.environment = also.environment) ∧
            ∀ echo, ∃ done, run (.new echo) = .ok done ∧
              (done.reporter.exitCode = 65 ↔ wrong) ∧
                (done.reporter.exitCode = 70 ↔ ¬wrong ∧ failure.isSome) ∧
                  (done.reporter.exitCode = 0 ↔ ¬wrong ∧ failure = none) := by
  intro scan parse errors wrong run
  obtain ⟨reading, body, last, read, scanned, tokens, -, -, parsed⟩ :=
    Reading.exists_ofSource source
  have result : parse.1 = .ok reading.statements ∧ parse.2.errors = reading.syntaxErrors := by
    change ((Cursor.start (Scan.ofSource source).tokens).apply Grammar.program).1 = _ ∧
      ((Cursor.start (Scan.ofSource source).tokens).apply Grammar.program).2.errors = _
    rw [Cursor.apply_start, scanned, parsed]
    exact ⟨rfl, rfl⟩
  have scanErrors : scan.errors = reading.scanErrors := congrArg Scan.errors scanned
  have same : errors = reading.diagnostics := by
    change scan.errors.map _ ++ parse.2.errors.map _ = _
    rw [scanErrors, result.2]
    rfl
  have isWrong : wrong ↔ errors ≠ [] := by
    rw [same, reading.diagnostics_ne_nil, ← scanErrors, ← result.2]
  have isClean : ¬wrong ↔ errors = [] := by
    rw [isWrong, Classical.not_not]
  obtain ⟨failure, stopped, gated⟩ := exists_ofSource_gated ⟨false, color⟩ rfl read environment
  rw [← same, ← isWrong, ← isClean] at gated
  refine ⟨reading.statements, failure, result.1, stopped, gated, ?_, ?_⟩
  · intro reporter other
    obtain ⟨done, ran, refuses, executes⟩ := gated reporter
    obtain ⟨also, ranOther, refusesOther, executesOther⟩ := gated other
    refine ⟨done, also, ran, ranOther, ?_⟩
    by_cases isIt : wrong
    · have refused := refuses isIt
      have refusedOther := refusesOther isIt
      exact ⟨refused.output.trans refusedOther.output.symm,
        refused.environment.trans refusedOther.environment.symm⟩
    · have executed := executes isIt
      have executedOther := executesOther isIt
      exact ⟨executed.output.trans executedOther.output.symm,
        executed.environment.trans executedOther.environment.symm⟩
  · intro echo
    obtain ⟨done, ran, refuses, executes⟩ := gated (.new echo)
    refine ⟨done, ran, ?_⟩
    by_cases isIt : wrong
    · rw [(refuses isIt).exitCode]
      simp [isIt]
    · rw [(executes isIt).exitCode]
      cases failure with
      | none => simp [isIt]
      | some error => simp [isIt]

end Run

end Lox
