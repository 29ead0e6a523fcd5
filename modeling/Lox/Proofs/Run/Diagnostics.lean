import Lox.Proofs.Execution.Depth
import Lox.Proofs.Reporter.Holding
import Lox.Proofs.Run.Totality

/-!
What a run reports: what the scanner finds wrong, then what the parser does, and only if neither
does the error that stops the execution. It is known from the text and the variables alone,
whatever reporter the run is given, and so are the texts printed and the variables left:
`Run.exists_ofSource_dumped`.
-/

set_option autoImplicit false

namespace Lox

/-- The error that a stop reports, if it is one to report. -/
def Stop.diagnostic? : Stop → Option Diagnostic
  | .failed error => some error.diagnostic
  | .notExpression _ => none
  | .notStatement _ => none

theorem Stop.diagnostic?_arises {stop : Stop} {diagnostic : Diagnostic}
    (reported : stop.diagnostic? = some diagnostic) : diagnostic.Arises := by
  cases stop with
  | failed error =>
      cases reported
      exact error.diagnostic_arises
  | notExpression found => cases reported
  | notStatement found => cases reported

namespace Execution

/-- What an execution reports: the error that stopped it, if one did. -/
def diagnostics (execution : Execution) : List Diagnostic :=
  (execution.stop.bind Stop.diagnostic?).toList

theorem diagnostics_of_stop {execution : Execution} {failure : Option RuntimeError}
    (stopped : execution.stop = failure.map .failed) :
    execution.diagnostics = failure.toList.map (·.diagnostic) := by
  rw [diagnostics, stopped]
  cases failure with
  | none => rfl
  | some error => rfl

theorem stop_of_failure {execution : Execution} {failure : Option RuntimeError}
    (failed : execution.failure? = .ok failure) : execution.stop = failure.map .failed := by
  obtain ⟨printed, environment, stopped⟩ := execution
  cases stopped with
  | none =>
      cases failed
      rfl
  | some stop =>
      cases stop with
      | failed error =>
          cases failed
          rfl
      | notExpression found => cases failed
      | notStatement found => cases failed

/-- What stops an execution without being an error to report. -/
theorem diagnostics_of_fault {execution : Execution} {fault : Fault}
    (failed : execution.failure? = .error fault) : execution.diagnostics = [] := by
  obtain ⟨printed, environment, stopped⟩ := execution
  cases stopped with
  | none => cases failed
  | some stop =>
      cases stop with
      | failed error => cases failed
      | notExpression found => rfl
      | notStatement found => rfl

theorem diagnostics_arise (execution : Execution) :
    ∀ diagnostic ∈ execution.diagnostics, diagnostic.Arises := by
  intro diagnostic member
  rw [diagnostics, Option.mem_toList] at member
  obtain ⟨stop, -, reported⟩ := Option.bind_eq_some_iff.1 member
  exact Stop.diagnostic?_arises reported

end Execution

theorem Reading.diagnostics_arise (reading : Reading) :
    ∀ diagnostic ∈ reading.diagnostics, diagnostic.Arises := by
  intro diagnostic member
  rcases List.mem_append.1 member with scan | parse
  · obtain ⟨error, -, rfl⟩ := List.mem_map.1 scan
    exact error.diagnostic_arises
  · obtain ⟨error, -, rfl⟩ := List.mem_map.1 parse
    exact error.diagnostic_arises

namespace Run

/-- What the scanner and then the parser find wrong with a text. -/
def errors (source : String) : List Diagnostic :=
  let scan := Scan.ofSource source
  let parse := (Cursor.start scan.tokens).apply Grammar.program
  scan.errors.map (·.diagnostic) ++ parse.2.errors.map (·.diagnostic)

/-- What is executed of a text: all that it is read as, or nothing if something is wrong with it. -/
def execution (source : String) (environment : Environment) : Execution :=
  match ((Cursor.start (Scan.ofSource source).tokens).apply Grammar.program).1, errors source with
  | .ok statements, [] => Stmt.execAll environment statements
  | _, _ => ⟨[], environment, none⟩

/-- What is wrong with a text or, if nothing is, with running it on some variables. -/
def diagnostics (source : String) (environment : Environment) : List Diagnostic :=
  errors source ++ (execution source environment).diagnostics

section

variable {source : String} {reading : Reading} (read : Reading.ofSource source = .ok reading)
  (environment : Environment)

include read

theorem errors_of_read : errors source = reading.diagnostics :=
  (Reading.diagnostics_eq read).symm

theorem execution_of_clean (clean : reading.diagnostics = []) :
    execution source environment = Stmt.execAll environment reading.statements := by
  rw [execution, Reading.parse_eq read, errors_of_read read, clean]

theorem execution_of_wrong (wrong : reading.diagnostics ≠ []) :
    execution source environment = ⟨[], environment, none⟩ := by
  rw [execution, Reading.parse_eq read, errors_of_read read]
  cases found : reading.diagnostics with
  | nil => exact absurd found wrong
  | cons diagnostic rest => rfl

theorem diagnostics_of_read :
    diagnostics source environment =
      reading.diagnostics ++ (execution source environment).diagnostics := by
  rw [diagnostics, errors_of_read read]

theorem diagnostics_of_wrong (wrong : reading.diagnostics ≠ []) :
    diagnostics source environment = reading.diagnostics := by
  rw [diagnostics_of_read read, execution_of_wrong read environment wrong]
  exact List.append_nil _

end

theorem diagnostics_arise (source : String) (environment : Environment) :
    ∀ diagnostic ∈ diagnostics source environment, diagnostic.Arises := by
  obtain ⟨reading, body, last, read, -⟩ := Reading.exists_ofSource source
  intro diagnostic member
  rw [diagnostics_of_read read] at member
  rcases List.mem_append.1 member with before | during
  · exact reading.diagnostics_arise diagnostic before
  · exact (execution source environment).diagnostics_arise diagnostic during

/-- The errors that are found in a text before it is executed are all that a run of it reports. If
there are none, it reports the error that stops the execution, if one does. -/
theorem exists_diagnostics (source : String) (environment : Environment) :
    let scan := Scan.ofSource source
    let parse := (Cursor.start scan.tokens).apply Grammar.program
    let errors := scan.errors.map (·.diagnostic) ++ parse.2.errors.map (·.diagnostic)
    ∃ statements failure, parse.1 = .ok statements ∧
      (Stmt.execAll environment statements).stop = Option.map .failed failure ∧
        diagnostics source environment =
          if errors.isEmpty then failure.toList.map (·.diagnostic) else errors := by
  intro scan parse errors
  obtain ⟨reading, body, last, read, -⟩ := Reading.exists_ofSource source
  obtain ⟨failure, stopped, -⟩ := exists_ofStatements (Reading.statements_proper read) environment
  have same : errors = reading.diagnostics := errors_of_read read
  refine ⟨reading.statements, failure, Reading.parse_eq read, stopped, ?_⟩
  rw [same]
  by_cases clean : reading.diagnostics = []
  · rw [diagnostics_of_read read, execution_of_clean read environment clean, clean,
      Execution.diagnostics_of_stop stopped]
    rfl
  · rw [diagnostics_of_wrong read environment clean, if_neg]
    rwa [List.isEmpty_iff]

theorem execution_isGlobal (source : String) {environment : Environment}
    (isGlobal : environment.isGlobal) : (execution source environment).environment.isGlobal := by
  unfold execution
  split
  · exact Stmt.execAll_isGlobal isGlobal _
  · exact isGlobal

theorem telling_reported (settings : Settings) (reporter : Reporter)
    (diagnostics : List Diagnostic) (output : String) (environment : Environment) :
    let run := telling settings reporter diagnostics output environment
    (run.reporter, run.errorOutput) = reporter.report settings.color diagnostics := rfl

/-- A run prints what the execution prints, leaves the variables that it leaves and reports the
same whatever its reporter. In front of all that stands the dump of the text, if it is asked for. -/
theorem exists_ofSource_dumped (source : String) :
    ∃ dump, Reading.ofSource source >>= Reading.dump = .ok dump ∧
      ∀ settings environment reporter, ofSource settings source environment reporter =
        .ok (telling settings reporter (diagnostics source environment)
          ((if settings.dump then dump else "") ++ (execution source environment).output)
          (execution source environment).environment) := by
  obtain ⟨reading, body, last, read, -⟩ := Reading.exists_ofSource source
  obtain ⟨dump, dumped⟩ := Reading.exists_dump read
  refine ⟨dump, by rw [read]; exact dumped, ?_⟩
  intro settings environment reporter
  have written : reading.preamble settings = .ok (if settings.dump then dump else "") := by
    rw [Reading.preamble, dumped]
    split
    · rfl
    · rfl
  by_cases clean : reading.diagnostics = []
  · obtain ⟨failure, stopped, -, run⟩ := exists_ofSource_of_clean read written environment clean
    rw [run, diagnostics_of_read read, execution_of_clean read environment clean, clean,
      Execution.diagnostics_of_stop stopped]
    rfl
  · rw [ofSource_of_wrong read written environment reporter clean,
      diagnostics_of_wrong read environment clean, execution_of_wrong read environment clean]
    congr 1
    congr 1
    exact (String.append_empty).symm

theorem exists_ofSource_telling (settings : Settings) (source : String) :
    ∃ dump, (settings.dump = false → dump = "") ∧ ∀ environment reporter,
      ofSource settings source environment reporter =
        .ok (telling settings reporter (diagnostics source environment)
          (dump ++ (execution source environment).output)
          (execution source environment).environment) := by
  obtain ⟨dump, -, run⟩ := exists_ofSource_dumped source
  refine ⟨if settings.dump then dump else "", ?_, run settings⟩
  intro noDump
  rw [noDump]
  rfl

/-- A run without a dump. -/
theorem ofSource_eq_telling {settings : Settings} (noDump : settings.dump = false)
    (source : String) (environment : Environment) (reporter : Reporter) :
    ofSource settings source environment reporter =
      .ok (telling settings reporter (diagnostics source environment)
        (execution source environment).output (execution source environment).environment) := by
  obtain ⟨dump, empty, run⟩ := exists_ofSource_telling settings source
  rw [run, empty noDump, String.empty_append]

end Run

end Lox
