import Lox.Proofs.Session.Delivery

/-!
Runs that are given the variables of a session and no reporter, where the variables come with none
either. The first run makes one, and the variables come with it from then on, so the later runs use
it again. Each of them returns it with all that was reported so far: `runOnVariables_accumulates`.
-/

set_option autoImplicit false

namespace Lox

namespace Run

/-- The variables that texts leave that are run one after another. -/
def environmentAfter (environment : Environment) : List String → Environment
  | [] => environment
  | source :: rest => environmentAfter (execution source environment).environment rest

/-- What texts report that are run one after another. -/
def diagnosticsAll (environment : Environment) : List String → List Diagnostic
  | [] => []
  | source :: rest =>
    diagnostics source environment ++
      diagnosticsAll (execution source environment).environment rest

end Run

namespace Session

/-- The runs of a session that are given only the variables use one reporter, the first that was
made. It holds some diagnostics. -/
structure Accumulates (session : Session) (reported : List Diagnostic) : Prop where
  sinkIsMade : session.SinkIsMade
  chooses : (session.choose true false).2 = .own 0
  holds : (session.reporterAt (.own 0)).Holds reported

theorem start_accumulates (echo : Bool) : (start echo false).Accumulates [] where
  sinkIsMade := nofun
  chooses := rfl
  holds := Reporter.holds_new true

section

variable {session : Session} {reported : List Diagnostic}

/-- One more run. -/
theorem Accumulates.run (accumulates : session.Accumulates reported) (settings : Settings)
    (source : String) :
    let diagnostics := Run.diagnostics source session.environment
    ∃ next outcome, session.take settings (.runOnVariables source) = (next, .ok outcome) ∧
      outcome.returned = some (.own 0, next.reporterAt (.own 0)) ∧
        next.environment = (Run.execution source session.environment).environment ∧
        next.Accumulates (reported ++ diagnostics) := by
  obtain ⟨next, outcome, ran, returned, -, delivers, sinkIsMade, environment, sink⟩ :=
    exists_runText accumulates.sinkIsMade settings source true false
  rw [accumulates.chooses] at returned delivers sink
  refine ⟨next, outcome, ran, returned, environment, sinkIsMade, ?_, ?_⟩
  · unfold choose
    rw [sink]
    rfl
  · rw [delivers.receives]
    exact accumulates.holds.report (Run.diagnostics_arise source session.environment) settings.color

theorem Accumulates.runAll (accumulates : session.Accumulates reported) (settings : Settings)
    (sources : List String) :
    let next := session.takeAll settings (sources.map .runOnVariables)
    next.environment = Run.environmentAfter session.environment sources ∧
      next.Accumulates (reported ++ Run.diagnosticsAll session.environment sources) := by
  induction sources generalizing session reported with
  | nil =>
      rw [Run.diagnosticsAll, List.append_nil]
      exact ⟨rfl, accumulates⟩
  | cons source rest ih =>
      obtain ⟨next, outcome, ran, -, environment, accumulatesNext⟩ :=
        accumulates.run settings source
      rw [List.map_cons, takeAll, ran, Run.diagnosticsAll, Run.environmentAfter, ← environment,
        ← List.append_assoc]
      exact ih accumulatesNext

end

/-- Texts are run one after another on the same variables, in a session with no reporter for them,
and then one more. The reporter that is returned for it is the same as for the others and holds
what all of them reported. It describes the last run alone just if the ones before it reported
nothing. -/
theorem runOnVariables_accumulates (settings : Settings) (echo : Bool) (sources : List String)
    (source : String) :
    let session := (start echo false).takeAll settings (sources.map .runOnVariables)
    let earlier := Run.diagnosticsAll .empty sources
    let own := Run.diagnostics source (Run.environmentAfter .empty sources)
    ∃ next outcome reporter,
      session.take settings (.runOnVariables source) = (next, .ok outcome) ∧
        outcome.returned = some (.own 0, reporter) ∧ reporter.Holds (earlier ++ own) ∧
          (reporter.Holds own ↔ earlier = []) := by
  intro session earlier own
  obtain ⟨environment, accumulates⟩ := (start_accumulates echo).runAll settings sources
  obtain ⟨next, outcome, ran, returned, -, accumulatesNext⟩ := accumulates.run settings source
  have holds : (next.reporterAt (.own 0)).Holds (earlier ++ own) := by
    have found := accumulatesNext.holds
    rw [environment] at found
    exact found
  exact ⟨next, outcome, _, ran, returned, holds, holds.append_iff⟩

/-- `print nil;` has nothing to report, but it is run after `@`, and the exit code that is returned
for it is 65. -/
theorem runOnVariables_accumulates_unexpected :
    let settings : Settings := ⟨false, false⟩
    ∃ first second one other reporter,
      (start true false).take settings (.runOnVariables "@") = (first, .ok one) ∧
        first.take settings (.runOnVariables "print nil;") = (second, .ok other) ∧
          other.returned = some (.own 0, reporter) ∧
            Run.diagnostics "print nil;" first.environment = [] ∧ reporter.exitCode = 65 ∧
              reporter.messages = ["[line 1] Error: Unexpected character."] := by
  intro settings
  have read : Reading.ofSource "@" =
      .ok ⟨[⟨.endOfInput, "", .nil, 1⟩], [], [⟨.unexpectedCharacter, 1⟩], []⟩ := by
    have scanned : Scan.ofSource "@" =
        ⟨[⟨.endOfInput, "", .nil, 1⟩], [⟨.unexpectedCharacter, 1⟩]⟩ := by decide +kernel
    exact Reading.ofSource_of_program scanned (by cbv)
  have readLater : Reading.ofSource "print nil;" =
      .ok ⟨[⟨.printWord, "print", .nil, 1⟩, ⟨.nilWord, "nil", .nil, 1⟩,
        ⟨.semicolon, ";", .nil, 1⟩, ⟨.endOfInput, "", .nil, 1⟩],
        [.print (.literal .nil)], [], []⟩ := by
    have scanned : Scan.ofSource "print nil;" =
        ⟨[⟨.printWord, "print", .nil, 1⟩, ⟨.nilWord, "nil", .nil, 1⟩,
          ⟨.semicolon, ";", .nil, 1⟩, ⟨.endOfInput, "", .nil, 1⟩], []⟩ := by decide +kernel
    exact Reading.ofSource_of_program scanned (by cbv)
  have told : Run.diagnostics "@" .empty = [.scan 1 "Unexpected character."] :=
    Run.diagnostics_of_wrong read .empty (List.cons_ne_nil _ _)
  have toldLater : Run.diagnostics "print nil;" .empty = [] := by
    rw [Run.diagnostics_of_read readLater, Run.execution_of_clean readLater .empty rfl]
    rfl
  have stays : Run.execution "@" .empty = ⟨[], .empty, none⟩ :=
    Run.execution_of_wrong read .empty (List.cons_ne_nil _ _)
  obtain ⟨first, one, ran, -, environment, accumulates⟩ :=
    (start_accumulates true).run settings "@"
  obtain ⟨second, other, ranLater, returned, -, accumulatesLater⟩ :=
    accumulates.run settings "print nil;"
  have same : first.environment = .empty := environment.trans (congrArg (·.environment) stays)
  have holds : (second.reporterAt (.own 0)).Holds [.scan 1 "Unexpected character."] := by
    have found := accumulatesLater.holds
    rw [same, toldLater, List.append_nil, List.nil_append] at found
    exact told ▸ found
  refine ⟨first, second, one, other, _, ran, ranLater, returned, ?_, ?_, ?_⟩
  · rw [same, toldLater]
  · exact holds.exitCode_ofText.2 (holds.hadError.2 ⟨_, List.mem_singleton_self _, rfl⟩)
  · rw [holds.messages]
    decide +kernel

end Session

end Lox
