import Lox.Session
import Lox.Proofs.Reporter.Highlight
import Lox.Proofs.Run.Diagnostics

/-!
Switches of a session: what the surroundings of each call decide, and whether the reporter writes
diagnostics out. They change what is shown, and nothing that a later call could tell:
`Session.runAll_indifferent`.
-/

set_option autoImplicit false

namespace Lox

/-- Reporters that hold the same. One may write diagnostics out and the other not. -/
structure Reporter.Agrees (reporter other : Reporter) : Prop where
  messages : reporter.messages = other.messages
  hadError : reporter.hadError = other.hadError
  hadRuntimeError : reporter.hadRuntimeError = other.hadRuntimeError

theorem Reporter.Agrees.exitCode {reporter other : Reporter} (agrees : reporter.Agrees other) :
    reporter.exitCode = other.exitCode := by
  rw [Reporter.exitCode, agrees.hadError, agrees.hadRuntimeError, Reporter.exitCode]

/-- The same diagnostics are held in the same way, whether they are in color or not. -/
theorem Reporter.Agrees.report {reporter other : Reporter} (agrees : reporter.Agrees other)
    (color otherColor : Bool) (diagnostics : List Diagnostic) :
    (reporter.report color diagnostics).1.Agrees (other.report otherColor diagnostics).1 where
  messages := by rw [report_messages, report_messages, agrees.messages]
  hadError := by rw [report_hadError, report_hadError, agrees.hadError]
  hadRuntimeError := by
    rw [report_hadRuntimeError, report_hadRuntimeError, agrees.hadRuntimeError]

namespace Session

/-- What is around a call: the environment variables, and whether diagnostics go to a terminal. -/
structure Surroundings where
  lookUp : String → Option String
  terminal : Bool

def Surroundings.settings (surroundings : Surroundings) : Settings :=
  .ofVariables surroundings.lookUp surroundings.terminal

/-- Sessions with the same variables whose reporters hold the same. -/
structure Agrees (session other : Session) : Prop where
  environment : session.environment = other.environment
  reporter : session.reporter.Agrees other.reporter

/-- The session after a text is run on its variables and its reporter. -/
def afterRun (session : Session) (settings : Settings) (source : String) : Session :=
  (session.take settings (.run source)).1

/-- The session after texts are run on its variables and its reporter, each in surroundings of its
own. -/
def runAll (session : Session) (calls : List (String × Surroundings)) : Session :=
  calls.foldl (fun session (source, surroundings) =>
    session.afterRun surroundings.settings source) session

/-- What comes of a run on the variables and the reporter of a session. -/
structure Runs (settings : Settings) (source dump : String) (before after : Session)
    (outcome : Outcome) : Prop where
  taken : before.take settings (.run source) = (after, .ok outcome)
  environment : after.environment = (Run.execution source before.environment).environment
  output : outcome.output =
    (if settings.dump then dump else "") ++ (Run.execution source before.environment).output
  reported : (after.reporter, outcome.errorOutput) =
    before.reporter.report settings.color (Run.diagnostics source before.environment)

theorem exists_runs (source : String) :
    ∃ dump, Reading.ofSource source >>= Reading.dump = .ok dump ∧
      ∀ settings before, ∃ after outcome, Runs settings source dump before after outcome := by
  obtain ⟨dump, dumped, ran⟩ := Run.exists_ofSource_dumped source
  refine ⟨dump, dumped, ?_⟩
  intro settings before
  let run := Run.telling settings before.reporter (Run.diagnostics source before.environment)
    ((if settings.dump then dump else "") ++ (Run.execution source before.environment).output)
    (Run.execution source before.environment).environment
  refine ⟨{ before with
      environment := run.environment
      reporter := run.reporter
      sink := some .shared },
    ⟨run.output, run.errorOutput, some (.shared, run.reporter), none⟩, ?_, rfl, rfl, rfl⟩
  have chosen : before.choose true true = (before, .shared) := rfl
  have given : before.environmentFor true = before.environment := rfl
  change before.runText settings source true true = _
  rw [runText, chosen]
  dsimp only
  rw [given, ran]
  rfl

theorem Runs.echo {settings : Settings} {source dump : String} {before after : Session}
    {outcome : Outcome} (runs : Runs settings source dump before after outcome) :
    after.reporter.echo = before.reporter.echo :=
  (congrArg (·.1.echo) runs.reported).trans (before.reporter.report_echo settings.color _)

/-- The messages that a run adds are the ones that it writes out. -/
theorem Runs.shows {settings : Settings} {source dump : String} {before after : Session}
    {outcome : Outcome} (runs : Runs settings source dump before after outcome) :
    let reported := (Run.diagnostics source before.environment).map (·.report)
    after.reporter.messages = before.reporter.messages ++ reported ∧
      Reporter.Shows "\x1b[1m\x1b[31m".toList "\x1b[0m".toList before.reporter.echo reported
        outcome.errorOutput := by
  have shown := before.reporter.report_shows settings.color
    (Run.diagnostics source before.environment)
  rw [← runs.reported] at shown
  have messages := congrArg (·.1.messages) runs.reported
  exact ⟨messages.trans (before.reporter.report_messages settings.color _), shown⟩

/-- One call in two sessions. -/
theorem Agrees.runs {session other after otherAfter : Session} (agrees : session.Agrees other)
    {settings otherSettings : Settings} {source dump : String} {outcome otherOutcome : Outcome}
    (runs : Runs settings source dump session after outcome)
    (otherRuns : Runs otherSettings source dump other otherAfter otherOutcome) :
    after.Agrees otherAfter where
  environment := by rw [runs.environment, otherRuns.environment, agrees.environment]
  reporter := by
    have kept := agrees.reporter.report settings.color otherSettings.color
      (Run.diagnostics source session.environment)
    rw [← runs.reported, agrees.environment, ← otherRuns.reported] at kept
    exact kept

theorem Agrees.afterRun {session other : Session} (agrees : session.Agrees other)
    (settings otherSettings : Settings) (source : String) :
    (session.afterRun settings source).Agrees (other.afterRun otherSettings source) := by
  obtain ⟨dump, -, ran⟩ := exists_runs source
  obtain ⟨after, outcome, runs⟩ := ran settings session
  obtain ⟨otherAfter, otherOutcome, otherRuns⟩ := ran otherSettings other
  rw [Session.afterRun, Session.afterRun, runs.taken, otherRuns.taken]
  exact agrees.runs runs otherRuns

theorem Agrees.runAll {session other : Session} (agrees : session.Agrees other)
    {calls otherCalls : List (String × Surroundings)}
    (same : calls.map Prod.fst = otherCalls.map Prod.fst) :
    (session.runAll calls).Agrees (other.runAll otherCalls) := by
  induction calls generalizing session other otherCalls with
  | nil =>
      cases otherCalls with
      | nil => exact agrees
      | cons otherCall otherRest => cases same
  | cons call rest ih =>
      cases otherCalls with
      | nil => cases same
      | cons otherCall otherRest =>
          obtain ⟨source, surroundings⟩ := call
          obtain ⟨otherSource, otherSurroundings⟩ := otherCall
          rw [List.map_cons, List.map_cons, List.cons_eq_cons] at same
          obtain ⟨rfl, sameRest⟩ := same
          exact ih (agrees.afterRun surroundings.settings otherSurroundings.settings source)
            sameRest

theorem runAll_echo (session : Session) (calls : List (String × Surroundings)) :
    (session.runAll calls).reporter.echo = session.reporter.echo := by
  induction calls generalizing session with
  | nil => rfl
  | cons call rest ih =>
      obtain ⟨source, surroundings⟩ := call
      obtain ⟨dump, -, ran⟩ := exists_runs source
      obtain ⟨after, outcome, runs⟩ := ran surroundings.settings session
      change ((session.take surroundings.settings (.run source)).1.runAll rest).reporter.echo = _
      rw [ih, runs.taken]
      exact runs.echo

/-- Two sessions begin alike, but one reporter may write diagnostics out and the other not, and the
same texts are run in both, each in any surroundings. Whatever text is run next, both have the same
variables after it, and reporters that hold the same, with the same exit code. It prints the same in
both, behind a dump that is known from the text and is there if the surroundings ask for it. The
diagnostics that it adds to those that are held are written out in each session, each with at most
one pair of color codes, if its reporter does so; else nothing is. -/
theorem runAll_indifferent {session other : Session} (agrees : session.Agrees other)
    {calls otherCalls : List (String × Surroundings)}
    (same : calls.map Prod.fst = otherCalls.map Prod.fst) (source : String)
    (surroundings otherSurroundings : Surroundings) :
    let before := session.runAll calls
    let otherBefore := other.runAll otherCalls
    let settings := surroundings.settings
    let otherSettings := otherSurroundings.settings
    let boldRed := "\x1b[1m\x1b[31m".toList
    let plain := "\x1b[0m".toList
    ∃ next outcome otherNext otherOutcome dump printed reported,
      before.take settings (.run source) = (next, .ok outcome) ∧
        otherBefore.take otherSettings (.run source) = (otherNext, .ok otherOutcome) ∧
        next.Agrees otherNext ∧ next.reporter.exitCode = otherNext.reporter.exitCode ∧
        Reading.ofSource source >>= Reading.dump = .ok dump ∧
        outcome.output = (if settings.dump then dump else "") ++ printed ∧
        otherOutcome.output = (if otherSettings.dump then dump else "") ++ printed ∧
        next.reporter.messages = before.reporter.messages ++ reported ∧
        Reporter.Shows boldRed plain session.reporter.echo reported outcome.errorOutput ∧
        Reporter.Shows boldRed plain other.reporter.echo reported otherOutcome.errorOutput := by
  intro before otherBefore settings otherSettings boldRed plain
  have agreesBefore : before.Agrees otherBefore := agrees.runAll same
  obtain ⟨dump, dumped, ran⟩ := exists_runs source
  obtain ⟨next, outcome, runs⟩ := ran settings before
  obtain ⟨otherNext, otherOutcome, otherRuns⟩ := ran otherSettings otherBefore
  have agreesNext := agreesBefore.runs runs otherRuns
  obtain ⟨messages, shown⟩ := runs.shows
  obtain ⟨-, otherShown⟩ := otherRuns.shows
  have otherPrinted := otherRuns.output
  rw [session.runAll_echo calls] at shown
  rw [other.runAll_echo otherCalls, ← agreesBefore.environment] at otherShown
  rw [← agreesBefore.environment] at otherPrinted
  exact ⟨next, outcome, otherNext, otherOutcome, dump, _, _, runs.taken, otherRuns.taken,
    agreesNext, agreesNext.reporter.exitCode, dumped, runs.output, otherPrinted, messages, shown,
    otherShown⟩

/-- A text that fails, run after another one. In the first session its diagnostic is written out,
and in the second, where no diagnostics are, the tokens and the tree are dumped. -/
theorem runAll_indifferent_dumped :
    let plain : Surroundings := ⟨fun _ => none, false⟩
    let debugged : Surroundings :=
      ⟨fun name => if name = "LOXDEBUG" then some "1" else none, true⟩
    let session := start true true
    let other := start false true
    session.Agrees other ∧
      [("var a;", plain)].map Prod.fst = [("var a;", debugged)].map Prod.fst ∧
      ∃ next outcome otherNext otherOutcome dump printed,
        (session.runAll [("var a;", plain)]).take plain.settings (.run "print a + 1;") =
            (next, .ok outcome) ∧
          (other.runAll [("var a;", debugged)]).take debugged.settings (.run "print a + 1;") =
            (otherNext, .ok otherOutcome) ∧
          next.Agrees otherNext ∧ outcome.output = printed ∧
          otherOutcome.output = dump ++ printed ∧ otherOutcome.errorOutput = "" := by
  intro plain debugged session other
  have agrees : session.Agrees other := ⟨rfl, rfl, rfl, rfl⟩
  have same : [("var a;", plain)].map Prod.fst = [("var a;", debugged)].map Prod.fst := rfl
  obtain ⟨next, outcome, otherNext, otherOutcome, dump, printed, reported, ran, otherRan,
    agreesNext, -, -, output, otherOutput, -, -, shown⟩ :=
    runAll_indifferent agrees same "print a + 1;" plain debugged
  exact ⟨agrees, same, next, outcome, otherNext, otherOutcome, dump, printed, ran, otherRan,
    agreesNext, output.trans (String.empty_append), otherOutput, shown⟩

end Session

end Lox
