import Lox.Run

/-!
A session: several runs that share variables and a reporter. A run may be given the variables of
the session, its reporter, both or neither. The variables come with the reporter that the last
run on them used, and that one is used again by a run that is given no other. Reporters are told
apart by keys: one that is used again is the same reporter, with all that it has collected.
-/

set_option autoImplicit false

namespace Lox

/-- Which reporter: that of the session, or one that a run has made for itself, by number. -/
inductive Session.Key where
  | shared
  | own (number : Nat)
  deriving DecidableEq

structure Session where
  environment : Environment
  /-- The reporter of the session. -/
  reporter : Reporter
  /-- The reporters that runs have made for themselves, in the order in which they were made. -/
  made : List Reporter
  /-- The reporter that the variables come with. -/
  sink : Option Session.Key

namespace Session

/-- What can be done in a session. -/
inductive Step where
  /-- Runs a source text, on the variables of the session or on new ones. It is given the reporter
  of the session or none. -/
  | runText (source : String) (onVariables onReporter : Bool)
  /-- Executes statements on the variables. -/
  | interpret (statements : List Stmt)
  /-- Executes what can be read of a source text, whatever is wrong with the rest. -/
  | execute (source : String)
  | reset (key : Key := .shared)
  | dump (source : String)

namespace Step

/-- Runs a source text on the variables and the reporter of the session. -/
def run (source : String) : Step :=
  .runText source true true

/-- Runs it on the variables only. -/
def runOnVariables (source : String) : Step :=
  .runText source true false

/-- Runs it on the reporter only. -/
def runOnReporter (source : String) : Step :=
  .runText source false true

def runAlone (source : String) : Step :=
  .runText source false false

end Step

/-- The reporter that a run used. -/
inductive Used where
  | shared
  | own (reporter : Reporter)

/-- What comes of a step. -/
structure Outcome where
  output : String
  errorOutput : String
  /-- The reporter that a run used, as it stands at its end. -/
  returned : Option (Key × Reporter)
  /-- The error that stopped the statements, for a step that executes them. -/
  failure : Option RuntimeError

/-- The reporter used, for a step that is a run. -/
def Outcome.used (outcome : Outcome) : Option Used :=
  outcome.returned.map fun
    | (.shared, _) => .shared
    | (.own _, reporter) => .own reporter

/-- A session with no variables. They come with the reporter of the session or with none. -/
def start (echo bound : Bool) : Session :=
  ⟨.empty, .new echo, [], if bound then some .shared else none⟩

/-- A reporter as it stands. One that is not made yet is as it will be. -/
def reporterAt (session : Session) : Key → Reporter
  | .shared => session.reporter
  | .own number => session.made.getD number (.new true)

def setReporter (session : Session) (reporter : Reporter) : Key → Session
  | .shared => { session with reporter := reporter }
  | .own number => { session with made := session.made.set number reporter }

/-- The reporter for a run: the one it is given, or else the one that its variables come with, or
else a new one. -/
def choose (session : Session) (onVariables onReporter : Bool) : Session × Key :=
  match onReporter, onVariables, session.sink with
  | true, _, _ => (session, .shared)
  | false, true, some key => (session, key)
  | false, _, _ =>
    ({ session with made := session.made ++ [.new true] }, .own session.made.length)

/-- The variables for a run. -/
def environmentFor (session : Session) (onVariables : Bool) : Environment :=
  if onVariables then session.environment else .empty

/-- Runs a source text. Its variables come with the reporter it uses from now on. -/
def runText (session : Session) (settings : Settings) (source : String)
    (onVariables onReporter : Bool) : Session × Except Fault Outcome :=
  let (session, key) := session.choose onVariables onReporter
  let environment := session.environmentFor onVariables
  match Run.ofSource settings source environment (session.reporterAt key) with
  | .error fault => (session, .error fault)
  | .ok run =>
    let session := session.setReporter run.reporter key
    let session :=
      if onVariables then { session with environment := run.environment, sink := some key }
      else session
    (session, .ok ⟨run.output, run.errorOutput, some (key, run.reporter), none⟩)

/-- Executes statements on the variables. The error that stops them goes to the reporter that the
variables come with, if there is one. -/
def interpret (session : Session) (settings : Settings) (statements : List Stmt) :
    Session × Except Fault Outcome :=
  let execution := Stmt.execAll session.environment statements
  let session := { session with environment := execution.environment }
  match execution.failure?, session.sink with
  | .error fault, _ => (session, .error fault)
  | .ok failure, none => (session, .ok ⟨execution.output, "", none, failure⟩)
  | .ok failure, some key =>
    let (reporter, errorOutput) :=
      (session.reporterAt key).report settings.color (failure.toList.map (·.diagnostic))
    (session.setReporter reporter key, .ok ⟨execution.output, errorOutput, none, failure⟩)

/-- Takes a step, whatever it comes to. -/
def take (session : Session) (settings : Settings) : Step → Session × Except Fault Outcome
  | .runText source onVariables onReporter =>
    session.runText settings source onVariables onReporter
  | .interpret statements => session.interpret settings statements
  | .execute source =>
    match Reading.ofSource source with
    | .error fault => (session, .error fault)
    | .ok reading => session.interpret settings reading.statements
  | .reset key =>
    (session.setReporter (session.reporterAt key).reset key, .ok ⟨"", "", none, none⟩)
  | .dump source =>
    match Reading.ofSource source >>= Reading.dump with
    | .error fault => (session, .error fault)
    | .ok dump => (session, .ok ⟨dump, "", none, none⟩)

/-- Takes a step that comes to an outcome. -/
def perform (session : Session) (settings : Settings) (step : Step) :
    Except Fault (Session × Outcome) :=
  let (next, outcome) := session.take settings step
  outcome.map (next, ·)

end Session

end Lox
