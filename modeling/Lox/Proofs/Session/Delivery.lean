import Mathlib.Data.List.GetD
import Lox.Session
import Lox.Proofs.Run.Diagnostics

/-!
Where diagnostics go in a session. A step tells them to one reporter at most, and the others stay
as they are, so after any steps each reporter holds what it was told since it last forgot:
`takeAll_delivers`.
-/

set_option autoImplicit false

namespace Lox.Session

/-- What happens to a reporter. -/
inductive Event where
  | told (key : Key) (diagnostic : Diagnostic)
  | forgot (key : Key)

/-- What a reporter holds after an event, with what it held before. -/
def Event.held (key : Key) (before : List Diagnostic) : Event → List Diagnostic
  | .told other diagnostic => if other = key then before ++ [diagnostic] else before
  | .forgot other => if other = key then [] else before

/-- What a reporter holds after some events. -/
def held (key : Key) (events : List Event) : List Diagnostic :=
  events.foldl (Event.held key) []

/-- Diagnostics told to one reporter. -/
def told (key : Key) (diagnostics : List Diagnostic) : List Event :=
  diagnostics.map (.told key)

theorem held_append_told (key other : Key) (events : List Event)
    (diagnostics : List Diagnostic) :
    held other (events ++ told key diagnostics) =
      if key = other then held other events ++ diagnostics else held other events := by
  rw [held, List.foldl_append]
  change (told key diagnostics).foldl (Event.held other) (held other events) = _
  generalize held other events = before
  induction diagnostics generalizing before with
  | nil =>
      rw [List.append_nil, ite_self]
      rfl
  | cons diagnostic rest ih =>
      rw [told, List.map_cons, List.foldl_cons]
      change (told key rest).foldl (Event.held other) _ = _
      rw [ih, Event.held]
      split
      · rw [List.append_assoc, List.singleton_append]
      · rfl

theorem held_append_forgot (key other : Key) (events : List Event) :
    held other (events ++ [.forgot key]) = if key = other then [] else held other events := by
  rw [held, List.foldl_append]
  rfl

/-- Whether a reporter is there. -/
def IsMade (session : Session) : Key → Prop
  | .shared => True
  | .own number => number < session.made.length

section

variable {session : Session} {key : Key}

theorem reporterAt_setReporter (reporter : Reporter) (isMade : session.IsMade key) :
    (session.setReporter reporter key).reporterAt key = reporter := by
  cases key with
  | shared => rfl
  | own number =>
      show (session.made.set number reporter).getD number (.new true) = reporter
      rw [List.getD_eq_getElem?_getD, List.getElem?_set_self isMade, Option.getD_some]

theorem reporterAt_setReporter_of_ne {other : Key} (reporter : Reporter) (ne : other ≠ key) :
    (session.setReporter reporter key).reporterAt other = session.reporterAt other := by
  cases key with
  | shared =>
      cases other with
      | shared => exact absurd rfl ne
      | own number => rfl
  | own number =>
      cases other with
      | shared => rfl
      | own otherNumber =>
          have numbers : number ≠ otherNumber := by
            rintro rfl
            exact ne rfl
          show (session.made.set number reporter).getD otherNumber (.new true) =
            session.made.getD otherNumber (.new true)
          rw [List.getD_eq_getElem?_getD, List.getElem?_set_ne numbers,
            List.getD_eq_getElem?_getD]

theorem environment_setReporter (reporter : Reporter) :
    (session.setReporter reporter key).environment = session.environment := by
  cases key with
  | shared => rfl
  | own number => rfl

theorem sink_setReporter (reporter : Reporter) :
    (session.setReporter reporter key).sink = session.sink := by
  cases key with
  | shared => rfl
  | own number => rfl

theorem setReporter_of_not_isMade (notMade : ¬session.IsMade key) (reporter : Reporter) :
    session.setReporter reporter key = session := by
  cases key with
  | shared => exact absurd trivial notMade
  | own number =>
      rw [setReporter, List.set_eq_of_length_le (Nat.le_of_not_lt notMade)]

/-- One that is not there is as new. -/
theorem reporterAt_of_not_isMade (notMade : ¬session.IsMade key) :
    session.reporterAt key = .new true := by
  cases key with
  | shared => exact absurd trivial notMade
  | own number =>
      show session.made.getD number (.new true) = .new true
      rw [List.getD_eq_getElem?_getD, List.getElem?_eq_none (Nat.le_of_not_lt notMade),
        Option.getD_none]

theorem isMade_setReporter {other : Key} (reporter : Reporter) (isMade : session.IsMade other) :
    (session.setReporter reporter key).IsMade other := by
  cases key with
  | shared => exact isMade
  | own number =>
      cases other with
      | shared => trivial
      | own otherNumber =>
          show otherNumber < (session.made.set number reporter).length
          rw [List.length_set]
          exact isMade

end

/-- Diagnostics are told to a reporter, and the others stay as they are. -/
structure Delivers (color : Bool) (key : Key) (diagnostics : List Diagnostic)
    (before after : Session) : Prop where
  receives : after.reporterAt key = ((before.reporterAt key).report color diagnostics).1
  others : ∀ other, other ≠ key → after.reporterAt other = before.reporterAt other

/-- The variables come with a reporter that is there, if with any. -/
def SinkIsMade (session : Session) : Prop :=
  ∀ key, session.sink = some key → session.IsMade key

/-- A reporter is chosen. It is there, and the choice changes nothing that was there before. -/
structure Chooses (before after : Session) (key : Key) : Prop where
  environment : after.environment = before.environment
  sink : after.sink = before.sink
  reporters : ∀ other, after.reporterAt other = before.reporterAt other
  remain : ∀ other, before.IsMade other → after.IsMade other
  isMade : after.IsMade key

section

variable {session : Session}

theorem chooses_self {key : Key} (isMade : session.IsMade key) : session.Chooses session key :=
  ⟨rfl, rfl, fun _ => rfl, fun _ => id, isMade⟩

/-- A reporter that is new anyway is made. -/
theorem chooses_own :
    session.Chooses { session with made := session.made ++ [.new true] }
      (.own session.made.length) where
  environment := rfl
  sink := rfl
  reporters := by
    intro other
    cases other with
    | shared => rfl
    | own number =>
        show (session.made ++ [Reporter.new true]).getD number (.new true) =
          session.made.getD number (.new true)
        by_cases inside : number < session.made.length
        · exact List.getD_append _ _ _ _ inside
        · have beyond : session.made.length ≤ number := Nat.le_of_not_lt inside
          rw [List.getD_append_right _ _ _ _ beyond, List.getD_eq_default _ _ beyond]
          cases number - session.made.length with
          | zero => rfl
          | succ further => rfl
  remain := by
    intro other isMade
    cases other with
    | shared => trivial
    | own number =>
        show number < (session.made ++ [Reporter.new true]).length
        rw [List.length_append]
        exact Nat.lt_add_right _ isMade
  isMade := by
    show session.made.length < (session.made ++ [Reporter.new true]).length
    rw [List.length_append]
    exact Nat.lt_succ_self _

theorem choose_chooses (sinkIsMade : session.SinkIsMade) (onVariables onReporter : Bool) :
    session.Chooses (session.choose onVariables onReporter).1
      (session.choose onVariables onReporter).2 := by
  unfold choose
  split
  · exact chooses_self trivial
  · rename_i key sink
    exact chooses_self (sinkIsMade key sink)
  · exact chooses_own

theorem SinkIsMade.setReporter (sinkIsMade : session.SinkIsMade) (reporter : Reporter)
    (key : Key) : (session.setReporter reporter key).SinkIsMade := by
  intro other found
  rw [sink_setReporter] at found
  exact isMade_setReporter reporter (sinkIsMade other found)

theorem Chooses.sinkIsMade {chosen : Session} {key : Key} (chooses : session.Chooses chosen key)
    (sinkIsMade : session.SinkIsMade) : chosen.SinkIsMade := by
  intro other found
  rw [chooses.sink] at found
  exact chooses.remain other (sinkIsMade other found)

theorem Chooses.delivers {chosen : Session} {key : Key} (chooses : session.Chooses chosen key)
    (color : Bool) (diagnostics : List Diagnostic) :
    session.Delivers color key diagnostics
      (chosen.setReporter ((session.reporterAt key).report color diagnostics).1 key) where
  receives := reporterAt_setReporter _ chooses.isMade
  others := fun other ne => (reporterAt_setReporter_of_ne _ ne).trans (chooses.reporters other)

theorem delivers_setReporter {key : Key} (isMade : session.IsMade key) (color : Bool)
    (diagnostics : List Diagnostic) :
    session.Delivers color key diagnostics
      (session.setReporter ((session.reporterAt key).report color diagnostics).1 key) :=
  (chooses_self isMade).delivers color diagnostics

/-- A run comes to an outcome. It tells all that it reports to the reporter that it returns, and
its variables come with that one from then on. -/
theorem exists_runText (sinkIsMade : session.SinkIsMade) (settings : Settings) (source : String)
    (onVariables onReporter : Bool) :
    let key := (session.choose onVariables onReporter).2
    let environment := session.environmentFor onVariables
    let diagnostics := Run.diagnostics source environment
    ∃ next outcome, session.runText settings source onVariables onReporter = (next, .ok outcome) ∧
      outcome.returned = some (key, next.reporterAt key) ∧
        outcome.errorOutput =
          ((session.reporterAt key).report settings.color diagnostics).2 ∧
        session.Delivers settings.color key diagnostics next ∧ next.SinkIsMade ∧
        next.environment = (if onVariables then (Run.execution source environment).environment
          else session.environment) ∧
        next.sink = if onVariables then some key else session.sink := by
  have chooses := choose_chooses sinkIsMade onVariables onReporter
  unfold runText
  generalize session.choose onVariables onReporter = chosen at *
  obtain ⟨chosen, key⟩ := chosen
  dsimp only at *
  obtain ⟨dump, -, ran⟩ := Run.exists_ofSource_telling settings source
  have delivers := chooses.delivers settings.color
    (Run.diagnostics source (session.environmentFor onVariables))
  have sameVariables : chosen.environmentFor onVariables = session.environmentFor onVariables := by
    rw [environmentFor, chooses.environment]
    rfl
  rw [sameVariables, chooses.reporters, ran]
  have returned := congrArg (fun reporter => some (key, reporter)) delivers.receives.symm
  -- A run on new variables leaves those of the session alone, with what they come with.
  cases onVariables with
  | false =>
      refine ⟨_, _, rfl, returned, rfl, delivers,
        (chooses.sinkIsMade sinkIsMade).setReporter _ key, ?_, ?_⟩
      · exact (environment_setReporter _).trans chooses.environment
      · exact (sink_setReporter _).trans chooses.sink
  | true =>
      refine ⟨_, _, rfl, returned, rfl, ⟨delivers.receives, delivers.others⟩, ?_, rfl, rfl⟩
      have isMade : ∀ reporter, (chosen.setReporter reporter key).IsMade key :=
        fun reporter => isMade_setReporter reporter chooses.isMade
      rintro other ⟨⟩
      exact isMade _

/-- What comes of diagnostics for all that reporters hold. -/
theorem Delivers.holds {color : Bool} {key : Key} {diagnostics : List Diagnostic}
    {next : Session} {events : List Event}
    (delivers : session.Delivers color key diagnostics next)
    (arise : ∀ diagnostic ∈ diagnostics, diagnostic.Arises)
    (holds : ∀ other, (session.reporterAt other).Holds (held other events)) :
    ∀ other, (next.reporterAt other).Holds (held other (events ++ told key diagnostics)) := by
  intro other
  rw [held_append_told]
  split
  · rename_i same
    cases same
    rw [delivers.receives]
    exact (holds key).report arise color
  · rename_i ne
    rw [delivers.others other (Ne.symm ne)]
    exact holds other

end

/-- The diagnostics that statements tell, if the variables come with a reporter. -/
def interpretEvents (session : Session) (statements : List Stmt) : List Event :=
  match session.sink with
  | none => []
  | some key => told key (Stmt.execAll session.environment statements).diagnostics

/-- What a step makes happen to reporters. -/
def events (session : Session) : Step → List Event
  | .runText source onVariables onReporter =>
    told (session.choose onVariables onReporter).2
      (Run.diagnostics source (session.environmentFor onVariables))
  | .interpret statements => session.interpretEvents statements
  | .execute source =>
    match ((Cursor.start (Scan.ofSource source).tokens).apply Grammar.program).1 with
    | .error _ => []
    | .ok statements => session.interpretEvents statements
  | .reset key => [.forgot key]
  | .dump _ => []

/-- Only the global scope is open, the variables come with a reporter that is there, if with any,
and each reporter holds what some events leave it. -/
structure Accounts (session : Session) (events : List Event) : Prop where
  isGlobal : session.environment.isGlobal
  sinkIsMade : session.SinkIsMade
  holds : ∀ key, (session.reporterAt key).Holds (held key events)

section

variable {session : Session} {past : List Event}

theorem start_accounts (echo bound : Bool) : (start echo bound).Accounts [] where
  isGlobal := rfl
  sinkIsMade := by
    intro key sink
    cases bound with
    | false => cases sink
    | true =>
        cases sink
        trivial
  holds := by
    intro key
    cases key with
    | shared => exact Reporter.holds_new echo
    | own number => exact Reporter.holds_new true

theorem Accounts.withEnvironment (accounts : session.Accounts past) {environment : Environment}
    (isGlobal : environment.isGlobal) :
    Accounts { session with environment := environment } past :=
  ⟨isGlobal, accounts.sinkIsMade, accounts.holds⟩

theorem Accounts.runText (accounts : session.Accounts past) (settings : Settings)
    (source : String) (onVariables onReporter : Bool) :
    (session.runText settings source onVariables onReporter).1.Accounts
      (past ++ session.events (.runText source onVariables onReporter)) := by
  obtain ⟨next, outcome, ran, -, -, delivers, sinkIsMade, environment, -⟩ :=
    exists_runText accounts.sinkIsMade settings source onVariables onReporter
  rw [ran]
  refine ⟨?_, sinkIsMade, delivers.holds (Run.diagnostics_arise _ _) accounts.holds⟩
  show next.environment.isGlobal
  rw [environment]
  split
  · rename_i given
    rw [environmentFor, if_pos given]
    exact Run.execution_isGlobal source accounts.isGlobal
  · exact accounts.isGlobal

theorem Accounts.tell (accounts : session.Accounts past) {key : Key}
    (isMade : session.IsMade key) {diagnostics : List Diagnostic}
    (arise : ∀ diagnostic ∈ diagnostics, diagnostic.Arises) (color : Bool) :
    (session.setReporter ((session.reporterAt key).report color diagnostics).1 key).Accounts
      (past ++ told key diagnostics) where
  isGlobal := by
    rw [environment_setReporter]
    exact accounts.isGlobal
  sinkIsMade := accounts.sinkIsMade.setReporter _ key
  holds := (delivers_setReporter isMade color diagnostics).holds arise accounts.holds

theorem Accounts.interpret (accounts : session.Accounts past) (settings : Settings)
    (statements : List Stmt) :
    (session.interpret settings statements).1.Accounts
      (past ++ session.interpretEvents statements) := by
  have executed := accounts.withEnvironment (Stmt.execAll_isGlobal accounts.isGlobal statements)
  have arise := (Stmt.execAll session.environment statements).diagnostics_arise
  unfold Session.interpret interpretEvents
  dsimp only
  cases sink : session.sink with
  | none =>
      rw [sink] at executed
      rw [List.append_nil]
      cases (Stmt.execAll session.environment statements).failure? with
      | error fault => exact executed
      | ok failure => exact executed
  | some key =>
      rw [sink] at executed
      cases failed : (Stmt.execAll session.environment statements).failure? with
      | error fault =>
          rw [Execution.diagnostics_of_fault failed]
          simpa only [told, List.map_nil, List.append_nil] using executed
      | ok failure =>
          rw [Execution.diagnostics_of_stop (Execution.stop_of_failure failed)] at arise ⊢
          exact executed.tell (accounts.sinkIsMade key sink) arise settings.color

theorem Accounts.reset (accounts : session.Accounts past) (key : Key) :
    (session.setReporter (session.reporterAt key).reset key).Accounts
      (past ++ [.forgot key]) where
  isGlobal := by
    rw [environment_setReporter]
    exact accounts.isGlobal
  sinkIsMade := accounts.sinkIsMade.setReporter _ key
  holds := by
    intro other
    rw [held_append_forgot]
    split
    · rename_i same
      cases same
      by_cases isMade : session.IsMade key
      · rw [reporterAt_setReporter _ isMade]
        exact .reset _
      · rw [setReporter_of_not_isMade isMade, reporterAt_of_not_isMade isMade]
        exact Reporter.holds_new true
    · rename_i ne
      rw [reporterAt_setReporter_of_ne _ (Ne.symm ne)]
      exact accounts.holds other

/-- One step. -/
theorem Accounts.take (accounts : session.Accounts past) (settings : Settings) (step : Step) :
    (session.take settings step).1.Accounts (past ++ session.events step) := by
  cases step with
  | runText source onVariables onReporter =>
      exact accounts.runText settings source onVariables onReporter
  | interpret statements => exact accounts.interpret settings statements
  | execute source =>
      obtain ⟨reading, body, last, read, -⟩ := Reading.exists_ofSource source
      rw [Session.take, events, read, Reading.parse_eq read]
      exact accounts.interpret settings reading.statements
  | reset key => exact accounts.reset key
  | dump source =>
      rw [Session.take, events, List.append_nil]
      split
      · exact accounts
      · exact accounts

end

/-- Takes steps one after another, whatever they come to. -/
def takeAll (session : Session) (settings : Settings) : List Step → Session
  | [] => session
  | step :: rest => (session.take settings step).1.takeAll settings rest

/-- What steps make happen to reporters, in order. -/
def history (session : Session) (settings : Settings) : List Step → List Event
  | [] => []
  | step :: rest => session.events step ++ (session.take settings step).1.history settings rest

theorem Accounts.takeAll {session : Session} {past : List Event} (accounts : session.Accounts past)
    (settings : Settings) (steps : List Step) :
    (session.takeAll settings steps).Accounts (past ++ session.history settings steps) := by
  induction steps generalizing session past with
  | nil =>
      rw [history, List.append_nil]
      exact accounts
  | cons step rest ih =>
      rw [history, ← List.append_assoc]
      exact ih (accounts.take settings step)

/-- After any steps, only the global scope is open, and each reporter holds what it was told since
it last forgot and nothing else. Whatever run comes next, it ends with an outcome. What the scanner
and then the parser find wrong with its text or, if they find nothing, the error that stops its
statements is told to the reporter that it returns, which is the one that it was given if it was
given one, and the others stay as they are. -/
theorem takeAll_delivers (settings : Settings) (echo bound : Bool) (steps : List Step) :
    let session := (start echo bound).takeAll settings steps
    let history := (start echo bound).history settings steps
    session.environment.isGlobal ∧
      (∀ key, (session.reporterAt key).Holds (held key history)) ∧
        ∀ source onVariables onReporter,
          let run := Step.runText source onVariables onReporter
          let scan := Scan.ofSource source
          let parse := (Cursor.start scan.tokens).apply Grammar.program
          let errors := scan.errors.map (·.diagnostic) ++ parse.2.errors.map (·.diagnostic)
          ∃ statements failure, parse.1 = .ok statements ∧
            (Stmt.execAll (session.environmentFor onVariables) statements).stop =
              Option.map .failed failure ∧
            let diagnostics :=
              if errors.isEmpty then failure.toList.map (·.diagnostic) else errors
            ∃ key next outcome, session.take settings run = (next, .ok outcome) ∧
              outcome.returned = some (key, next.reporterAt key) ∧
                (onReporter → key = .shared) ∧ session.events run = told key diagnostics ∧
                  (next.reporterAt key, outcome.errorOutput) =
                    (session.reporterAt key).report settings.color diagnostics ∧
                  ∀ other, other ≠ key → next.reporterAt other = session.reporterAt other := by
  intro session history
  have accounts : session.Accounts history := (start_accounts echo bound).takeAll settings steps
  refine ⟨accounts.isGlobal, accounts.holds, ?_⟩
  intro source onVariables onReporter run scan parse errors
  obtain ⟨statements, failure, parsed, stopped, same⟩ :=
    Run.exists_diagnostics source (session.environmentFor onVariables)
  obtain ⟨next, outcome, ran, returned, errorOutput, delivers, -⟩ :=
    exists_runText accounts.sinkIsMade settings source onVariables onReporter
  refine ⟨statements, failure, parsed, stopped, ?_⟩
  intro diagnostics
  have told : Run.diagnostics source (session.environmentFor onVariables) = diagnostics := same
  rw [told] at delivers errorOutput
  refine ⟨_, next, outcome, ran, returned, ?_, congrArg _ told,
    Prod.ext delivers.receives errorOutput, delivers.others⟩
  rintro rfl
  rfl

end Lox.Session
