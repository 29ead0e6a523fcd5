import Lox.Invocation
import Lox.Proofs.Run.Diagnostics

/-!
Lines typed at the prompt. However a line ends, only the global scope is open after it and nothing
is reported any more, so all that one line can do to a later one it does through the globals. A
line with lexical or syntax errors does nothing to them: the lines around it run as they do without
it, which is `runLines_around`.
-/

set_option autoImplicit false

namespace Lox.Prompt

/-- Only the global scope is open, and nothing is reported. -/
structure IsClear (prompt : Prompt) : Prop where
  isGlobal : prompt.environment.isGlobal
  nothingReported : prompt.reporter = .new true

theorem start_isClear : start.IsClear :=
  ⟨rfl, rfl⟩

/-- When the prompt is clear, all that stays from earlier lines is the globals. -/
theorem IsClear.eq_of_globals {prompt other : Prompt} (clear : prompt.IsClear)
    (otherClear : other.IsClear)
    (same : prompt.environment.globals = other.environment.globals) : prompt = other := by
  obtain ⟨environment, reporter⟩ := prompt
  obtain ⟨otherEnvironment, otherReporter⟩ := other
  obtain ⟨isGlobal, rfl⟩ := clear
  obtain ⟨otherIsGlobal, rfl⟩ := otherClear
  have environments : environment = otherEnvironment :=
    calc environment = .global environment.globals := Environment.eq_global isGlobal
      _ = .global otherEnvironment.globals := congrArg Environment.global same
      _ = otherEnvironment := (Environment.eq_global otherIsGlobal).symm
  rw [environments]

/-- Nothing is reported any more of a run that began with nothing reported. -/
theorem reset_telling (settings : Settings) (diagnostics : List Diagnostic) (output : String)
    (environment : Environment) :
    (Run.telling settings (.new true) diagnostics output environment).reporter.reset =
      .new true := by
  show Reporter.new (Reporter.report (.new true) settings.color diagnostics).1.echo = .new true
  rw [Reporter.report_echo]
  rfl

theorem runLines_cons {settings : Settings} {prompt left : Prompt} {line : String}
    {rest : List String} {run : Run} {runs : List Run}
    (ran : prompt.runLine settings line = .ok run)
    (ranRest : (after run).runLines settings rest = .ok (runs, left)) :
    prompt.runLines settings (line :: rest) = .ok (run :: runs, left) := by
  rw [runLines, ran]
  change ((after run).runLines settings rest >>= _) = _
  rw [ranRest]
  rfl

section

variable {prompt : Prompt} (clear : prompt.IsClear) (settings : Settings)

include clear

/-- A line comes to an end, and the prompt is clear again. -/
theorem IsClear.exists_runLine (line : String) :
    ∃ run, prompt.runLine settings line = .ok run ∧ (after run).IsClear := by
  obtain ⟨dump, -, ran⟩ := Run.exists_ofSource_telling settings line
  refine ⟨_, ran prompt.environment prompt.reporter,
    Run.execution_isGlobal line clear.isGlobal, ?_⟩
  rw [clear.nothingReported]
  exact reset_telling settings _ _ _

theorem IsClear.exists_runLines (lines : List String) :
    ∃ runs left, prompt.runLines settings lines = .ok (runs, left) ∧ left.IsClear ∧
      runs.length = lines.length := by
  induction lines generalizing prompt with
  | nil => exact ⟨[], prompt, rfl, clear, rfl⟩
  | cons line rest ih =>
      obtain ⟨run, ran, clearAfter⟩ := clear.exists_runLine settings line
      obtain ⟨runs, left, ranRest, clearLeft, length⟩ := ih clearAfter
      exact ⟨run :: runs, left, runLines_cons ran ranRest, clearLeft, congrArg (· + 1) length⟩

/-- A line with lexical or syntax errors reports them, and leaves the prompt as it was. -/
theorem IsClear.runLine_of_wrong (noDump : settings.dump = false) {line : String}
    {reading : Reading} (read : Reading.ofSource line = .ok reading)
    (wrong : reading.diagnostics ≠ []) :
    ∃ own, prompt.runLine settings line = .ok own ∧ after own = prompt ∧ own.output = "" ∧
      own.environment = prompt.environment ∧
        (own.reporter, own.errorOutput) =
          Reporter.report (.new true) settings.color reading.diagnostics := by
  have ran := Run.ofSource_of_wrong read (Reading.preamble_of_noDump noDump reading)
    prompt.environment prompt.reporter wrong
  rw [clear.nothingReported] at ran
  refine ⟨_, ?_, ?_, rfl, rfl, Run.telling_reported settings (.new true) _ _ _⟩
  · rw [runLine, clear.nothingReported]
    exact ran
  · obtain ⟨environment, reporter⟩ := prompt
    obtain ⟨-, rfl⟩ := clear
    rw [after, reset_telling]
    rfl

end

variable {settings : Settings}

/-- Lines and then other lines, with what stays in between. -/
theorem runLines_append {prompt middle left : Prompt} {first second : List String}
    {runs more : List Run} (ran : prompt.runLines settings first = .ok (runs, middle))
    (ranMore : middle.runLines settings second = .ok (more, left)) :
    prompt.runLines settings (first ++ second) = .ok (runs ++ more, left) := by
  induction first generalizing prompt runs with
  | nil =>
      cases ran
      exact ranMore
  | cons line rest ih =>
      rw [runLines] at ran
      cases ranLine : prompt.runLine settings line with
      | error fault =>
          rw [ranLine] at ran
          cases ran
      | ok run =>
          rw [ranLine] at ran
          change ((after run).runLines settings rest >>= _) = _ at ran
          cases ranRest : (after run).runLines settings rest with
          | error fault =>
              rw [ranRest] at ran
              cases ran
          | ok found =>
              rw [ranRest] at ran
              cases ran
              exact runLines_cons ranLine (ih ranRest)

theorem run_of_runLines {lines : List String} {runs : List Run} {left : Prompt}
    (ran : start.runLines settings lines = .ok (runs, left)) (ending : Ending) :
    run settings ending lines = .ok (invocation ending runs) := by
  rw [run, ran]
  rfl

/-- One run between others shows its mark and its output, and nothing else. -/
theorem exists_invocation (ending : Ending) (firsts lasts : List Run) :
    ∃ shown told shownAfter toldAfter,
      invocation ending (firsts ++ lasts) = ⟨.code 0, shown ++ shownAfter, told ++ toldAfter⟩ ∧
        ∀ own : Run, invocation ending (firsts ++ own :: lasts) =
          ⟨.code 0, shown ++ (mark ++ own.output ++ shownAfter),
            told ++ (own.errorOutput ++ toldAfter)⟩ := by
  refine ⟨banner ++ .join (firsts.map (mark ++ ·.output)), .join (firsts.map (·.errorOutput)),
    .join (lasts.map (mark ++ ·.output)) ++ (mark ++ ending.text),
    .join (lasts.map (·.errorOutput)), ?_, ?_⟩
  · simp only [invocation, List.map_append, String.join_append, String.append_assoc]
  · intro own
    simp only [invocation, List.map_append, List.map_cons, String.join_append, String.join_cons,
      String.append_assoc]

/-- Lines with another one put between them. If that one has lexical or syntax errors, they run as
they do without it, each with the same output, variables and diagnostics; it shows its mark and
reports its errors. Whatever the lines before others did, these do the same after all lines that
leave the same globals. -/
theorem runLines_around (color : Bool) (before after : List String) :
    let settings : Settings := ⟨false, color⟩
    ∃ firsts middle lasts left, start.runLines settings before = .ok (firsts, middle) ∧
      start.runLines settings (before ++ after) = .ok (firsts ++ lasts, left) ∧
        firsts.length = before.length ∧ lasts.length = after.length ∧
          (∀ line : String,
            let scan := Scan.ofSource line
            let parse := (Cursor.start scan.tokens).apply Grammar.program
            let errors := scan.errors.map (·.diagnostic) ++ parse.2.errors.map (·.diagnostic)
            scan.errors ≠ [] ∨ parse.2.errors ≠ [] →
              ∃ own, start.runLines settings (before ++ line :: after) =
                  .ok (firsts ++ own :: lasts, left) ∧
                own.output = "" ∧ own.environment = middle.environment ∧
                  (own.reporter, own.errorOutput) = Reporter.report (.new true) color errors ∧
                    ∀ ending, ∃ shown told shownAfter toldAfter,
                      run settings ending (before ++ after) =
                        .ok ⟨.code 0, shown ++ shownAfter, told ++ toldAfter⟩ ∧
                      run settings ending (before ++ line :: after) =
                        .ok ⟨.code 0, shown ++ (mark ++ shownAfter),
                          told ++ (own.errorOutput ++ toldAfter)⟩) ∧
            ∀ (others : List String) (runs : List Run) (reached : Prompt),
              start.runLines settings others = .ok (runs, reached) →
                reached.environment.globals = middle.environment.globals →
                  start.runLines settings (others ++ after) = .ok (runs ++ lasts, left) := by
  intro settings
  obtain ⟨firsts, middle, ran, clear, length⟩ := start_isClear.exists_runLines settings before
  obtain ⟨lasts, left, ranAfter, -, lengthAfter⟩ := clear.exists_runLines settings after
  refine ⟨firsts, middle, lasts, left, ran, runLines_append ran ranAfter, length, lengthAfter,
    ?_, ?_⟩
  · intro line scan parse errors isWrong
    obtain ⟨reading, body, last, read, -⟩ := Reading.exists_ofSource line
    have same : reading.diagnostics = errors := Reading.diagnostics_eq read
    have wrong : reading.diagnostics ≠ [] := by
      rw [same, Ne, List.append_eq_nil_iff, List.map_eq_nil_iff, List.map_eq_nil_iff,
        Classical.not_and_iff_not_or_not]
      exact isWrong
    obtain ⟨own, ranOwn, stays, output, environment, told⟩ :=
      clear.runLine_of_wrong settings rfl read wrong
    have ranLater : middle.runLines settings (line :: after) = .ok (own :: lasts, left) := by
      apply runLines_cons ranOwn
      rw [stays]
      exact ranAfter
    refine ⟨own, runLines_append ran ranLater, output, environment, ?_, ?_⟩
    · rw [← same]
      exact told
    · intro ending
      obtain ⟨shown, told, shownAfter, toldAfter, without, around⟩ :=
        exists_invocation ending firsts lasts
      refine ⟨shown, told, shownAfter, toldAfter, ?_, ?_⟩
      · rw [run_of_runLines (runLines_append ran ranAfter), without]
      · rw [run_of_runLines (runLines_append ran ranLater), around, output, String.append_empty]
  · intro others runs reached ranOthers sameGlobals
    obtain ⟨found, foundReached, ranFound, clearReached, -⟩ :=
      start_isClear.exists_runLines settings others
    rw [ranOthers] at ranFound
    cases ranFound
    have sameState : reached = middle := clearReached.eq_of_globals clear sameGlobals
    rw [← sameState] at ranAfter
    exact runLines_append ranOthers ranAfter

end Lox.Prompt
