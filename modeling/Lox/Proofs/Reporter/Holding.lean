import Lox.Proofs.Reporter.Collected

/-!
What a reporter holds. With the diagnostics known that it was told, all else about it is: its
messages are their reports, and its flags and exit code say of which class they are. So it is after
more of them, `Reporter.Holds.report`, and after a reset, `Reporter.Holds.reset`.
-/

set_option autoImplicit false

namespace Lox

/-- An error that is found before a run: a lexical or a syntax error. -/
def Diagnostic.isOfText : Diagnostic → Bool
  | .scan _ _ => true
  | .parse _ _ => true
  | _ => false

/-- A diagnostic of a run: found before it or during it, and nothing else. -/
def Diagnostic.Arises (diagnostic : Diagnostic) : Prop :=
  diagnostic.isOfText = !diagnostic.isRuntime

theorem ScanError.diagnostic_arises (error : ScanError) : error.diagnostic.Arises := rfl

theorem SyntaxError.diagnostic_arises (error : SyntaxError) : error.diagnostic.Arises := rfl

theorem RuntimeError.diagnostic_arises (error : RuntimeError) : error.diagnostic.Arises := by
  cases error with
  | operation operator cause => rfl
  | undefinedVariable name => rfl

namespace Reporter

/-- A reporter that holds some diagnostics, in order, and nothing else. -/
structure Holds (reporter : Reporter) (diagnostics : List Diagnostic) : Prop where
  arise : ∀ diagnostic ∈ diagnostics, diagnostic.Arises
  messages : reporter.messages = diagnostics.map (·.report)
  hadError : reporter.hadError ↔ ∃ diagnostic ∈ diagnostics, diagnostic.isOfText
  hadRuntimeError : reporter.hadRuntimeError ↔ ∃ diagnostic ∈ diagnostics, diagnostic.isRuntime
  exitCode_zero : reporter.exitCode = 0 ↔ reporter.messages = []
  exitCode_ofText : reporter.exitCode = 65 ↔ reporter.hadError
  exitCode_runtime : reporter.exitCode = 70 ↔ ¬reporter.hadError ∧ reporter.hadRuntimeError

variable {reporter : Reporter} {diagnostics : List Diagnostic}

/-- The flags decide the exit code, and one of them stands if there is any diagnostic. -/
theorem Holds.of_flags (arise : ∀ diagnostic ∈ diagnostics, diagnostic.Arises)
    (messages : reporter.messages = diagnostics.map (·.report))
    (hadError : reporter.hadError ↔ ∃ diagnostic ∈ diagnostics, diagnostic.isOfText)
    (hadRuntimeError :
      reporter.hadRuntimeError ↔ ∃ diagnostic ∈ diagnostics, diagnostic.isRuntime) :
    reporter.Holds diagnostics := by
  obtain ⟨ofText, ofRun, clean⟩ := reporter.exitCode_iff
  refine ⟨arise, messages, hadError, hadRuntimeError, ?_, ofText, ?_⟩
  · rw [clean, messages, List.map_eq_nil_iff]
    constructor
    · rintro ⟨noError, noRuntimeError⟩
      rw [List.eq_nil_iff_forall_not_mem]
      intro diagnostic member
      have arises := arise diagnostic member
      rw [Diagnostic.Arises] at arises
      cases runtime : diagnostic.isRuntime with
      | true => simp [hadRuntimeError.2 ⟨diagnostic, member, runtime⟩] at noRuntimeError
      | false =>
          rw [runtime] at arises
          simp [hadError.2 ⟨diagnostic, member, arises⟩] at noError
    · rintro rfl
      constructor
      · rw [← Bool.not_eq_true, hadError]
        simp
      · rw [← Bool.not_eq_true, hadRuntimeError]
        simp
  · rw [ofRun, Bool.not_eq_true]

theorem holds_new (echo : Bool) : (new echo).Holds [] :=
  .of_flags (by simp only [List.not_mem_nil, false_imp_iff, implies_true]) rfl
    (by simp [new]) (by simp [new])

theorem Holds.reset (reporter : Reporter) : reporter.reset.Holds [] :=
  holds_new reporter.echo

/-- A reporter that is told more holds more. -/
theorem Holds.report {more : List Diagnostic} (holds : reporter.Holds diagnostics)
    (arise : ∀ diagnostic ∈ more, diagnostic.Arises) (color : Bool) :
    (reporter.report color more).1.Holds (diagnostics ++ more) := by
  apply of_flags
  case arise =>
      intro diagnostic member
      rcases List.mem_append.1 member with earlier | later
      · exact holds.arise diagnostic earlier
      · exact arise diagnostic later
  case messages => rw [report_messages, holds.messages, List.map_append]
  case hadError =>
      have classes : (∃ diagnostic ∈ more, diagnostic.isOfText) ↔
          ∃ diagnostic ∈ more, (!diagnostic.isRuntime) = true := by
        refine exists_congr fun diagnostic => and_congr_right fun member => ?_
        rw [arise diagnostic member]
      rw [report_hadError, Bool.or_eq_true, List.any_eq_true, holds.hadError, ← classes]
      simp only [List.mem_append, or_and_right, exists_or]
  case hadRuntimeError =>
      rw [report_hadRuntimeError, Bool.or_eq_true, List.any_eq_true, holds.hadRuntimeError]
      simp only [List.mem_append, or_and_right, exists_or]

/-- A reporter that was told more holds just what it was told last if it held nothing before. -/
theorem Holds.append_iff {earlier own : List Diagnostic}
    (holds : reporter.Holds (earlier ++ own)) : reporter.Holds own ↔ earlier = [] := by
  constructor
  · intro alone
    have lengths := congrArg List.length (holds.messages.symm.trans alone.messages)
    rw [List.length_map, List.length_map, List.length_append] at lengths
    rw [← List.length_eq_zero_iff]
    omega
  · rintro rfl
    exact holds

end Reporter

end Lox
