import Mathlib.Data.List.Forall2
import Lox.Proofs.Reporter.Holding
import Lox.Proofs.Scan.Shape

/-!
What is emphasized in a report. An error that is found before a run has the word `Error` emphasized
that follows its line number, whatever marks its lexeme and its message contain, and an error of a
run has its first line: `Reporter.highlightWith_report`. All else that is written out for reports is
the reports, each on a line of its own: `Reporter.report_shows`.
-/

set_option autoImplicit false

namespace Lox

theorem Diagnostic.not_mem_lineText (line : Int) : ']' ∉ (lineText line).toList := by
  have digits : ']' ∉ Nat.toDigits 10 line.natAbs := by
    intro member
    have isDigit := Nat.isDigit_of_mem_toDigits (by decide) (by decide) member
    revert isDigit
    decide
  rw [lineText]
  split
  · simpa using digits
  · simpa using digits

namespace Reporter

/-- A mark is found behind a text that its first character is not in. -/
theorem splitAtMark?_append {first : Char} {before : List Char} (unmarked : first ∉ before)
    (mark after : List Char) :
    splitAtMark? (first :: mark) (before ++ (first :: mark) ++ after) = some (before, after) := by
  induction before with
  | nil => simp [splitAtMark?]
  | cons char rest ih =>
      rw [List.mem_cons, not_or] at unmarked
      have different : (first == char) = false := by simpa using unmarked.1
      rw [List.cons_append, List.cons_append, splitAtMark?, List.isPrefixOf, different,
        ih unmarked.2]
      rfl

/-- What begins a text up to a stop and does not contain the stop begins the part before it. -/
theorem prefix_of_prefix_stop {text before after : List Char} {stop : Char}
    (without : stop ∉ text) (ahead : text <+: before ++ stop :: after) : text <+: before := by
  have further : before ++ [stop] <+: before ++ stop :: after :=
    (List.prefix_append_right_inj before).2 (List.prefix_append [stop] after)
  rcases List.prefix_or_prefix_of_prefix ahead further with inside | beyond
  · rcases List.prefix_concat_iff.1 inside with rfl | inside
    · simp at without
    · exact inside
  · have member : stop ∈ text := beyond.subset (by simp)
    exact absurd member without

/-- Where the report of an error before a run begins: the line number and a blank. -/
def heading (line : Int) : List Char :=
  (Diagnostic.lineMark line ++ " ").toList

section

variable (emphasize : List Char → List Char)

theorem highlightWith_label (line : Int) (after : List Char) :
    highlightWith emphasize (heading line ++ "Error".toList ++ after) =
      heading line ++ emphasize "Error".toList ++ after := by
  -- The mark that is looked for ends the line number, which is the first place it can be.
  let number := "[line ".toList ++ (Diagnostic.lineText line).toList
  have parts : heading line = number ++ "] ".toList := by
    simp [heading, number, Diagnostic.lineMark]
  have unmarked : ']' ∉ number := by
    simpa [number] using Diagnostic.not_mem_lineText line
  have mark : labelMark = "] ".toList ++ "Error".toList := rfl
  have report : heading line ++ "Error".toList ++ after = number ++ labelMark ++ after := by
    rw [parts, mark, List.append_assoc number]
  have begins : "[line ".toList.isPrefixOf (number ++ labelMark ++ after) = true := by
    rw [List.isPrefixOf_iff_prefix, List.append_assoc, List.append_assoc]
    exact List.prefix_append _ _
  have split : splitAtMark? labelMark (number ++ labelMark ++ after) = some (number, after) :=
    splitAtMark?_append unmarked " Error".toList after
  rw [report, highlightWith, begins, split, parts]

theorem highlightWith_firstLine {first : List Char} (whole : '\n' ∉ first) (rest : List Char)
    (other : ¬"[line ".toList <+: first ++ '\n' :: rest) :
    highlightWith emphasize (first ++ '\n' :: rest) = emphasize first ++ '\n' :: rest := by
  have without : "[line ".toList.isPrefixOf (first ++ '\n' :: rest) = false := by
    rwa [← Bool.not_eq_true, List.isPrefixOf_iff_prefix]
  rw [highlightWith, without, Segment.takeWhile_ne_append whole, Segment.dropWhile_ne_append whole]

end

/-- The report of an error before a run is the label, between the line number and the rest. -/
theorem exists_report_ofText {diagnostic : Diagnostic} (ofText : diagnostic.isOfText) :
    ∃ after, diagnostic.report.toList = heading diagnostic.line ++ "Error".toList ++ after := by
  cases diagnostic with
  | scan line message =>
      refine ⟨(": " ++ message).toList, ?_⟩
      rw [Diagnostic.report, Diagnostic.line, heading]
      simp only [String.toList_append, List.append_assoc]
      rfl
  | parse token message =>
      refine ⟨(Diagnostic.place token ++ ": " ++ message).toList, ?_⟩
      rw [Diagnostic.report, Diagnostic.line, heading]
      simp only [String.toList_append, List.append_assoc]
      rfl
  | runtime token message => cases ofText
  | undefinedVariable name => cases ofText
  | other line message report => cases ofText

/-- The report of an error of a run is its message, and the line number on a line of its own. -/
theorem report_runtime {diagnostic : Diagnostic} (runtime : diagnostic.isRuntime) :
    diagnostic.report.toList =
      diagnostic.message.toList ++ '\n' :: (Diagnostic.lineMark diagnostic.line).toList := by
  have report : diagnostic.report =
      diagnostic.message ++ "\n" ++ Diagnostic.lineMark diagnostic.line := by
    cases diagnostic with
    | scan line message => cases runtime
    | parse token message => cases runtime
    | runtime token message => rfl
    | undefinedVariable name => rfl
    | other line message report => cases runtime
  rw [report, String.toList_append, String.toList_append, List.append_assoc]
  rfl

/-- Whatever the line, the lexeme and the message, the report of an error before a run has just the
label emphasized that follows the line number. The report of an error of a run has just the part
before its first newline emphasized, if its message does not begin like a line number. -/
theorem highlightWith_report {emphasize : List Char → List Char} {opening closing : List Char}
    (wraps : ∀ text, emphasize text = opening ++ text ++ closing) (diagnostic : Diagnostic) :
    (diagnostic.isOfText → ∃ after,
      diagnostic.report.toList = heading diagnostic.line ++ "Error".toList ++ after ∧
        highlightWith emphasize diagnostic.report.toList =
          heading diagnostic.line ++ (opening ++ "Error".toList ++ closing) ++ after) ∧
      (diagnostic.isRuntime → ¬"[line ".toList <+: diagnostic.message.toList → ∃ first rest,
        diagnostic.report.toList = first ++ '\n' :: rest ∧ '\n' ∉ first ∧
          highlightWith emphasize diagnostic.report.toList =
            opening ++ first ++ closing ++ '\n' :: rest) := by
  constructor
  · intro ofText
    obtain ⟨after, report⟩ := exists_report_ofText ofText
    refine ⟨after, report, ?_⟩
    rw [report, highlightWith_label, wraps]
  · intro runtime other
    have report := report_runtime runtime
    have ended : '\n' ∈ diagnostic.report.toList := by
      rw [report]
      exact List.mem_append_right _ List.mem_cons_self
    obtain ⟨first, rest, cut, whole⟩ := List.eq_append_cons_of_mem ended
    have otherReport : ¬"[line ".toList <+: first ++ '\n' :: rest := by
      rw [← cut, report]
      intro ahead
      exact other (prefix_of_prefix_stop (by decide) ahead)
    refine ⟨first, rest, cut, whole, ?_⟩
    rw [cut, highlightWith_firstLine emphasize whole rest otherReport, wraps]

/-- The label is emphasized and not the lexeme that looks like one, and of a message of two lines
the first, which has a line number inside. -/
theorem highlightWith_report_lookalike :
    let string : Token := ⟨.string, "\"\n[line 1] Error\"", .text "\n[line 1] Error", 2⟩
    let refused : Diagnostic := .parse string "Expect expression."
    let failed : Diagnostic := .runtime string "See [line 1] Error:\nhere"
    (∀ text, emphasized text = "\x1b[1m\x1b[31m".toList ++ text ++ "\x1b[0m".toList) ∧
      refused.isOfText ∧ failed.isRuntime ∧ ¬"[line ".toList <+: failed.message.toList ∧
      highlight refused.report.toList =
        ("[line 2] \x1b[1m\x1b[31mError\x1b[0m at '\"\n[line 1] Error\"': " ++
          "Expect expression.").toList ∧
      highlight failed.report.toList =
        "\x1b[1m\x1b[31mSee [line 1] Error:\x1b[0m\nhere\n[line 2]".toList := by
  intro string refused failed
  have wraps : ∀ text, emphasized text =
      "\x1b[1m\x1b[31m".toList ++ text ++ "\x1b[0m".toList := fun _ => rfl
  have inside : ¬"[line ".toList <+: failed.message.toList := by decide +kernel
  obtain ⟨after, report, label⟩ := (highlightWith_report wraps refused).1 rfl
  obtain ⟨first, rest, cut, whole, line⟩ := (highlightWith_report wraps failed).2 rfl inside
  refine ⟨wraps, rfl, rfl, inside, label.trans ?_, line.trans ?_⟩
  · have behind : after =
        " at '\"\n[line 1] Error\"': Expect expression.".toList := by
      apply List.append_cancel_left (report.symm.trans _)
      decide +kernel
    rw [behind]
    decide +kernel
  · have front : first = "See [line 1] Error:".toList := by
      rw [← Segment.takeWhile_ne_append whole rest, ← cut]
      decide +kernel
    have behind : '\n' :: rest = "\nhere\n[line 2]".toList := by
      rw [← Segment.dropWhile_ne_append whole rest, ← cut]
      decide +kernel
    rw [front, behind]
    decide +kernel

/-- A message with at most one pair of codes put into it. -/
inductive Colored (opening closing : List Char) (message : String) : String → Prop where
  | plain : Colored opening closing message message
  | emphasized {before inside after : List Char}
      (parts : message.toList = before ++ inside ++ after) :
      Colored opening closing message
        (.ofList (before ++ opening ++ inside ++ closing ++ after))

/-- What is written out for messages, if they are: each with at most one pair of codes, and a
newline. -/
def Shows (opening closing : List Char) (echo : Bool) (messages : List String)
    (written : String) : Prop :=
  if echo then
    ∃ texts, List.Forall₂ (Colored opening closing) messages texts ∧
      written = .join (texts.map (· ++ "\n"))
  else written = ""

theorem eq_of_splitAtMark? {mark text before after : List Char}
    (found : splitAtMark? mark text = some (before, after)) : text = before ++ mark ++ after := by
  induction text generalizing before with
  | nil =>
      rw [splitAtMark?] at found
      split at found
      · rename_i empty
        cases found
        rw [List.isEmpty_iff.1 empty]
        rfl
      · cases found
  | cons first rest ih =>
      rw [splitAtMark?] at found
      split at found
      · rename_i ahead
        cases found
        rw [List.isPrefixOf_iff_prefix] at ahead
        exact (List.prefix_iff_eq_append.1 ahead).symm
      · obtain ⟨⟨front, behind⟩, later, same⟩ := Option.map_eq_some_iff.1 found
        cases same
        rw [ih later]
        rfl

theorem colored_highlightWith {emphasize : List Char → List Char} {opening closing : List Char}
    (wraps : ∀ text, emphasize text = opening ++ text ++ closing) (report : String) :
    Colored opening closing report (.ofList (highlightWith emphasize report.toList)) := by
  rw [highlightWith]
  split
  · rename_i before after begins found
    have mark : labelMark = "] ".toList ++ "Error".toList := rfl
    have parts : report.toList = (before ++ "] ".toList) ++ "Error".toList ++ after := by
      rw [eq_of_splitAtMark? found, mark]
      simp only [List.append_assoc]
    have colored : Colored opening closing report _ := .emphasized parts
    simpa only [wraps, List.append_assoc] using colored
  · have parts : report.toList = [] ++ report.toList.takeWhile (· != '\n') ++
        report.toList.dropWhile (· != '\n') := by
      rw [List.nil_append, List.takeWhile_append_dropWhile]
    have colored : Colored opening closing report _ := .emphasized parts
    simpa only [wraps, List.nil_append, List.append_assoc] using colored

/-- What a reporter writes out for reports. The codes are those that put a text in bold red and end
that again. -/
theorem report_shows (reporter : Reporter) (color : Bool) (diagnostics : List Diagnostic) :
    Shows "\x1b[1m\x1b[31m".toList "\x1b[0m".toList reporter.echo
      (diagnostics.map (·.report)) (reporter.report color diagnostics).2 := by
  change Shows _ _ _ _ (.join (diagnostics.map (reporter.written color)))
  rw [Shows]
  split
  · rename_i echo
    let text (diagnostic : Diagnostic) : String :=
      if color then .ofList (highlight diagnostic.report.toList) else diagnostic.report
    have lines : reporter.written color = fun diagnostic => text diagnostic ++ "\n" := by
      funext diagnostic
      rw [written, echo]
      rfl
    refine ⟨diagnostics.map text, ?_, ?_⟩
    · rw [List.forall₂_map_left_iff, List.forall₂_map_right_iff, List.forall₂_same]
      intro diagnostic member
      cases color with
      | false => exact .plain
      | true => exact colored_highlightWith (fun _ => rfl) diagnostic.report
    · rw [lines, List.map_map]
      rfl
  · rename_i silent
    have nothing : reporter.written color = fun _ => "" := by
      funext diagnostic
      rw [written, if_neg silent]
    rw [nothing]
    induction diagnostics with
    | nil => rfl
    | cons diagnostic rest ih => rw [List.map_cons, String.join_cons, ih, String.empty_append]

end Reporter

end Lox
