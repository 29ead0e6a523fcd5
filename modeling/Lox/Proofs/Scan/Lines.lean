import Lox.Proofs.Lines.Moved
import Lox.Proofs.Scan.Seam

/-!
The lines of a scan. Segments laid end to end are the text, so together they end as many lines as
the text has newlines, and the scan of two texts with a newline between them is the scans of both,
the second one on later lines: `Scan.ofSource_newline`.
-/

set_option autoImplicit false

namespace Lox

namespace Segment

/-- How many lines some segments end. -/
def lines : List Segment → Nat
  | [] => 0
  | segment :: rest => segment.newlines + lines rest

theorem lines_cons (line : Int) (segment : Segment) (rest : List Segment) :
    line + lines (segment :: rest) = line + segment.newlines + lines rest := by
  rw [lines]
  omega

theorem lines_eq_count (segments : List Segment) :
    lines segments = (segments.flatMap (·.text)).count '\n' := by
  induction segments with
  | nil => rfl
  | cons segment rest ih =>
      rw [List.flatMap_cons, List.count_append, ← ih]
      rfl

theorem lines_ofText (text : List Char) : lines (ofText text) = text.count '\n' := by
  rw [lines_eq_count, flatMap_text_ofText]

/-- A segment that makes neither a token nor an error. -/
def IsSilent (segment : Segment) : Prop :=
  ∀ line, segment.token? line = .ok none ∧ segment.error? line = none

theorem token?_moved (segment : Segment) (line : Int) (move : Int → Int) :
    segment.token? (move line) = (segment.token? line).map (Option.map (Token.moved move)) := by
  unfold token?
  split
  case _ => rfl
  case _ => rfl
  case _ => rfl
  case _ => split <;> rfl
  all_goals rfl

theorem error?_moved (segment : Segment) (line : Int) (move : Int → Int) :
    segment.error? (move line) = (segment.error? line).map (ScanError.moved move) := by
  unfold error?
  split <;> rfl

end Segment

namespace Scan

def moved (move : Int → Int) (scan : Scan) : Scan :=
  ⟨scan.tokens.map (Token.moved move), scan.errors.map (ScanError.moved move)⟩

/-- A scan that goes on with another one where its input ends. -/
def andThen (first second : Scan) : Scan :=
  ⟨first.tokens.dropLast ++ second.tokens, first.errors ++ second.errors⟩

theorem tokens_ne_nil {line : Int} {segments : List Segment} {scan : Scan}
    (scanned : ofSegments line segments = .ok scan) : scan.tokens ≠ [] := by
  induction segments generalizing line scan with
  | nil =>
      cases scanned
      exact List.cons_ne_nil _ _
  | cons segment rest ih =>
      obtain ⟨made, later, -, scannedRest, rfl⟩ := ofSegments_cons_inv scanned
      exact List.append_ne_nil_of_right_ne_nil _ (ih scannedRest)

theorem ofSegments_append {line : Int} {first second : List Segment} {scan later : Scan}
    (scanned : ofSegments line first = .ok scan)
    (scannedLater : ofSegments (line + Segment.lines first) second = .ok later) :
    ofSegments line (first ++ second) = .ok (scan.andThen later) := by
  induction first generalizing line scan with
  | nil =>
      cases scanned
      rw [Segment.lines, Int.ofNat_zero, Int.add_zero] at scannedLater
      exact scannedLater
  | cons segment rest ih =>
      rw [Segment.lines_cons] at scannedLater
      obtain ⟨made, scanRest, token, scannedRest, rfl⟩ := ofSegments_cons_inv scanned
      rw [List.cons_append, ofSegments_cons token (ih scannedRest scannedLater)]
      simp [andThen, List.dropLast_append_of_ne_nil (tokens_ne_nil scannedRest)]

/-- What is scanned the same is so behind other segments, too. -/
theorem ofSegments_append_congr {line : Int} {front first second : List Segment}
    (same : ofSegments (line + Segment.lines front) first =
      ofSegments (line + Segment.lines front) second) :
    ofSegments line (front ++ first) = ofSegments line (front ++ second) := by
  induction front generalizing line with
  | nil =>
      rw [Segment.lines, Int.ofNat_zero, Int.add_zero] at same
      exact same
  | cons segment rest ih =>
      rw [Segment.lines_cons] at same
      rw [List.cons_append, List.cons_append, ofSegments, ofSegments, ih same]

theorem ofSegments_moved {line : Int} {segments : List Segment} {scan : Scan} (more : Int)
    (scanned : ofSegments line segments = .ok scan) :
    ofSegments (line + more) segments = .ok (scan.moved (· + more)) := by
  induction segments generalizing line scan with
  | nil =>
      cases scanned
      rfl
  | cons segment rest ih =>
      have lines : line + more + segment.newlines = line + segment.newlines + more := by omega
      obtain ⟨made, later, token, scannedRest, rfl⟩ := ofSegments_cons_inv scanned
      have tokenMoved := segment.token?_moved (line + segment.newlines) (· + more)
      have errorMoved := segment.error?_moved (line + segment.newlines) (· + more)
      rw [token, ← lines] at tokenMoved
      have scannedMoved := ih scannedRest
      rw [← lines] at scannedMoved
      rw [ofSegments_cons tokenMoved scannedMoved, lines, errorMoved]
      simp only [moved, List.map_append, Option.toList_map]

/-- A segment that is neither a token nor an error only ends lines. -/
theorem ofSegments_of_silent {segment : Segment} (silent : segment.IsSilent) (line : Int)
    (rest : List Segment) :
    ofSegments line (segment :: rest) = ofSegments (line + segment.newlines) rest := by
  obtain ⟨noToken, noError⟩ := silent (line + segment.newlines)
  rw [ofSegments, noToken, noError]
  cases ofSegments (line + segment.newlines) rest with
  | error unknown => rfl
  | ok scan => rfl

theorem ofSegments_newline (line : Int) (rest : List Segment) :
    ofSegments line (⟨.newline, ['\n']⟩ :: rest) = ofSegments (line + 1) rest :=
  ofSegments_of_silent (fun _ => ⟨rfl, rfl⟩) line rest

/-- The scan of two texts with a newline between them, unless the first one ends in an open
segment. -/
theorem ofSource_newline (first second : String)
    (closed : ∀ segment ∈ (Segment.ofText first.toList).getLast?, ¬segment.IsOpen) :
    ofSource (first ++ "\n" ++ second) =
      (ofSource first).andThen
        ((ofSource second).moved (· + (1 + first.toList.count '\n' : Nat))) := by
  have text : (first ++ "\n" ++ second).toList = first.toList ++ '\n' :: second.toList := by
    simp
  have later : (1 : Int) + Segment.lines (Segment.ofText first.toList) + 1 =
      1 + (1 + first.toList.count '\n' : Nat) := by
    rw [Segment.lines_ofText]
    omega
  apply ofSource_of_tokenize
  rw [tokenize, text, Segment.ofText_newline _ _ closed]
  apply ofSegments_append (tokenize_eq first)
  rw [ofSegments_newline, later]
  exact ofSegments_moved _ (tokenize_eq second)

end Scan

end Lox
