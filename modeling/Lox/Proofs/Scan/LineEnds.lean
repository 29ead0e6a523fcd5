import Lox.Proofs.Scan.Lossless

/-!
Line ends as places to cut. Two texts with a newline between them are scanned as the first and then
the second on later lines, whatever is wrong in either of them, just if the first does not end in an
open segment: `Scan.ofSource_cut_iff`. An open segment takes the newline and what follows it, up to
its end.
-/

set_option autoImplicit false

namespace Lox

namespace Segment

/-- What is open stays open if neither a quote nor a slash comes after it. -/
theorem Shape.append_of_isOpen {segment : Segment} (shape : Shape segment.kind segment.text)
    (isOpen : segment.IsOpen) {more : List Char} (noQuote : '"' ∉ more) (noSlash : '/' ∉ more) :
    Shape segment.kind (segment.text ++ more) := by
  obtain ⟨kind, text⟩ := segment
  dsimp only at shape ⊢
  cases shape with
  | @closedComment body inside =>
      rcases isOpen with other | ⟨-, endless⟩
      · cases other
      · exact absurd (List.suffix_append body commentEnd) endless
  | openComment inside => exact .openComment (no_end_append inside noSlash)
  | unterminated inside =>
      apply Shape.unterminated
      intro member
      rcases List.mem_append.1 member with within | after
      · exact inside within
      · exact noQuote after
  | _ =>
      rcases isOpen with other | ⟨other, -⟩
      · cases other
      · cases other

/-- A text with a shape is one segment, if nothing else is. -/
theorem Shape.ofText_eq {kind : Kind} {text : List Char} (shape : Shape kind text) :
    ofText text = [⟨kind, text⟩] := by
  obtain ⟨first, rest, rfl⟩ := List.exists_cons_of_ne_nil shape.ne_nil
  have joined := split_append first rest
  have found : (split first rest).1 = ⟨kind, first :: rest⟩ := by
    rcases shape.lt_or_eq_split (List.prefix_refl _) with shorter | same
    · have length := congrArg List.length joined
      rw [List.length_append] at length
      omega
    · exact same
  have nothing : (split first rest).2 = [] := by
    rw [found] at joined
    exact List.append_right_eq_self.1 joined
  rw [ofText_cons, found, nothing, ofText]

/-- What is open makes no token, whatever else there is of it. -/
theorem IsOpen.token?_eq_none {segment : Segment} (isOpen : segment.IsOpen) (text : List Char)
    (line : Int) : token? ⟨segment.kind, text⟩ line = .ok none := by
  rcases isOpen with kind | ⟨kind, -⟩
  · rw [token?, kind]
  · rw [token?, kind]

end Segment

namespace Scan

open Segment

theorem length_tokens_of_silent {line : Int} {front : List Segment} {last : Segment}
    {scan before : Scan} (silent : ∀ line, last.token? line = .ok none)
    (scannedFront : ofSegments line front = .ok before)
    (scanned : ofSegments line (front ++ [last]) = .ok scan) :
    scan.tokens.length = before.tokens.length := by
  have alone : ofSegments (line + Segment.lines front) [last] = .ok _ :=
    ofSegments_cons (silent _) rfl
  have joined := scanned.symm.trans (ofSegments_append scannedFront alone)
  have inhabited := List.length_pos_iff.2 (tokens_ne_nil scannedFront)
  rw [Except.ok.inj joined, andThen, List.length_append, List.length_dropLast]
  change before.tokens.length - 1 + 1 = before.tokens.length
  omega

/-- A semicolon on the line after an open segment is part of it. -/
theorem length_tokens_of_last {text : List Char} {front : List Segment} {last : Segment}
    (segments : ofText text = front ++ [last]) (isOpen : last.IsOpen) {line : Int}
    {scan longer : Scan} (scanned : ofSegments line (ofText text) = .ok scan)
    (scannedLonger : ofSegments line (ofText (text ++ ['\n', ';'])) = .ok longer) :
    longer.tokens.length = scan.tokens.length := by
  have shape := (tiles_ofText text).shaped last (by simp [segments])
  have shapeLonger : Shape last.kind (last.text ++ ['\n', ';']) :=
    shape.append_of_isOpen isOpen (by decide) (by decide)
  have closed := not_isOpen_of_ofText segments (List.cons_ne_nil last [])
  have joined := ofText_stop (.inr rfl) [';'] segments closed nofun
  rw [List.flatMap_singleton, shapeLonger.ofText_eq] at joined
  have known : ∀ segment ∈ front, segment.IsKnown := fun segment member =>
    ofText_isKnown text segment (by simp [segments, member])
  obtain ⟨before, scannedFront⟩ := exists_ofSegments line known
  rw [joined] at scannedLonger
  rw [segments] at scanned
  rw [length_tokens_of_silent (isOpen.token?_eq_none _) scannedFront scannedLonger,
    length_tokens_of_silent (isOpen.token?_eq_none last.text) scannedFront scanned]

/-- The scan of two texts with a newline between them has the tokens and the errors of the first
text, without its end of input, and then those of the second on later lines. This is so for every
second text just if the first one does not end in an open segment. -/
theorem ofSource_cut_iff (first : String) :
    (∀ segment ∈ (ofText first.toList).getLast?, ¬segment.IsOpen) ↔
      ∀ second : String,
        let later : Int → Int := (· + (1 + first.toList.count '\n' : Nat))
        (ofSource (first ++ "\n" ++ second)).tokens =
            (ofSource first).tokens.dropLast ++ (ofSource second).tokens.map (Token.moved later) ∧
          (ofSource (first ++ "\n" ++ second)).errors =
            (ofSource first).errors ++ (ofSource second).errors.map (ScanError.moved later) := by
  constructor
  · intro closed second
    rw [ofSource_newline first second closed]
    exact ⟨rfl, rfl⟩
  · intro cut segment member isOpen
    obtain ⟨front, segments⟩ := List.getLast?_eq_some_iff.1 member
    have tokens := congrArg List.length (cut ";").1
    have text : (first ++ "\n" ++ ";").toList = first.toList ++ ['\n', ';'] := by simp
    have semicolon : (ofSource ";").tokens.length = 2 := by decide +kernel
    have scannedLonger := tokenize_eq (first ++ "\n" ++ ";")
    rw [tokenize, text] at scannedLonger
    have same := length_tokens_of_last segments isOpen (tokenize_eq first) scannedLonger
    have inhabited := List.length_pos_iff.2 (tokens_ne_nil (tokenize_eq first))
    rw [List.length_append, List.length_map, List.length_dropLast, semicolon, same] at tokens
    omega

end Scan

end Lox
