import Lox.Proofs.Scan.Lossless
import Lox.Proofs.Scan.Written

/-!
Comments are blanks. Where a text has a comment, a space and as many newlines as there are in the
comment do as well: the tokens, the errors and their lines are the same: `Scan.ofSource_blanked`.
Only what comes right before the comment could tell the two apart, and no segment but one of blanks
goes on with a space that did not go on with a slash.
-/

set_option autoImplicit false

namespace Lox

namespace Segment

/-- A comment of either kind. A block comment may be open. -/
def IsComment (segment : Segment) : Prop :=
  segment.kind = .blockComment ∨ segment.kind = .lineComment

/-- What does for a comment. -/
def blanked (segment : Segment) : List Char :=
  ' ' :: List.replicate segment.newlines '\n'

theorem IsComment.isSilent {segment : Segment} (isComment : segment.IsComment) :
    segment.IsSilent := by
  intro line
  rcases isComment with kind | kind
  · rw [token?, error?, kind]
    exact ⟨rfl, rfl⟩
  · rw [token?, error?, kind]
    exact ⟨rfl, rfl⟩

theorem isSilent_of_blanks {segment : Segment} (kind : segment.kind = .blanks) :
    segment.IsSilent := by
  intro line
  rw [token?, error?, kind]
  exact ⟨rfl, rfl⟩

theorem IsComment.head?_text {segment : Segment} (isComment : segment.IsComment)
    (shape : Shape segment.kind segment.text) : segment.text.head? = some '/' := by
  obtain ⟨kind, text⟩ := segment
  dsimp only at shape ⊢
  cases shape with
  | closedComment inside => rfl
  | openComment inside => rfl
  | lineComment inside => rfl
  | _ =>
      rcases isComment with other | other
      · cases other
      · cases other

/-- A line comment ends in front of a newline. -/
theorem Leads.newline_of_lineComment {segment : Segment} {after : List Char}
    (leads : segment.Leads after) (kind : segment.kind = .lineComment) :
    ∀ next ∈ after.head?, next = '\n' := by
  intro next member
  obtain ⟨rest, rfl⟩ := List.head?_eq_some_iff.1 member
  have shape := leads.shape
  generalize written : segment.text = text at shape
  rw [kind] at shape
  cases shape with
  | @lineComment body inside =>
      by_contra other
      have longer : Shape .lineComment ('/' :: '/' :: (body ++ [next])) := by
        apply Shape.lineComment
        simpa [Ne.symm other] using inside
      have bound := leads.longest _ _ longer ⟨rest, by simp [written]⟩
      simp only [written, List.length_cons, List.length_append, List.length_nil] at bound
      omega

theorem Shape.trivia_of_blanks {text : List Char} (shape : Shape .blanks text) : Trivia text := by
  cases shape with
  | blanks inhabited all =>
      clear inhabited
      induction text with
      | nil => exact .nil
      | cons char text ih =>
          rw [List.forall_mem_cons] at all
          exact .blank all.1 (ih all.2)

theorem trivia_blanked (segment : Segment) : Trivia segment.blanked := by
  apply Trivia.blank (by decide)
  induction segment.newlines with
  | zero => exact .nil
  | succ count ih => exact .newline ih

theorem count_blanked (segment : Segment) : segment.blanked.count '\n' = segment.newlines := by
  simp [blanked]

end Segment

namespace Scan

open Segment

section Blanked

variable {text : List Char} {before after : List Segment} {comment : Segment}
  (segments : ofText text = before ++ comment :: after) (isComment : comment.IsComment)

include segments isComment

/-- No segment in front of a comment goes on with a space, unless it is one of blanks. -/
theorem not_takes_of_comment {last : Segment} (member : last ∈ before.getLast?)
    (noBlanks : last.kind ≠ .blanks) : ¬last.Takes ' ' := by
  rintro (⟨kind, -⟩ | ⟨kind, -⟩)
  · obtain ⟨front, rfl⟩ := List.getLast?_eq_some_iff.1 member
    rw [List.append_assoc, List.singleton_append] at segments
    have shape := (tiles_ofText text).shaped comment (by simp [segments])
    have newline := (leads_of_ofText segments).newline_of_lineComment kind '/'
    rw [List.flatMap_cons, List.head?_append, isComment.head?_text shape] at newline
    exact absurd (newline rfl) (by decide)
  · exact noBlanks kind

/-- With a space where the comment begins, the segments in front of it make what they made before.
Blanks there take the space. -/
theorem ofSegments_space (line : Int) (more : List Char) :
    ofSegments line (ofText (before.flatMap (·.text) ++ ' ' :: more)) =
      ofSegments line (before ++ ofText (' ' :: more)) := by
  have parts : isBlank ' ' ∨ ' ' = '\n' := .inl rfl
  have inside := ofText_front segments
  have closed := not_isOpen_of_ofText segments (List.cons_ne_nil comment after)
  by_cases blanks : ∃ last ∈ before.getLast?, last.kind = .blanks
  · obtain ⟨last, member, kind⟩ := blanks
    obtain ⟨front, rfl⟩ := List.getLast?_eq_some_iff.1 member
    have shape := (tiles_ofText text).shaped last (by simp [segments])
    rw [kind] at shape
    have outside : ∀ segment ∈ front, ¬segment.IsOpen := by
      intro segment member
      exact closed segment (List.mem_append_left _ member)
    have lines : last.newlines = last.text.count '\n' := rfl
    rw [ofText_stop parts more inside outside nofun, List.flatMap_singleton, List.append_assoc,
      List.singleton_append]
    apply ofSegments_append_congr
    rw [ofSegments_trivia shape.trivia_of_blanks, ofSegments_of_silent (isSilent_of_blanks kind),
      lines]
  · have ends : ∀ last ∈ before.getLast?, ¬last.Takes ' ' := by
      intro last member
      exact not_takes_of_comment segments isComment member fun kind => blanks ⟨last, member, kind⟩
    have alone := ofText_stop parts more (inside.trans (List.append_nil before).symm) closed
      fun _ => ends
    rw [alone, List.flatMap_nil, List.nil_append]

end Blanked

/-- A text with a space and newlines in place of one of its comments has the same scan. -/
theorem ofSource_blanked {source : String} {before after : List Segment} {comment : Segment}
    (segments : ofText source.toList = before ++ comment :: after)
    (isComment : comment.IsComment) :
    before.flatMap (·.text) ++ comment.text ++ after.flatMap (·.text) = source.toList ∧
      ofSource (.ofList (before.flatMap (·.text) ++ comment.blanked ++ after.flatMap (·.text))) =
        ofSource source := by
  have text := flatMap_text_ofText source.toList
  rw [segments, List.flatMap_append, List.flatMap_cons, ← List.append_assoc] at text
  have rest : ofText (after.flatMap (·.text)) = after := by
    have later : ofText source.toList = (before ++ [comment]) ++ after := by
      rw [segments, List.append_assoc, List.singleton_append]
    exact ofText_back later
  have spaced := ofSegments_space segments isComment 1
    (List.replicate comment.newlines '\n' ++ after.flatMap (·.text))
  have blanked : ' ' :: (List.replicate comment.newlines '\n' ++ after.flatMap (·.text)) =
      comment.blanked ++ after.flatMap (·.text) := rfl
  rw [blanked, ← List.append_assoc] at spaced
  refine ⟨text, ?_⟩
  apply ofSource_of_tokenize
  rw [← tokenize_eq source, tokenize, tokenize, String.toList_ofList, spaced, segments]
  apply ofSegments_append_congr
  rw [ofSegments_trivia comment.trivia_blanked, rest, count_blanked,
    ofSegments_of_silent isComment.isSilent]

/-- The space keeps a number and the point after it apart. -/
theorem ofSource_blanked_point :
    ofText "1/*\n*/.5".toList = [⟨.number, ['1']⟩] ++
        ⟨.blockComment, ['/', '*', '\n', '*', '/']⟩ ::
          [⟨.symbol "DOT", ['.']⟩, ⟨.number, ['5']⟩] ∧
      IsComment ⟨.blockComment, ['/', '*', '\n', '*', '/']⟩ ∧
        ofSource "1 \n.5" = ofSource "1/*\n*/.5" := by
  have segments : ofText "1/*\n*/.5".toList = [⟨.number, ['1']⟩] ++
      ⟨.blockComment, ['/', '*', '\n', '*', '/']⟩ ::
        [⟨.symbol "DOT", ['.']⟩, ⟨.number, ['5']⟩] := by decide +kernel
  obtain ⟨-, same⟩ := ofSource_blanked segments (.inl rfl)
  have text : String.ofList (['1'] ++ [' ', '\n'] ++ ['.', '5']) = "1 \n.5" := rfl
  exact ⟨segments, .inl rfl, text ▸ same⟩

end Scan

end Lox
