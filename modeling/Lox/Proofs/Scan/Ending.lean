import Lox.Scan

/-!
The shape of a list of tokens that comes from a scan: tokens that are not an end of input, and one
that is: `Scan.ofSource_ends`.
-/

set_option autoImplicit false

namespace Lox

theorem Token.Kind.ofWord_ne_endOfInput (word : String) : ofWord word ≠ .endOfInput := by
  have words : ∀ entry ∈ reserved, entry.2 ≠ .endOfInput := by decide
  unfold ofWord
  cases found : reserved.lookup word with
  | none => decide
  | some kind =>
      obtain ⟨front, back, same, -⟩ := List.lookup_eq_some_iff.1 found
      have member : (word, kind) ∈ reserved := by simp [same]
      exact words (word, kind) member

namespace Segment

theorem pairName?_ne_endOfInput (first second : Char) :
    pairName? first second ≠ some Token.Kind.endOfInput.name := by
  unfold pairName?
  split <;> decide

theorem singleName?_ne_endOfInput (char : Char) :
    singleName? char ≠ some Token.Kind.endOfInput.name := by
  unfold singleName?
  split <;> decide

/-- No segment of a text is an end of input. -/
theorem split_kind_ne (first : Char) (rest : List Char) :
    (split first rest).1.kind ≠ .symbol Token.Kind.endOfInput.name := by
  fun_cases split first rest with
  | case7 noStar noSlash noQuote noDigit noWord name found =>
      intro ended
      injection ended with isEnd
      subst isEnd
      obtain ⟨second, -, pair⟩ := Option.bind_eq_some_iff.1 found
      exact pairName?_ne_endOfInput first second pair
  | case8 noStar noSlash noQuote noDigit noWord name found =>
      intro ended
      injection ended with isEnd
      subst isEnd
      exact singleName?_ne_endOfInput first found
  | _ =>
      intro ended
      cases ended

theorem ofText_kind_ne (text : List Char) :
    ∀ segment ∈ ofText text, segment.kind ≠ .symbol Token.Kind.endOfInput.name := by
  induction text using ofText.induct with
  | case1 =>
      rw [ofText]
      intro segment member
      cases member
  | case2 first rest ih =>
      rw [ofText]
      intro segment member
      rcases List.mem_cons.1 member with rfl | later
      · exact split_kind_ne first rest
      · exact ih segment later

theorem token?_isEnd {segment : Segment}
    (other : segment.kind ≠ .symbol Token.Kind.endOfInput.name) {line : Int} {token : Token}
    (made : segment.token? line = .ok (some token)) : ¬token.isEnd := by
  rw [Token.isEnd, beq_iff_eq]
  obtain ⟨kind, text⟩ := segment
  cases kind with
  | string =>
      cases made
      exact nofun
  | number =>
      cases made
      exact nofun
  | word =>
      cases made
      exact Token.Kind.ofWord_ne_endOfInput _
  | symbol name =>
      obtain ⟨kind, named, rfl⟩ := exists_kind_of_symbol made
      rintro rfl
      exact other (congrArg _ (Token.Kind.name_of_ofName? named).symm)
  | _ => cases made

end Segment

namespace Scan

theorem ofSegments_ends {line : Int} {segments : List Segment} {scan : Scan}
    (inside : ∀ segment ∈ segments, segment.kind ≠ .symbol Token.Kind.endOfInput.name)
    (scanned : ofSegments line segments = .ok scan) :
    ∃ body last, scan.tokens = body ++ [last] ∧ last.isEnd ∧ ∀ token ∈ body, ¬token.isEnd := by
  induction segments generalizing line scan with
  | nil =>
      cases scanned
      exact ⟨[], _, rfl, rfl, by simp⟩
  | cons segment rest ih =>
      rw [List.forall_mem_cons] at inside
      obtain ⟨made, later, first, scannedRest, rfl⟩ := ofSegments_cons_inv scanned
      obtain ⟨body, last, same, ended, others⟩ := ih inside.2 scannedRest
      refine ⟨made.toList ++ body, last, ?_, ended, ?_⟩
      · rw [same, List.append_assoc]
      · intro token member
        rcases List.mem_append.1 member with front | behind
        · rw [Option.mem_toList] at front
          rw [front] at first
          exact Segment.token?_isEnd inside.1 first
        · exact others token behind

/-- A scan ends with an end of input and has no other. -/
theorem ofSource_ends (source : String) :
    ∃ body last, (ofSource source).tokens = body ++ [last] ∧ last.isEnd ∧
      ∀ token ∈ body, ¬token.isEnd :=
  ofSegments_ends (Segment.ofText_kind_ne source.toList) (tokenize_eq source)

end Scan

end Lox
