import Lox.Proofs.Scan.Lossless
import Lox.Proofs.Scan.Written

/-!
What the tokens of a scan are. Each of them but the end of input is the token of a lexeme, whatever
else is in the text: `Scan.exists_lexeme`.
-/

set_option autoImplicit false

namespace Lox

open Segment

theorem Lexeme.exists_of_word {first : Char} {rest : List Char} (starts : isWordStart first)
    (goesOn : ∀ char ∈ rest, isWordPart char) :
    ∃ lexeme : Lexeme, lexeme.segment = ⟨.word, first :: rest⟩ := by
  by_cases free : ∀ entry ∈ keywords, entry.1.toList ≠ first :: rest
  · exact ⟨.identifier first rest starts goesOn free, rfl⟩
  · push Not at free
    obtain ⟨⟨word, kind⟩, listed, same⟩ := free
    exact ⟨.reserved word kind listed, congrArg (Segment.mk .word) same⟩

/-- A segment with a shape that makes a token is that of a lexeme. -/
theorem Segment.Shape.exists_lexeme {kind : Segment.Kind} {text : List Char}
    (shape : Shape kind text) {line : Int} {token : Token}
    (makes : Segment.token? ⟨kind, text⟩ line = .ok (some token)) :
    ∃ lexeme : Lexeme, lexeme.segment = ⟨kind, text⟩ := by
  cases shape with
  | closedComment inside => cases makes
  | openComment inside => cases makes
  | lineComment inside => cases makes
  | string inside => exact ⟨.string _ inside, rfl⟩
  | unterminated inside => cases makes
  | whole inhabited all => exact ⟨.number _ [] inhabited (by simpa using all), rfl⟩
  | @fraction whole digits inhabited all more every =>
      obtain ⟨digit, digits, rfl⟩ := List.exists_cons_of_ne_nil more
      exact ⟨.number whole (digit :: digits) inhabited (List.forall_mem_append.2 ⟨all, every⟩), rfl⟩
  | word starts goesOn => exact Lexeme.exists_of_word starts goesOn
  | symbol listed => exact ⟨.symbol _ _ listed, rfl⟩
  | newline => cases makes
  | blanks inhabited all => cases makes
  | unexpected nothing => cases makes

namespace Scan

theorem exists_lexeme_of_shaped {line : Int} {segments : List Segment} {scan : Scan}
    (shaped : ∀ segment ∈ segments, Shape segment.kind segment.text)
    (scanned : ofSegments line segments = .ok scan) :
    ∀ token ∈ scan.tokens, ¬token.isEnd →
      ∃ (lexeme : Lexeme) (found : Int), token = lexeme.token found := by
  induction segments generalizing line scan with
  | nil =>
      cases scanned
      intro token member more
      rw [List.mem_singleton.1 member] at more
      exact absurd rfl more
  | cons segment rest ih =>
      rw [List.forall_mem_cons] at shaped
      obtain ⟨made, later, first, scannedRest, rfl⟩ := ofSegments_cons_inv scanned
      intro token member more
      rcases List.mem_append.1 member with front | behind
      · rw [Option.mem_toList] at front
        rw [front] at first
        obtain ⟨lexeme, same⟩ := shaped.1.exists_lexeme first
        have token? := lexeme.token?_segment (line + segment.newlines)
        rw [same] at token?
        exact ⟨lexeme, _, Option.some.inj (Except.ok.inj (first.symm.trans token?))⟩
      · exact ih shaped.2 scannedRest token behind more

/-- Each token of a source text but the end of input is that of a lexeme. -/
theorem exists_lexeme (source : String) :
    ∀ token ∈ (ofSource source).tokens, ¬token.isEnd →
      ∃ (lexeme : Lexeme) (line : Int), token = lexeme.token line :=
  exists_lexeme_of_shaped (tiles_ofText source.toList).shaped (tokenize_eq source)

end Scan

end Lox
