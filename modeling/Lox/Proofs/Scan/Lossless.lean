import Mathlib.Data.List.Forall2
import Lox.Proofs.Scan.Ending
import Lox.Proofs.Scan.Lines
import Lox.Proofs.Scan.Shape

/-!
A scan loses nothing. The segments of a text are the one way to lay pieces end to end, each the
longest with a shape where it begins: `Segment.tiles_iff`. A scan has one token for each segment
that makes one and one error for each that is one, in order and on the line where the segment ends:
`Scan.ofSource_lossless`.
-/

set_option autoImplicit false

namespace Lox

namespace Segment

/-- A segment has the shape of its kind, and nothing longer that begins where it does has any. -/
structure Leads (segment : Segment) (after : List Char) : Prop where
  shape : Shape segment.kind segment.text
  longest : ∀ kind text, Shape kind text → text <+: segment.text ++ after →
    text.length ≤ segment.text.length

/-- Segments laid end to end are a text, and each of them leads what is left of it. -/
inductive Tiles : List Segment → List Char → Prop where
  | nil : Tiles [] []
  | cons {segment : Segment} {segments : List Segment} {after : List Char}
      (leads : segment.Leads after) (tiles : Tiles segments after) :
      Tiles (segment :: segments) (segment.text ++ after)

theorem Shape.ne_nil {kind : Kind} {text : List Char} (shape : Shape kind text) : text ≠ [] := by
  cases shape with
  | whole inhabited all => exact inhabited
  | blanks inhabited all => exact inhabited
  | symbol listed =>
      have written : ∀ entry ∈ symbols, entry.1 ≠ [] := by decide
      exact written _ listed
  | _ => simp

theorem split_leads (first : Char) (rest : List Char) :
    (split first rest).1.Leads (split first rest).2 := by
  refine ⟨split_shape first rest, ?_⟩
  intro kind text shape ahead
  rw [split_append] at ahead
  rcases shape.lt_or_eq_split ahead with shorter | same
  · exact Nat.le_of_lt shorter
  · exact Nat.le_of_eq (congrArg (·.text.length) same.symm)

/-- What leads a text is the first segment of it. -/
theorem Leads.split_eq {segment : Segment} {after : List Char} (leads : segment.Leads after)
    {first : Char} {rest : List Char} (text : first :: rest = segment.text ++ after) :
    split first rest = (segment, after) := by
  have ahead : segment.text <+: first :: rest := text ▸ List.prefix_append _ _
  rcases leads.shape.lt_or_eq_split ahead with shorter | same
  · have joined := split_append first rest
    have bounded := leads.longest _ _ (split_shape first rest) ⟨_, joined.trans text⟩
    omega
  · have joined := split_append first rest
    rw [same, text] at joined
    exact Prod.ext same (List.append_cancel_left joined)

theorem tiles_ofText (text : List Char) : Tiles (ofText text) text := by
  induction text using ofText.induct with
  | case1 =>
      rw [ofText]
      exact .nil
  | case2 first rest ih =>
      have tiles := Tiles.cons (split_leads first rest) ih
      rwa [split_append, ← ofText_cons] at tiles

theorem Tiles.shaped {segments : List Segment} {text : List Char} (tiles : Tiles segments text) :
    ∀ segment ∈ segments, Shape segment.kind segment.text := by
  induction tiles with
  | nil => exact List.forall_mem_nil _
  | cons leads tiles ih => exact List.forall_mem_cons.2 ⟨leads.shape, ih⟩

theorem tiles_iff (segments : List Segment) (text : List Char) :
    Tiles segments text ↔ ofText text = segments := by
  constructor
  · intro tiles
    induction tiles with
    | nil => rw [ofText]
    | @cons segment segments after leads tiles ih =>
        obtain ⟨first, rest, same⟩ := List.exists_cons_of_ne_nil leads.shape.ne_nil
        have text : first :: (rest ++ after) = segment.text ++ after := by
          rw [same]
          rfl
        rw [← text, ofText_cons, leads.split_eq text, ih]
  · rintro rfl
    exact tiles_ofText text

theorem Leads.front {segment : Segment} {after more : List Char}
    (leads : segment.Leads (after ++ more)) : segment.Leads after := by
  refine ⟨leads.shape, ?_⟩
  intro kind text shape ahead
  apply leads.longest kind text shape
  rw [← List.append_assoc]
  exact ahead.trans (List.prefix_append _ more)

theorem Tiles.flatMap_text {segments : List Segment} {text : List Char}
    (tiles : Tiles segments text) : segments.flatMap (·.text) = text := by
  rw [← (tiles_iff segments text).1 tiles, flatMap_text_ofText]

section Parts

variable {text : List Char} {front back : List Segment} (segments : ofText text = front ++ back)

include segments

/-- The segments of a text up to one of them are those of the text up to there. -/
theorem ofText_front : ofText (front.flatMap (·.text)) = front := by
  rw [← tiles_iff] at segments ⊢
  induction front generalizing text with
  | nil => exact .nil
  | cons segment front ih =>
      rw [List.cons_append] at segments
      cases segments with
      | cons leads tiles =>
          have after := tiles.flatMap_text
          rw [List.flatMap_append] at after
          rw [← after] at leads
          exact .cons leads.front (ih tiles)

/-- The segments of a text from one of them on are those of the text from there on. -/
theorem ofText_back : ofText (back.flatMap (·.text)) = back := by
  rw [← tiles_iff] at segments ⊢
  induction front generalizing text with
  | nil =>
      have same := segments.flatMap_text
      rw [List.nil_append] at same segments
      rwa [same]
  | cons segment front ih =>
      rw [List.cons_append] at segments
      cases segments with
      | cons leads tiles => exact ih tiles

end Parts

/-- Each segment of a text leads what comes after it. -/
theorem leads_of_ofText {text : List Char} {front back : List Segment} {segment : Segment}
    (segments : ofText text = front ++ segment :: back) :
    segment.Leads (back.flatMap (·.text)) := by
  have tiles := (tiles_iff _ _).2 (ofText_back segments)
  rw [List.flatMap_cons] at tiles
  generalize found : segment :: back = all at tiles
  generalize segment.text ++ back.flatMap (·.text) = rest at tiles
  cases tiles with
  | nil => cases found
  | cons leads others =>
      obtain ⟨rfl, rfl⟩ := List.cons.inj found
      rwa [others.flatMap_text]

end Segment

namespace Scan

open Segment

/-- A segment of a text and what stands before it. -/
structure Place where
  before : List Char
  segment : Segment

namespace Place

/-- The line a segment ends on. -/
def line (place : Place) : Int :=
  1 + (place.before ++ place.segment.text).count '\n'

def isToken (place : Place) : Bool :=
  match place.segment.kind with
  | .string | .number | .word | .symbol _ => true
  | .blockComment | .lineComment | .unterminated | .newline | .blanks | .unexpected => false

def isError (place : Place) : Bool :=
  match place.segment.kind with
  | .unterminated | .unexpected => true
  | .blockComment | .lineComment | .string | .number | .word | .symbol _ | .newline | .blanks =>
    false

end Place

/-- Segments laid end to end, after some text. -/
def places (before : List Char) : List Segment → List Place
  | [] => []
  | segment :: rest => ⟨before, segment⟩ :: places (before ++ segment.text) rest

/-- The token of a segment. -/
inductive MakesToken : Place → Token → Prop where
  | string {place : Place} {body : List Char} (kind : place.segment.kind = .string)
      (text : place.segment.text = '"' :: (body ++ ['"'])) :
      MakesToken place
        ⟨.string, .ofList place.segment.text, .text (.ofList body), place.line⟩
  | number {place : Place} (kind : place.segment.kind = .number) :
      MakesToken place
        ⟨.number, .ofList place.segment.text, .number (numberValue place.segment.text), place.line⟩
  | reserved {place : Place} {reserved : Token.Kind} (kind : place.segment.kind = .word)
      (listed : (String.ofList place.segment.text, reserved) ∈ Token.Kind.reserved) :
      MakesToken place ⟨reserved, .ofList place.segment.text, .nil, place.line⟩
  | identifier {place : Place} (kind : place.segment.kind = .word)
      (unlisted : ∀ reserved, (String.ofList place.segment.text, reserved) ∉ Token.Kind.reserved) :
      MakesToken place ⟨.identifier, .ofList place.segment.text, .nil, place.line⟩
  | symbol {place : Place} {symbol : Token.Kind}
      (kind : place.segment.kind = .symbol symbol.name) :
      MakesToken place ⟨symbol, .ofList place.segment.text, .nil, place.line⟩

/-- The error of a segment. -/
inductive MakesError : Place → ScanError → Prop where
  | unexpected {place : Place} (kind : place.segment.kind = .unexpected) :
      MakesError place ⟨.unexpectedCharacter, place.line⟩
  | unterminated {place : Place} (kind : place.segment.kind = .unterminated) :
      MakesError place ⟨.unterminatedString, place.line⟩

theorem made_word {place : Place} (kind : place.segment.kind = .word) :
    MakesToken place
      ⟨.ofWord (.ofList place.segment.text), .ofList place.segment.text, .nil, place.line⟩ := by
  rw [Token.Kind.ofWord]
  cases found : Token.Kind.reserved.lookup (String.ofList place.segment.text) with
  | some reserved =>
      obtain ⟨front, back, same, -⟩ := List.lookup_eq_some_iff.1 found
      exact .reserved kind (by simp [same])
  | none =>
      refine .identifier kind fun reserved listed => ?_
      have other := List.lookup_eq_none_iff.1 found _ listed
      simp at other

section Place

variable (place : Place) (shape : Shape place.segment.kind place.segment.text)

include shape in
theorem token?_made {token : Option Token} (made : place.segment.token? place.line = .ok token) :
    List.Forall₂ MakesToken ([place].filter Place.isToken) token.toList := by
  obtain ⟨before, ⟨kind, text⟩⟩ := place
  dsimp only at shape
  cases shape with
  | @string body inside =>
      have inner : (('"' :: (body ++ ['"'])).drop 1).dropLast = body := by
        rw [List.drop_one, List.tail_cons, List.dropLast_concat]
      simp only [Segment.token?, inner] at made
      cases made
      exact .cons (.string rfl rfl) .nil
  | whole inhabited all =>
      cases made
      exact .cons (.number rfl) .nil
  | fraction inhabited all more every =>
      cases made
      exact .cons (.number rfl) .nil
  | word starts goesOn =>
      cases made
      exact .cons (made_word rfl) .nil
  | @symbol text kind listed =>
      rw [token?_symbol kind.ofName?_name] at made
      cases made
      exact .cons (.symbol rfl) .nil
  | _ =>
      cases made
      exact .nil

theorem error?_made :
    List.Forall₂ MakesError ([place].filter Place.isError)
      (place.segment.error? place.line).toList := by
  simp only [List.filter, Place.isError, Segment.error?]
  cases kind : place.segment.kind with
  | unterminated => exact .cons (.unterminated kind) .nil
  | unexpected => exact .cons (.unexpected kind) .nil
  | _ => exact .nil

end Place

/-- The induction is on the segments; the line is one more than the newlines before them. -/
theorem ofSegments_made (before : List Char) {segments : List Segment} {scan : Scan}
    (shaped : ∀ segment ∈ segments, Shape segment.kind segment.text)
    (scanned : ofSegments (1 + before.count '\n') segments = .ok scan) :
    ∃ body, scan.tokens = body ++ [⟨.endOfInput, "", .nil,
        1 + (before ++ segments.flatMap (·.text)).count '\n'⟩] ∧
      List.Forall₂ MakesToken ((places before segments).filter (·.isToken)) body ∧
      List.Forall₂ MakesError ((places before segments).filter (·.isError)) scan.errors := by
  induction segments generalizing before scan with
  | nil =>
      cases scanned
      exact ⟨[], by simp, .nil, .nil⟩
  | cons segment rest ih =>
      rw [List.forall_mem_cons] at shaped
      obtain ⟨first, later, token, scannedRest, rfl⟩ := ofSegments_cons_inv scanned
      have line : (1 : Int) + before.count '\n' + segment.newlines =
          1 + (before ++ segment.text).count '\n' := by
        rw [List.count_append, newlines]
        omega
      rw [line] at token scannedRest ⊢
      obtain ⟨body, tokens, made, wrong⟩ := ih _ shaped.2 scannedRest
      have madeFirst := token?_made ⟨before, segment⟩ shaped.1 token
      have error := error?_made ⟨before, segment⟩
      have split (keeps : Place → Bool) : (places before (segment :: rest)).filter keeps =
          [⟨before, segment⟩].filter keeps ++
            (places (before ++ segment.text) rest).filter keeps := by
        rw [← List.filter_append]
        rfl
      refine ⟨first.toList ++ body, ?_, ?_, ?_⟩
      · rw [tokens, List.flatMap_cons, List.append_assoc, List.append_assoc]
      · rw [split]
        exact List.rel_append madeFirst made
      · rw [split]
        exact List.rel_append error wrong

/-- The segments of a source text are the one way to tile it, and together they are the text. The
scan has the tokens of those that make one and the errors of those that are one, in order, each on
the line its segment ends on, and one end of input, on the last line. -/
theorem ofSource_lossless (source : String) :
    ∃ segments : List Segment,
      (∀ others, Tiles others source.toList ↔ others = segments) ∧
      segments.flatMap (·.text) = source.toList ∧
      (∀ segment ∈ segments, segment.text ≠ [] ∧ Shape segment.kind segment.text) ∧
      ∃ body,
        (ofSource source).tokens =
          body ++ [⟨.endOfInput, "", .nil, 1 + source.toList.count '\n'⟩] ∧
        (∀ token ∈ body, ¬token.isEnd) ∧
        List.Forall₂ MakesToken ((places [] segments).filter (·.isToken)) body ∧
        List.Forall₂ MakesError ((places [] segments).filter (·.isError))
          (ofSource source).errors := by
  have shaped := (tiles_ofText source.toList).shaped
  obtain ⟨body, tokens, made, wrong⟩ := ofSegments_made [] shaped (tokenize_eq source)
  rw [List.nil_append, flatMap_text_ofText] at tokens
  refine ⟨ofText source.toList, fun others => (tiles_iff others _).trans eq_comm,
    flatMap_text_ofText _, ?_, body, tokens, ?_, made, wrong⟩
  · intro segment member
    exact ⟨(shaped segment member).ne_nil, shaped segment member⟩
  · obtain ⟨others, last, same, -, inside⟩ := ofSource_ends source
    have equal : body ++ [_] = others ++ [last] := tokens.symm.trans same
    rw [(List.append_inj' equal rfl).1]
    exact inside

end Scan

end Lox
