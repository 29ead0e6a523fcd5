import Lox.Proofs.Scan.Lines
import Lox.Proofs.Scan.Shape

/-!
Lexemes that are written one after the other, with blanks, newlines and closed comments between
them, are scanned as their tokens, each on the line it ends on: `Scan.ofSegments_join`. A lexeme
ends before a blank or a newline, and what separates two lexemes makes no token.
-/

set_option autoImplicit false

namespace Lox

open Segment

/-- A text that is one token. -/
inductive Lexeme where
  | symbol (text : List Char) (kind : Token.Kind) (listed : (text, kind) ∈ symbols)
  | reserved (word : String) (kind : Token.Kind) (listed : (word, kind) ∈ keywords)
  | identifier (first : Char) (rest : List Char) (starts : isWordStart first)
      (goesOn : ∀ char ∈ rest, isWordPart char)
      (free : ∀ entry ∈ keywords, entry.1.toList ≠ first :: rest)
  /-- Digits, and more of them after a point unless there are none. -/
  | number (whole fraction : List Char) (inhabited : whole ≠ [])
      (digits : ∀ char ∈ whole ++ fraction, Decimal.isDigit char)
  | string (body : List Char) (inside : '"' ∉ body)

namespace Lexeme

def text : Lexeme → List Char
  | .symbol text _ _ => text
  | .reserved word _ _ => word.toList
  | .identifier first rest _ _ _ => first :: rest
  | .number whole [] _ _ => whole
  | .number whole fraction _ _ => whole ++ '.' :: fraction
  | .string body _ => '"' :: (body ++ ['"'])

def kind : Lexeme → Token.Kind
  | .symbol _ kind _ => kind
  | .reserved _ kind _ => kind
  | .identifier .. => .identifier
  | .number .. => .number
  | .string .. => .string

/-- What the token of a lexeme stands for. -/
def literal : Lexeme → Value
  | .number whole fraction _ _ => .number (Decimal.ofDigits whole fraction).toFloat
  | .string body _ => .text (.ofList body)
  | .symbol .. | .reserved .. | .identifier .. => .nil

def token (lexeme : Lexeme) (line : Int) : Token :=
  ⟨lexeme.kind, .ofList lexeme.text, lexeme.literal, line⟩

/-- The segment that a lexeme is scanned as. -/
def segment (lexeme : Lexeme) : Segment where
  kind := match lexeme with
    | .symbol _ kind _ => .symbol kind.name
    | .reserved .. | .identifier .. => .word
    | .number .. => .number
    | .string .. => .string
  text := lexeme.text

end Lexeme

/-- Blanks, newlines, block comments that are closed and line comments that a newline ends. -/
inductive Trivia : List Char → Prop where
  | nil : Trivia []
  | blank {char : Char} {rest : List Char} (blank : isBlank char) (more : Trivia rest) :
      Trivia (char :: rest)
  | newline {rest : List Char} (more : Trivia rest) : Trivia ('\n' :: rest)
  | blockComment {body rest : List Char} (inside : ¬commentEnd <:+: body) (more : Trivia rest) :
      Trivia ('/' :: '*' :: (body ++ commentEnd ++ rest))
  | lineComment {body rest : List Char} (inside : '\n' ∉ body) (more : Trivia rest) :
      Trivia ('/' :: '/' :: (body ++ '\n' :: rest))

/-- Whether a text is at its end or goes on with a blank or a newline. -/
def Parts (text : List Char) : Prop :=
  ∀ next ∈ text.head?, isBlank next ∨ next = '\n'

/-- What may stand between two lexemes. -/
structure Separator where
  text : List Char
  trivia : Trivia text
  inhabited : text ≠ []
  parts : Parts text

/-- Lexemes with a separator after each but the last, the one at `gap 0` after the first. -/
def Lexeme.join (gap : Nat → Separator) : List Lexeme → List Char
  | [] => []
  | [lexeme] => lexeme.text
  | lexeme :: next :: rest =>
    lexeme.text ++ (gap 0).text ++ join (fun place => gap (place + 1)) (next :: rest)

theorem Parts.append {text : List Char} (parts : Parts text) (inhabited : text ≠ [])
    (more : List Char) : Parts (text ++ more) := by
  obtain ⟨first, rest, rfl⟩ := List.exists_cons_of_ne_nil inhabited
  intro next member
  exact parts next member

theorem Parts.not_of_blank {text : List Char} (parts : Parts text) (stays : Char → Bool)
    (stops : [' ', '\r', '\t', '\n'].all fun char => !stays char) :
    ∀ next ∈ text.head?, ¬stays next := by
  intro next member
  rw [not_stays_of_parts (parts next member) stays stops]
  decide

section Run

variable {stays : Char → Bool} {run after : List Char} (all : ∀ char ∈ run, stays char)
  (stops : ∀ next ∈ after.head?, ¬stays next)

include all stops

/-- A run ends in front of the first character that does not belong to it. -/
theorem takeWhile_run : (run ++ after).takeWhile stays = run := by
  rw [List.takeWhile_append_of_pos all]
  cases after with
  | nil => simp
  | cons next rest => rw [List.takeWhile_cons_of_neg (stops next rfl), List.append_nil]

theorem dropWhile_run : (run ++ after).dropWhile stays = after := by
  have joined := List.takeWhile_append_dropWhile (p := stays) (l := run ++ after)
  rw [takeWhile_run all stops] at joined
  exact List.append_cancel_left joined

end Run

namespace Segment

/-- What the first segment is tells what comes after it. -/
theorem ofText_of_split {segment : Segment} {first : Char} {rest after : List Char}
    (found : (split first rest).1 = segment) (text : first :: rest = segment.text ++ after) :
    ofText (first :: rest) = segment :: ofText after := by
  have joined := split_append first rest
  rw [found, text] at joined
  rw [ofText_cons, found, List.append_cancel_left joined]

section Number

/-- Whether a number that comes before a text ends there. -/
def EndsNumber (after : List Char) : Prop :=
  ∀ next ∈ after.head?, ¬Decimal.isDigit next ∧ next ≠ '.'

theorem endsNumber_of_parts {after : List Char} (parts : Parts after) : EndsNumber after := by
  have stops := parts.not_of_blank Decimal.isDigit (by decide)
  have noPoint := parts.not_of_blank (· == '.') (by decide)
  intro next member
  exact ⟨stops next member, by simpa using noPoint next member⟩

variable {whole fraction after : List Char} (ends : EndsNumber after)
  (digits : ∀ char ∈ whole ++ fraction, Decimal.isDigit char)

include ends digits

theorem splitNumber_of_whole_ends (none : fraction = []) :
    (splitNumber (whole ++ after)).1 = whole := by
  rw [none, List.append_nil] at digits
  have stops (next : Char) (member : next ∈ after.head?) := (ends next member).1
  rw [splitNumber_of_whole, takeWhile_run digits stops]
  intro digit rest found
  rw [dropWhile_run digits stops] at found
  rw [found] at ends
  exact absurd rfl (ends '.' rfl).2

theorem splitNumber_of_fraction_ends (more : fraction ≠ []) :
    (splitNumber (whole ++ '.' :: fraction ++ after)).1 = whole ++ '.' :: fraction := by
  have stops (next : Char) (member : next ∈ after.head?) := (ends next member).1
  obtain ⟨digit, fraction, rfl⟩ := List.exists_cons_of_ne_nil more
  rw [List.forall_mem_append, List.forall_mem_cons] at digits
  have text : whole ++ '.' :: digit :: fraction ++ after =
      whole ++ '.' :: digit :: (fraction ++ after) := by simp
  rw [text, splitNumber_of_point digits.1 digits.2.1, takeWhile_run digits.2.2 stops]

end Number

section Stops

variable {after : List Char} (parts : Parts after)

include parts

theorem split_of_word {first : Char} {rest : List Char} (starts : isWordStart first)
    (goesOn : ∀ char ∈ rest, isWordPart char) :
    (split first (rest ++ after)).1 = ⟨.word, first :: rest⟩ := by
  have stops := parts.not_of_blank isWordPart (by decide)
  rw [split_of_wordStart _ starts, takeWhile_run goesOn stops]

/-- No symbol and no comment begins with another symbol and a blank or a newline. -/
theorem split_of_single_parts {first : Char} {name : String}
    (single : singleName? first = some name) :
    (split first after).1 = ⟨.symbol name, [first]⟩ := by
  have noEqual := parts.not_of_blank (· == '=') (by decide)
  have noStar := parts.not_of_blank (· == '*') (by decide)
  have noSlash := parts.not_of_blank (· == '/') (by decide)
  have noPair : after.head?.bind (pairName? first) = none := by
    rw [Option.bind_eq_none_iff]
    intro second member
    rw [Option.eq_none_iff_forall_ne_some]
    intro pair found
    have ends : ∀ entry ∈ symbols, entry.1.length = 2 → entry.1.getLast? = some '=' := by decide
    obtain ⟨kind, listed, -⟩ := (pairName?_eq_some_iff first second pair).1 found
    have last := ends _ listed rfl
    obtain rfl : second = '=' := by simpa using last
    exact noEqual '=' member rfl
  obtain ⟨kind, listed, -⟩ := (singleName?_eq_some_iff first name).1 single
  have other := symbols_other _ listed
  simp only [List.all_cons, List.all_nil, Bool.and_true, Bool.and_eq_true, bne_iff_ne,
    Bool.not_eq_true', ← Bool.not_eq_true] at other
  obtain ⟨⟨noQuote, noDigit⟩, noWord⟩ := other
  rw [split, if_neg fun opens => noStar '*' opens.2 rfl,
    if_neg fun opens => noSlash '/' opens.2 rfl, if_neg noQuote, if_neg noDigit, if_neg noWord,
    noPair, single]

end Stops

end Segment

namespace Lexeme

theorem keyword_words : ∀ entry ∈ keywords,
    entry.1.toList.head?.any isWordStart ∧ entry.1.toList.all isWordPart ∧
      Token.Kind.ofWord entry.1 = entry.2 := by
  decide

theorem ofWord_of_free {word : String}
    (free : ∀ entry ∈ keywords, entry.1 ≠ word) :
    Token.Kind.ofWord word = .identifier := by
  have missing : Token.Kind.reserved.lookup word = none := by
    rw [reserved_eq, List.lookup_eq_none_iff]
    intro entry listed
    simpa using (free entry listed).symm
  rw [Token.Kind.ofWord, missing, Option.getD_none]

/-- A number in front of what ends it is the first segment. -/
theorem ofText_number_append {whole fraction after : List Char} (inhabited : whole ≠ [])
    (digits : ∀ char ∈ whole ++ fraction, Decimal.isDigit char) (ends : EndsNumber after) :
    ofText ((number whole fraction inhabited digits).text ++ after) =
      (number whole fraction inhabited digits).segment :: ofText after := by
  obtain ⟨first, whole, rfl⟩ := List.exists_cons_of_ne_nil inhabited
  have digit : Decimal.isDigit first := digits first (by simp)
  have found (rest : List Char) := split_of_digit (rest ++ after) digit
  cases fraction with
  | nil =>
      have length := splitNumber_of_whole_ends ends digits rfl
      exact ofText_of_split ((found whole).trans (congrArg _ length)) rfl
  | cons second fraction =>
      have length := splitNumber_of_fraction_ends ends digits (by simp)
      exact ofText_of_split ((found _).trans (congrArg _ length)) rfl

/-- A lexeme in front of a blank or a newline is the first segment. -/
theorem ofText_append (lexeme : Lexeme) {after : List Char} (parts : Parts after) :
    ofText (lexeme.text ++ after) = lexeme.segment :: ofText after := by
  cases lexeme with
  | symbol text kind listed =>
      rcases symbols_cases listed with ⟨first, second, rfl, pair⟩ | ⟨first, rfl, single⟩
      · exact ofText_of_split (split_of_pair after pair) rfl
      · exact ofText_of_split (split_of_single_parts parts single) rfl
  | reserved word kind listed =>
      obtain ⟨starts, all, -⟩ := keyword_words _ listed
      rw [Option.any_eq_true] at starts
      obtain ⟨first, begins, starts⟩ := starts
      obtain ⟨rest, written⟩ := List.head?_eq_some_iff.1 begins
      have goesOn : ∀ char ∈ rest, isWordPart char := by
        rw [written, List.all_cons, Bool.and_eq_true] at all
        exact List.all_eq_true.1 all.2
      have found := split_of_word parts starts goesOn
      rw [← written] at found
      have text : first :: (rest ++ after) = word.toList ++ after := by rw [written]; rfl
      have same := ofText_of_split found text
      rw [text] at same
      exact same
  | identifier first rest starts goesOn free =>
      exact ofText_of_split (split_of_word parts starts goesOn) rfl
  | number whole fraction inhabited digits =>
      exact ofText_number_append inhabited digits (endsNumber_of_parts parts)
  | string body inside =>
      have text : '"' :: (body ++ '"' :: after) = '"' :: (body ++ ['"']) ++ after := by simp
      have same := ofText_of_split (split_of_string inside after) text
      rw [text] at same
      exact same

/-- What a lexeme is scanned as, when its end is on a line. -/
theorem token?_segment (lexeme : Lexeme) (line : Int) :
    lexeme.segment.token? line = .ok (some (lexeme.token line)) := by
  cases lexeme with
  | symbol text kind listed => exact token?_symbol kind.ofName?_name text line
  | reserved word kind listed =>
      have itsOwn : Token.Kind.ofWord word = kind := (keyword_words _ listed).2.2
      simp only [segment, text, Segment.token?, token, Lexeme.kind, literal, String.ofList_toList,
        itsOwn]
  | identifier first rest starts goesOn free =>
      have noKind : Token.Kind.ofWord (.ofList (first :: rest)) = .identifier := by
        apply ofWord_of_free
        intro entry listed same
        apply free entry listed
        rw [same, String.toList_ofList]
      simp only [segment, text, Segment.token?, token, Lexeme.kind, literal, noKind]
  | number whole fraction inhabited digits =>
      rw [List.forall_mem_append] at digits
      cases fraction with
      | nil =>
          have ends : ∀ next ∈ ([] : List Char).head?, ¬Decimal.isDigit next := by
            intro next member
            cases member
          have all := takeWhile_run digits.1 ends
          have nothing := dropWhile_run digits.1 ends
          rw [List.append_nil] at all nothing
          simp only [segment, text, Segment.token?, token, Lexeme.kind, literal, numberValue, all,
            nothing, List.drop_nil]
      | cons digit fraction =>
          have stops : ∀ next ∈ ('.' :: digit :: fraction).head?, ¬Decimal.isDigit next := by
            rintro next ⟨⟩
            decide
          simp only [segment, text, Segment.token?, token, Lexeme.kind, literal, numberValue,
            takeWhile_run digits.1 stops, dropWhile_run digits.1 stops, List.drop_succ_cons,
            List.drop_zero]
  | string body inside =>
      simp only [segment, text, Segment.token?, token, Lexeme.kind, literal, List.drop_succ_cons,
        List.drop_zero, List.dropLast_concat]

theorem error?_segment (lexeme : Lexeme) (line : Int) : lexeme.segment.error? line = none := by
  cases lexeme <;> rfl

end Lexeme

namespace Scan

/-- Tokens in front of a scan. -/
def prepend (tokens : List Token) (scan : Scan) : Scan :=
  ⟨tokens ++ scan.tokens, scan.errors⟩

/-- The segment of a lexeme makes its token. -/
theorem ofSegments_segment (lexeme : Lexeme) (line : Int) (rest : List Segment) :
    ofSegments line (lexeme.segment :: rest) =
      (ofSegments (line + lexeme.text.count '\n') rest).map
        (prepend [lexeme.token (line + lexeme.text.count '\n')]) := by
  have lines : lexeme.segment.newlines = lexeme.text.count '\n' := rfl
  rw [ofSegments, lines, lexeme.token?_segment, lexeme.error?_segment]
  cases ofSegments (line + lexeme.text.count '\n') rest with
  | error unknown => rfl
  | ok scan => rfl

theorem ofSegments_lexeme (lexeme : Lexeme) {after : List Char} (parts : Parts after)
    (line : Int) :
    ofSegments line (ofText (lexeme.text ++ after)) =
      (ofSegments (line + lexeme.text.count '\n') (ofText after)).map
        (prepend [lexeme.token (line + lexeme.text.count '\n')]) := by
  rw [lexeme.ofText_append parts, ofSegments_segment]

theorem ofSegments_blanks {first : Char} (blank : isBlank first) (rest : List Char) (line : Int) :
    ofSegments line (ofText (first :: rest)) =
      ofSegments line (ofText (rest.dropWhile isBlank)) := by
  have text : first :: rest = first :: rest.takeWhile isBlank ++ rest.dropWhile isBlank := by
    rw [List.cons_append, List.takeWhile_append_dropWhile]
  have noNewline : (first :: rest.takeWhile isBlank).count '\n' = 0 := by
    rw [List.count_eq_zero, List.mem_cons]
    rintro (rfl | member)
    · exact absurd blank (by decide)
    · exact absurd (mem_takeWhile member) (by decide)
  rw [ofText_of_split (split_of_blank rest blank) text,
    ofSegments_of_silent fun _ => ⟨rfl, rfl⟩]
  simp only [Segment.newlines, noNewline, Int.ofNat_zero, Int.add_zero]

/-- Blanks in front of blanks are one segment with them. -/
theorem ofSegments_blank {first : Char} (blank : isBlank first) (rest : List Char) (line : Int) :
    ofSegments line (ofText (first :: rest)) = ofSegments line (ofText rest) := by
  rw [ofSegments_blanks blank]
  cases rest with
  | nil => rfl
  | cons next rest =>
      by_cases more : isBlank next
      · rw [List.dropWhile_cons_of_pos more, ofSegments_blanks more]
      · rw [List.dropWhile_cons_of_neg more]

theorem ofSegments_blockComment {body : List Char} (inside : ¬commentEnd <:+: body)
    (after : List Char) (line : Int) :
    ofSegments line (ofText ('/' :: '*' :: (body ++ commentEnd ++ after))) =
      ofSegments (line + body.count '\n') (ofText after) := by
  have found : (split '/' ('*' :: (body ++ commentEnd ++ after))).1 =
      ⟨.blockComment, '/' :: '*' :: (body ++ commentEnd)⟩ := by
    rw [split_of_comment, splitComment_of_body inside]
    rfl
  have lines : Segment.newlines ⟨.blockComment, '/' :: '*' :: (body ++ commentEnd)⟩ =
      body.count '\n' := by
    simp [Segment.newlines, commentEnd]
  rw [ofText_of_split found rfl, ofSegments_of_silent fun _ => ⟨rfl, rfl⟩, lines]

/-- The newline that ends a line comment is no part of it. -/
theorem ofSegments_lineComment {body : List Char} (inside : '\n' ∉ body) (after : List Char)
    (line : Int) :
    ofSegments line (ofText ('/' :: '/' :: (body ++ '\n' :: after))) =
      ofSegments (line + 1) (ofText after) := by
  have found : (split '/' ('/' :: (body ++ '\n' :: after))).1 =
      ⟨.lineComment, '/' :: '/' :: body⟩ := by
    rw [split_of_lineComment, takeWhile_ne_append inside]
    rfl
  have noNewline : Segment.newlines ⟨.lineComment, '/' :: '/' :: body⟩ = 0 := by
    simp [Segment.newlines, List.count_eq_zero.2 inside]
  rw [ofText_of_split found rfl, ofSegments_of_silent fun _ => ⟨rfl, rfl⟩, noNewline,
    Int.ofNat_zero, Int.add_zero, ofText_of_newline, ofSegments_newline]

/-- What separates lexemes only ends lines. -/
theorem ofSegments_trivia {text : List Char} (trivia : Trivia text) (after : List Char)
    (line : Int) :
    ofSegments line (ofText (text ++ after)) =
      ofSegments (line + text.count '\n') (ofText after) := by
  induction trivia generalizing line with
  | nil => simp
  | @blank char rest blank _ ih =>
      have other : char ≠ '\n' := by
        rintro rfl
        exact absurd blank (by decide)
      rw [List.cons_append, ofSegments_blank blank, ih, List.count_cons_of_ne other]
  | @newline rest _ ih =>
      have lines : line + 1 + rest.count '\n' = line + ('\n' :: rest).count '\n' := by
        rw [List.count_cons_self]
        omega
      rw [List.cons_append, ofText_of_newline, ofSegments_newline, ih, lines]
  | @blockComment body rest inside _ ih =>
      have text : '/' :: '*' :: (body ++ commentEnd ++ rest) ++ after =
          '/' :: '*' :: (body ++ commentEnd ++ (rest ++ after)) := by simp
      have lines : line + body.count '\n' + rest.count '\n' =
          line + ('/' :: '*' :: (body ++ commentEnd ++ rest)).count '\n' := by
        simp [commentEnd]
        omega
      rw [text, ofSegments_blockComment inside, ih, lines]
  | @lineComment body rest inside _ ih =>
      have text : '/' :: '/' :: (body ++ '\n' :: rest) ++ after =
          '/' :: '/' :: (body ++ '\n' :: (rest ++ after)) := by simp
      have lines : line + 1 + rest.count '\n' =
          line + ('/' :: '/' :: (body ++ '\n' :: rest)).count '\n' := by
        simp [List.count_eq_zero.2 inside]
        omega
      rw [text, ofSegments_lineComment inside, ih, lines]

/-- The tokens of lexemes that are joined, on the lines where the lexemes end. -/
theorem ofSegments_join (gap : Nat → Separator) (lexemes : List Lexeme) (line : Int) :
    ofSegments line (ofText (Lexeme.join gap lexemes)) =
      .ok ⟨(lexemes.mapIdx fun place lexeme =>
          lexeme.token (line + (Lexeme.join gap (lexemes.take (place + 1))).count '\n')) ++
        [⟨.endOfInput, "", .nil, line + (Lexeme.join gap lexemes).count '\n'⟩], []⟩ := by
  induction lexemes generalizing gap line with
  | nil => simp [Lexeme.join, ofText, ofSegments]
  | cons lexeme lexemes ih =>
      cases lexemes with
      | nil =>
          have ends : Parts [] := by
            intro next member
            cases member
          have alone := ofSegments_lexeme lexeme ends line
          rw [List.append_nil] at alone
          rw [Lexeme.join, alone, ofText, ofSegments]
          simp [Except.map, prepend, Lexeme.join]
      | cons next rest =>
          -- The separator goes with the lexeme before it, so the rest begins with a lexeme again.
          have parts := (gap 0).parts.append (gap 0).inhabited
            (Lexeme.join (fun place => gap (place + 1)) (next :: rest))
          have lines (more : List Char) :
              line + lexeme.text.count '\n' + (gap 0).text.count '\n' + more.count '\n' =
                line + (lexeme.text ++ (gap 0).text ++ more).count '\n' := by
            simp only [List.count_append]
            omega
          rw [Lexeme.join, List.append_assoc, ofSegments_lexeme lexeme parts,
            ofSegments_trivia (gap 0).trivia, ih]
          simp only [Except.map, prepend, lines, List.mapIdx_cons, List.cons_append,
            List.nil_append, List.append_assoc, List.take_succ_cons, List.take_zero, Lexeme.join]

end Scan

end Lox
