import Lox.Decimal
import Lox.Token

/-!
A source text falls into segments: lexemes, blanks, newlines, comments and the stretches that
are errors. Each segment starts where the one before it ends, is not empty, and is as long as
its kind allows, so the segments laid end to end are the text.
-/

set_option autoImplicit false

namespace Lox

/-- What a segment is. -/
inductive Segment.Kind where
  | blockComment
  | lineComment
  | string
  /-- A quote that no second quote follows, with the rest of the text. -/
  | unterminated
  | number
  | word
  /-- Punctuation or an operator, which goes by a name. -/
  | symbol (name : String)
  | newline
  | blanks
  /-- One character that starts nothing. -/
  | unexpected
  deriving DecidableEq

/-- A stretch of source text. -/
structure Segment where
  kind : Segment.Kind
  text : List Char
  deriving DecidableEq

namespace Segment

def isWordStart (char : Char) : Bool :=
  ('a' ≤ char && char ≤ 'z') || ('A' ≤ char && char ≤ 'Z') || char == '_'

def isWordPart (char : Char) : Bool :=
  isWordStart char || Decimal.isDigit char

def isBlank (char : Char) : Bool :=
  char == ' ' || char == '\r' || char == '\t'

/-- The names of the operators of two characters, both of which are needed. -/
def pairName? : Char → Char → Option String
  | '!', '=' => some "BANG_EQUAL"
  | '=', '=' => some "EQUAL_EQUAL"
  | '<', '=' => some "LESS_EQUAL"
  | '>', '=' => some "GREATER_EQUAL"
  | _, _ => none

/-- The names of punctuation and of the operators of one character. -/
def singleName? : Char → Option String
  | '!' => some "BANG"
  | '=' => some "EQUAL"
  | '<' => some "LESS"
  | '>' => some "GREATER"
  | '(' => some "LEFT_PAREN"
  | ')' => some "RIGHT_PAREN"
  | '{' => some "LEFT_BRACE"
  | '}' => some "RIGHT_BRACE"
  | ',' => some "COMMA"
  | '.' => some "DOT"
  | '-' => some "MINUS"
  | '+' => some "PLUS"
  | ';' => some "SEMICOLON"
  | '/' => some "SLASH"
  | '*' => some "STAR"
  | _ => none

/-- Splits a text after the first `*/` in it; a comment that nothing closes takes all. -/
def splitComment : List Char → List Char × List Char
  | [] => ([], [])
  | '*' :: '/' :: rest => (['*', '/'], rest)
  | char :: rest =>
    let (body, after) := splitComment rest
    (char :: body, after)

/-- Splits digits from what follows them. A point belongs to them only if another digit comes
right after it. -/
def splitNumber (text : List Char) : List Char × List Char :=
  match text.dropWhile Decimal.isDigit with
  | '.' :: digit :: rest =>
    if Decimal.isDigit digit then
      (text.takeWhile Decimal.isDigit ++ '.' :: digit :: rest.takeWhile Decimal.isDigit,
        rest.dropWhile Decimal.isDigit)
    else (text.takeWhile Decimal.isDigit, '.' :: digit :: rest)
  | rest => (text.takeWhile Decimal.isDigit, rest)

/-- The first segment of the text `first :: rest`, and what follows it. -/
def split (first : Char) (rest : List Char) : Segment × List Char :=
  if first = '/' ∧ rest.head? = some '*' then
    let (body, after) := splitComment rest.tail
    (⟨.blockComment, '/' :: '*' :: body⟩, after)
  else if first = '/' ∧ rest.head? = some '/' then
    (⟨.lineComment, first :: rest.takeWhile (· != '\n')⟩, rest.dropWhile (· != '\n'))
  else if first = '"' then
    match rest.dropWhile (· != '"') with
    | quote :: after => (⟨.string, first :: rest.takeWhile (· != '"') ++ [quote]⟩, after)
    | [] => (⟨.unterminated, first :: rest⟩, [])
  else if Decimal.isDigit first then
    let (digits, after) := splitNumber (first :: rest)
    (⟨.number, digits⟩, after)
  else if isWordStart first then
    (⟨.word, first :: rest.takeWhile isWordPart⟩, rest.dropWhile isWordPart)
  else
    match rest.head?.bind (pairName? first), singleName? first with
    | some name, _ => (⟨.symbol name, first :: rest.take 1⟩, rest.drop 1)
    | none, some name => (⟨.symbol name, [first]⟩, rest)
    | none, none =>
      if first = '\n' then (⟨.newline, [first]⟩, rest)
      else if isBlank first then
        (⟨.blanks, first :: rest.takeWhile isBlank⟩, rest.dropWhile isBlank)
      else (⟨.unexpected, [first]⟩, rest)

theorem splitComment_append (text : List Char) :
    (splitComment text).1 ++ (splitComment text).2 = text := by
  fun_induction splitComment text <;> simp_all

theorem splitNumber_append (text : List Char) :
    (splitNumber text).1 ++ (splitNumber text).2 = text := by
  fun_cases splitNumber text with
  | case1 digit rest after isDigit =>
    calc _ = text.takeWhile Decimal.isDigit ++ text.dropWhile Decimal.isDigit := by simp [after]
      _ = text := List.takeWhile_append_dropWhile
  | case2 digit rest after notDigit =>
    calc _ = text.takeWhile Decimal.isDigit ++ text.dropWhile Decimal.isDigit := by simp [after]
      _ = text := List.takeWhile_append_dropWhile
  | case3 => exact List.takeWhile_append_dropWhile

/-- The number that begins with a digit takes at least that digit. -/
theorem splitNumber_ne_nil (first : Char) (rest : List Char) (digit : Decimal.isDigit first) :
    (splitNumber (first :: rest)).1 ≠ [] := by
  fun_cases splitNumber (first :: rest) <;> simp [digit]

/-- No character is lost and none is used twice. -/
theorem split_append (first : Char) (rest : List Char) :
    (split first rest).1.text ++ (split first rest).2 = first :: rest := by
  fun_cases split first rest with
  | case1 opens body after found =>
    obtain ⟨slash, star⟩ := opens
    obtain ⟨tail, rfl⟩ := List.head?_eq_some_iff.1 star
    have joined := splitComment_append tail
    rw [List.tail_cons] at found
    simp_all
  | case2 => simp
  | case3 _ _ _ quote after found =>
    calc _ = first :: (rest.takeWhile (· != '"') ++ rest.dropWhile (· != '"')) := by simp [found]
      _ = first :: rest := by rw [List.takeWhile_append_dropWhile]
  | case4 => simp
  | case5 _ _ _ _ digits after found =>
    have joined := splitNumber_append (first :: rest)
    simpa [found] using joined
  | case6 => simp
  | case7 => cases rest <;> simp
  | case8 => simp
  | case9 => simp
  | case10 => simp
  | case11 => simp

theorem split_text_ne_nil (first : Char) (rest : List Char) :
    (split first rest).1.text ≠ [] := by
  fun_cases split first rest with
  | case5 _ _ _ digit digits after found =>
    simpa [found] using splitNumber_ne_nil first rest digit
  | _ => simp

theorem length_split_le (first : Char) (rest : List Char) :
    (split first rest).2.length ≤ rest.length := by
  have joined := congrArg List.length (split_append first rest)
  have some := List.length_pos_iff.2 (split_text_ne_nil first rest)
  simp only [List.length_append, List.length_cons] at joined
  omega

/-- The segments of a text, in order. -/
def ofText : List Char → List Segment
  | [] => []
  | first :: rest => (split first rest).1 :: ofText (split first rest).2
termination_by text => text.length
decreasing_by exact Nat.lt_succ_of_le (length_split_le first rest)

/-- How many lines a segment ends. -/
def newlines (segment : Segment) : Nat :=
  segment.text.count '\n'

/-- A segment that is no symbol, or a symbol with the name of a kind of token. -/
def IsKnown (segment : Segment) : Prop :=
  ∀ name, segment.kind = .symbol name → ∃ kind, Token.Kind.ofName? name = some kind

theorem pairName?_known {first second : Char} {name : String}
    (found : pairName? first second = some name) :
    ∃ kind, Token.Kind.ofName? name = some kind := by
  unfold pairName? at found
  split at found <;> cases found
  · exact ⟨_, Token.Kind.ofName?_name .bangEqual⟩
  · exact ⟨_, Token.Kind.ofName?_name .equalEqual⟩
  · exact ⟨_, Token.Kind.ofName?_name .lessEqual⟩
  · exact ⟨_, Token.Kind.ofName?_name .greaterEqual⟩

theorem singleName?_known {char : Char} {name : String} (found : singleName? char = some name) :
    ∃ kind, Token.Kind.ofName? name = some kind := by
  unfold singleName? at found
  split at found <;> cases found
  · exact ⟨_, Token.Kind.ofName?_name .bang⟩
  · exact ⟨_, Token.Kind.ofName?_name .equal⟩
  · exact ⟨_, Token.Kind.ofName?_name .less⟩
  · exact ⟨_, Token.Kind.ofName?_name .greater⟩
  · exact ⟨_, Token.Kind.ofName?_name .leftParen⟩
  · exact ⟨_, Token.Kind.ofName?_name .rightParen⟩
  · exact ⟨_, Token.Kind.ofName?_name .leftBrace⟩
  · exact ⟨_, Token.Kind.ofName?_name .rightBrace⟩
  · exact ⟨_, Token.Kind.ofName?_name .comma⟩
  · exact ⟨_, Token.Kind.ofName?_name .dot⟩
  · exact ⟨_, Token.Kind.ofName?_name .minus⟩
  · exact ⟨_, Token.Kind.ofName?_name .plus⟩
  · exact ⟨_, Token.Kind.ofName?_name .semicolon⟩
  · exact ⟨_, Token.Kind.ofName?_name .slash⟩
  · exact ⟨_, Token.Kind.ofName?_name .star⟩

theorem split_isKnown (first : Char) (rest : List Char) : (split first rest).1.IsKnown := by
  fun_cases split first rest with
  | case7 noStar noSlash noQuote noDigit noWord name found =>
    rintro _ ⟨⟩
    obtain ⟨second, -, pair⟩ := Option.bind_eq_some_iff.1 found
    exact pairName?_known pair
  | case8 noStar noSlash noQuote noDigit noWord name found =>
    rintro _ ⟨⟩
    exact singleName?_known found
  | _ => exact nofun

/-- Every symbol of a text has the name of a kind of token. -/
theorem ofText_isKnown (text : List Char) : ∀ segment ∈ ofText text, segment.IsKnown := by
  induction text using ofText.induct with
  | case1 =>
    rw [ofText]
    exact nofun
  | case2 first rest ih =>
    rw [ofText, List.forall_mem_cons]
    exact ⟨split_isKnown first rest, ih⟩

end Segment

end Lox
