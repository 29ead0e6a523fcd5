import Lox.Diagnostic
import Lox.Segment

/-!
The tokens and the lexical errors of a source text, read off its segments. Each carries the line
its segment ends on, which is one more than the number of newlines up to there.
-/

set_option autoImplicit false

namespace Lox

/-- Why a segment is an error. -/
inductive ScanError.Cause where
  | unexpectedCharacter
  | unterminatedString
  deriving DecidableEq

/-- A segment that makes no token, with the line it ends on. -/
structure ScanError where
  cause : ScanError.Cause
  line : Int
  deriving DecidableEq

def ScanError.Cause.message : Cause → String
  | .unexpectedCharacter => "Unexpected character."
  | .unterminatedString => "Unterminated string."

def ScanError.diagnostic (error : ScanError) : Diagnostic :=
  .scan error.line error.cause.message

/-- The name of a symbol, where no kind of token goes by it. -/
structure UnknownKind where
  name : String
  deriving DecidableEq

def UnknownKind.message (unknown : UnknownKind) : String :=
  "'" ++ unknown.name ++ "'"

namespace Segment

/-- The number that a segment of digits, with or without a fraction, writes. -/
def numberValue (text : List Char) : Float :=
  let whole := text.takeWhile Decimal.isDigit
  let fraction := (text.dropWhile Decimal.isDigit).drop 1
  (Decimal.ofDigits whole fraction).toFloat

/-- The token a segment makes, if its kind makes one. The kind of a symbol is looked up by the
name of the symbol. -/
def token? (segment : Segment) (line : Int) : Except UnknownKind (Option Token) :=
  let lexeme := String.ofList segment.text
  match segment.kind with
  | .string => .ok (some ⟨.string, lexeme, .text (.ofList (segment.text.drop 1).dropLast), line⟩)
  | .number => .ok (some ⟨.number, lexeme, .number (numberValue segment.text), line⟩)
  | .word => .ok (some ⟨.ofWord lexeme, lexeme, .nil, line⟩)
  | .symbol name =>
    match Token.Kind.ofName? name with
    | some kind => .ok (some ⟨kind, lexeme, .nil, line⟩)
    | none => .error ⟨name⟩
  | .blockComment | .lineComment | .unterminated | .newline | .blanks | .unexpected => .ok none

/-- The error a segment makes, if its kind is one. -/
def error? (segment : Segment) (line : Int) : Option ScanError :=
  match segment.kind with
  | .unexpected => some ⟨.unexpectedCharacter, line⟩
  | .unterminated => some ⟨.unterminatedString, line⟩
  | .blockComment | .lineComment | .string | .number | .word | .symbol _ | .newline
  | .blanks => none

theorem token?_symbol {name : String} {kind : Token.Kind}
    (named : Token.Kind.ofName? name = some kind) (text : List Char) (line : Int) :
    token? ⟨.symbol name, text⟩ line = .ok (some ⟨kind, .ofList text, .nil, line⟩) := by
  simp only [token?, named]

theorem exists_kind_of_symbol {name : String} {text : List Char} {line : Int} {token : Token}
    (made : token? ⟨.symbol name, text⟩ line = .ok (some token)) :
    ∃ kind, Token.Kind.ofName? name = some kind ∧ ⟨kind, .ofList text, .nil, line⟩ = token := by
  cases named : Token.Kind.ofName? name with
  | none => simp only [token?, named, reduceCtorEq] at made
  | some kind =>
    rw [token?_symbol named] at made
    cases made
    exact ⟨kind, rfl, rfl⟩

theorem IsKnown.exists_token {segment : Segment} (known : segment.IsKnown) (line : Int) :
    ∃ token, segment.token? line = .ok token := by
  obtain ⟨kind, text⟩ := segment
  cases kind with
  | symbol name =>
    obtain ⟨kind, named⟩ := known name rfl
    exact ⟨_, token?_symbol named text line⟩
  | _ => exact ⟨_, rfl⟩

end Segment

/-- The tokens of a text in order, with one at its end, and its lexical errors in order. -/
structure Scan where
  tokens : List Token
  errors : List ScanError
  deriving DecidableEq

namespace Scan

/-- The scan of segments that begin on a line. -/
def ofSegments (line : Int) : List Segment → Except UnknownKind Scan
  | [] => .ok ⟨[⟨.endOfInput, "", .nil, line⟩], []⟩
  | segment :: rest => do
    let line := line + segment.newlines
    let token ← segment.token? line
    let scan ← ofSegments line rest
    return ⟨token.toList ++ scan.tokens, (segment.error? line).toList ++ scan.errors⟩

/-- Scans a source text, whose first line is line 1. -/
def tokenize (source : String) : Except UnknownKind Scan :=
  ofSegments 1 (Segment.ofText source.toList)

/-- What segments are scanned as, from the token of the first one and the scan of the others. -/
theorem ofSegments_cons {line : Int} {segment : Segment} {rest : List Segment}
    {token : Option Token} {scan : Scan}
    (made : segment.token? (line + segment.newlines) = .ok token)
    (scanned : ofSegments (line + segment.newlines) rest = .ok scan) :
    ofSegments line (segment :: rest) =
      .ok ⟨token.toList ++ scan.tokens,
        (segment.error? (line + segment.newlines)).toList ++ scan.errors⟩ := by
  rw [ofSegments, made, scanned]
  rfl

/-- The other way round: every scan of segments is made in this way. -/
theorem ofSegments_cons_inv {line : Int} {segment : Segment} {rest : List Segment} {scan : Scan}
    (scanned : ofSegments line (segment :: rest) = .ok scan) :
    ∃ token later, segment.token? (line + segment.newlines) = .ok token ∧
      ofSegments (line + segment.newlines) rest = .ok later ∧
      ⟨token.toList ++ later.tokens,
        (segment.error? (line + segment.newlines)).toList ++ later.errors⟩ = scan := by
  rw [ofSegments] at scanned
  cases made : segment.token? (line + segment.newlines) with
  | error unknown =>
    rw [made] at scanned
    cases scanned
  | ok token =>
    cases found : ofSegments (line + segment.newlines) rest with
    | error unknown =>
      rw [made, found] at scanned
      cases scanned
    | ok later =>
      rw [made, found] at scanned
      cases scanned
      exact ⟨token, later, rfl, rfl, rfl⟩

theorem exists_ofSegments (line : Int) {segments : List Segment}
    (known : ∀ segment ∈ segments, segment.IsKnown) :
    ∃ scan, ofSegments line segments = .ok scan := by
  induction segments generalizing line with
  | nil => exact ⟨_, rfl⟩
  | cons segment rest ih =>
    rw [List.forall_mem_cons] at known
    obtain ⟨token, made⟩ := known.1.exists_token (line + segment.newlines)
    obtain ⟨scan, scanned⟩ := ih (line + segment.newlines) known.2
    exact ⟨_, ofSegments_cons made scanned⟩

/-- No name of a symbol is without a kind of token. -/
theorem tokenize_ne_error (source : String) (unknown : UnknownKind) :
    tokenize source ≠ .error unknown := by
  obtain ⟨scan, scanned⟩ := exists_ofSegments 1 (Segment.ofText_isKnown source.toList)
  rw [tokenize, scanned]
  exact nofun

/-- The scan of a source text. -/
def ofSource (source : String) : Scan :=
  match scanned : tokenize source with
  | .ok scan => scan
  | .error unknown => absurd scanned (tokenize_ne_error source unknown)

theorem tokenize_eq (source : String) : tokenize source = .ok (ofSource source) := by
  unfold ofSource
  split
  · assumption
  · rename_i unknown scanned
    exact absurd scanned (tokenize_ne_error source unknown)

theorem ofSource_of_tokenize {source : String} {scan : Scan}
    (scanned : tokenize source = .ok scan) : ofSource source = scan :=
  Except.ok.inj ((tokenize_eq source).symm.trans scanned)

end Scan

end Lox
