import Lox.Proofs.Scan.Lossless
import Lox.Proofs.Scan.Pattern

/-!
The kinds of segment as a list of alternatives, each with a regular expression. Where a segment
begins, the first alternative of the list that matches is the one that takes it, and no
alternative matches more there, block comments that go on after their end apart: `ofText_longest`.
-/

set_option autoImplicit false

namespace Lox.Segment

/-- A kind of segment and what is matched for it. -/
structure Alternative where
  kind : Kind
  pattern : Pattern

namespace Alternative

def blockComment : Alternative :=
  ⟨.blockComment, .sequence (.literal ['/', '*'])
    (.sequence (.least fun _ => true) (.choice (.literal commentEnd) .atEnd))⟩

def lineComment : Alternative :=
  ⟨.lineComment, .sequence (.literal ['/', '/']) (.most (· != '\n'))⟩

def string : Alternative :=
  ⟨.string, .sequence (.literal ['"']) (.sequence (.most (· != '"')) (.literal ['"']))⟩

def unterminated : Alternative :=
  ⟨.unterminated, .sequence (.literal ['"']) (.sequence (.most (· != '"')) .atEnd)⟩

/-- A point and digits, or nothing. -/
def fraction : Pattern :=
  .optional (.sequence (.literal ['.']) (.some Decimal.isDigit))

def number : Alternative :=
  ⟨.number, .sequence (.some Decimal.isDigit) fraction⟩

def word : Alternative :=
  ⟨.word, .sequence (.one isWordStart) (.most isWordPart)⟩

def symbol (entry : List Char × Token.Kind) : Alternative :=
  ⟨.symbol entry.2.name, .literal entry.1⟩

def newline : Alternative :=
  ⟨.newline, .literal ['\n']⟩

def blanks : Alternative :=
  ⟨.blanks, .some isBlank⟩

def unexpected : Alternative :=
  ⟨.unexpected, .one (· != '\n')⟩

def pairs : List (List Char × Token.Kind) :=
  [(['!', '='], .bangEqual), (['=', '='], .equalEqual), (['<', '='], .lessEqual),
    (['>', '='], .greaterEqual)]

def singles : List (List Char × Token.Kind) :=
  [(['!'], .bang), (['='], .equal), (['<'], .less), (['>'], .greater), (['('], .leftParen),
    ([')'], .rightParen), (['{'], .leftBrace), (['}'], .rightBrace), ([','], .comma),
    (['.'], .dot), (['-'], .minus), (['+'], .plus), ([';'], .semicolon), (['/'], .slash),
    (['*'], .star)]

/-- The alternatives, in the order in which they are tried. -/
def inOrder : List Alternative :=
  [blockComment, lineComment, string, unterminated, number, word] ++
    (pairs ++ singles).map symbol ++ [newline, blanks, unexpected]

/-- The segment that an alternative takes from the front of a text, and what follows it. -/
def segment? (alternative : Alternative) (text : List Char) : Option (Segment × List Char) :=
  (alternative.pattern.ways text).head?.map fun (taken, left) => (⟨alternative.kind, taken⟩, left)

section Rows

variable (first : Char) (rest : List Char)

theorem segment?_literal_then (kind : Kind) (word : List Char) (pattern : Pattern)
    (text : List Char) :
    segment? ⟨kind, .sequence (.literal word) pattern⟩ text =
      if word <+: text then
        (pattern.ways (text.drop word.length)).head?.map
          fun (taken, left) => (⟨kind, word ++ taken⟩, left)
      else none := by
  simp only [segment?, Pattern.ways_literal_then]
  split
  · rw [List.head?_map, Option.map_map]
    rfl
  · rfl

theorem segment?_literal (kind : Kind) (word text : List Char) :
    segment? ⟨kind, .literal word⟩ text =
      if word <+: text then some (⟨kind, word⟩, text.drop word.length) else none := by
  simp only [segment?, Pattern.ways_literal]
  split
  · rfl
  · rfl

theorem single_prefix_iff (char : Char) : [char] <+: first :: rest ↔ first = char := by
  simp [eq_comm]

theorem pair_prefix_iff (left right : Char) :
    [left, right] <+: first :: rest ↔ first = left ∧ rest.head? = some right := by
  cases rest with
  | nil => simp
  | cons second rest => simp [eq_comm]

/-- The shortest comment is tried first, so its first end ends it. -/
theorem head?_ways_comment (text : List Char) :
    ((Pattern.sequence (.least fun _ => true) (.choice (.literal commentEnd) .atEnd)).ways
      text).head? = some (splitComment text) := by
  induction text with
  | nil => rfl
  | cons char rest ih =>
      rw [Pattern.ways_least_then, if_pos rfl, List.head?_append, List.head?_map, ih]
      by_cases ends : char = '*' ∧ rest.head? = some '/'
      · obtain ⟨rfl, slash⟩ := ends
        obtain ⟨after, rfl⟩ := List.head?_eq_some_iff.1 slash
        rfl
      · have noEnd : ¬commentEnd <+: char :: rest := by
          rw [commentEnd, pair_prefix_iff]
          exact ends
        rw [Pattern.ways_choice, Pattern.ways_literal, if_neg noEnd, splitComment_cons ends]
        rfl

theorem segment?_blockComment :
    blockComment.segment? (first :: rest) =
      if first = '/' ∧ rest.head? = some '*' then
        some (⟨.blockComment, '/' :: '*' :: (splitComment rest.tail).1⟩, (splitComment rest.tail).2)
      else none := by
  rw [blockComment, segment?_literal_then, head?_ways_comment]
  simp only [pair_prefix_iff]
  cases rest with
  | nil => rfl
  | cons second rest => rfl

theorem segment?_lineComment :
    lineComment.segment? (first :: rest) =
      if first = '/' ∧ rest.head? = some '/' then
        some (⟨.lineComment, first :: rest.takeWhile (· != '\n')⟩, rest.dropWhile (· != '\n'))
      else none := by
  rw [lineComment, segment?_literal_then, Pattern.head?_ways_most]
  simp only [pair_prefix_iff]
  split
  · rename_i opens
    obtain ⟨rfl, slash⟩ := opens
    obtain ⟨after, rfl⟩ := List.head?_eq_some_iff.1 slash
    rfl
  · rfl

/-- What closes a string cannot begin inside it. -/
theorem segment?_string :
    string.segment? (first :: rest) =
      if first = '"' then
        (rest.dropWhile (· != '"')).head?.map fun quote =>
          (⟨.string, first :: rest.takeWhile (· != '"') ++ [quote]⟩,
            (rest.dropWhile (· != '"')).tail)
      else none := by
  have refuses : ∀ first, (first != '"') = true → ∀ rest,
      (Pattern.literal ['"']).ways (first :: rest) = [] := by
    intro first other rest
    have noQuote : ¬['"'] <+: first :: rest := by
      rw [single_prefix_iff]
      simpa using other
    rw [Pattern.ways_literal, if_neg noQuote]
  rw [string, segment?_literal_then, Pattern.ways_most_then_of_refused refuses,
    Pattern.ways_literal]
  simp only [single_prefix_iff]
  split
  · rename_i opens
    subst opens
    rw [List.length_singleton, List.drop_succ_cons, List.drop_zero]
    have stops := List.head?_dropWhile_not (· != '"') rest
    cases found : rest.dropWhile (· != '"') with
    | nil => rfl
    | cons quote after =>
        rw [found] at stops
        obtain rfl : quote = '"' := by simpa using stops
        rw [if_pos (by simp)]
        rfl
  · rfl

theorem segment?_unterminated :
    unterminated.segment? (first :: rest) =
      if first = '"' ∧ rest.dropWhile (· != '"') = [] then some (⟨.unterminated, first :: rest⟩, [])
      else none := by
  have refuses : ∀ first, (first != '"') = true → ∀ rest, Pattern.atEnd.ways (first :: rest) = [] :=
    fun _ _ _ => rfl
  rw [unterminated, segment?_literal_then, Pattern.ways_most_then_of_refused refuses,
    Pattern.ways_atEnd, List.length_singleton, List.drop_succ_cons, List.drop_zero]
  simp only [single_prefix_iff]
  by_cases opens : first = '"'
  · subst opens
    have joined := List.takeWhile_append_dropWhile (p := (· != '"')) (l := rest)
    by_cases found : rest.dropWhile (· != '"') = []
    · rw [found, List.append_nil] at joined
      simp [found, joined, Pattern.prepend]
    · simp [found]
  · simp [opens]

theorem head?_ways_fraction {digit : Char} (isDigit : Decimal.isDigit digit) (rest : List Char) :
    (fraction.ways ('.' :: digit :: rest)).head? =
      some ('.' :: digit :: rest.takeWhile Decimal.isDigit, rest.dropWhile Decimal.isDigit) := by
  have point : ['.'] <+: '.' :: digit :: rest := List.prefix_append ['.'] _
  rw [fraction, Pattern.optional, Pattern.ways_choice, Pattern.ways_literal_then, if_pos point,
    List.head?_append, List.head?_map, List.length_singleton, List.drop_succ_cons, List.drop_zero,
    Pattern.head?_ways_some, if_pos isDigit]
  rfl

theorem head?_ways_noFraction {text : List Char}
    (noFraction : ∀ digit rest, text = '.' :: digit :: rest → ¬Decimal.isDigit digit) :
    (fraction.ways text).head? = some ([], text) := by
  have refused : ((Pattern.sequence (.literal ['.']) (.some Decimal.isDigit)).ways text).head? =
      none := by
    rw [Pattern.ways_literal_then]
    split
    · rename_i point
      obtain ⟨after, rfl⟩ := point
      rw [List.head?_map, List.drop_left]
      cases after with
      | nil => rfl
      | cons digit rest =>
          rw [Pattern.head?_ways_some, if_neg (noFraction digit rest rfl)]
          rfl
    · rfl
  rw [fraction, Pattern.optional, Pattern.ways_choice, List.head?_append, refused]
  rfl

theorem segment?_number :
    number.segment? (first :: rest) =
      if Decimal.isDigit first then
        some (⟨.number, (splitNumber (first :: rest)).1⟩, (splitNumber (first :: rest)).2)
      else none := by
  rw [segment?, number, Pattern.some, Pattern.ways_sequence_assoc, Pattern.ways_one_then]
  split
  · rename_i isDigit
    have front := List.takeWhile_cons_of_pos (l := rest) isDigit
    have back := List.dropWhile_cons_of_pos (l := rest) isDigit
    rw [List.head?_map]
    by_cases hasFraction : ∃ digit after,
        rest.dropWhile Decimal.isDigit = '.' :: digit :: after ∧ Decimal.isDigit digit
    · obtain ⟨digit, after, found, more⟩ := hasFraction
      have following := head?_ways_fraction more after
      rw [← found] at following
      rw [Pattern.head?_ways_most_then following, splitNumber_of_fraction (back.trans found) more,
        front]
      rfl
    · have noFraction : ∀ digit after, rest.dropWhile Decimal.isDigit = '.' :: digit :: after →
          ¬Decimal.isDigit digit := by
        intro digit after found more
        exact hasFraction ⟨digit, after, found, more⟩
      have alone := head?_ways_noFraction noFraction
      rw [← back] at noFraction
      rw [Pattern.head?_ways_most_then alone, splitNumber_of_whole noFraction, front, back]
      simp [Pattern.prepend]
  · rfl

theorem segment?_word :
    word.segment? (first :: rest) =
      if isWordStart first then
        some (⟨.word, first :: rest.takeWhile isWordPart⟩, rest.dropWhile isWordPart)
      else none := by
  rw [segment?, word, Pattern.ways_one_then]
  split
  · rw [List.head?_map, Pattern.head?_ways_most]
    rfl
  · rfl

theorem findSome?_pairs :
    (pairs.map symbol).findSome? (·.segment? (first :: rest)) =
      (rest.head?.bind (pairName? first)).map fun name =>
        (⟨.symbol name, first :: rest.take 1⟩, rest.drop 1) := by
  cases found : rest.head?.bind (pairName? first) with
  | none =>
      have listed : ∀ entry ∈ pairs, entry.1.length = 2 ∧ entry ∈ symbols := by decide
      rw [Option.map_none, List.findSome?_eq_none_iff]
      intro alternative member
      obtain ⟨⟨text, kind⟩, inside, rfl⟩ := List.mem_map.1 member
      obtain ⟨two, isSymbol⟩ := listed _ inside
      obtain ⟨left, right, rfl⟩ := List.length_eq_two.1 two
      rw [symbol, segment?_literal, if_neg]
      rw [pair_prefix_iff]
      rintro ⟨rfl, second⟩
      rw [second, Option.bind_some,
        (pairName?_eq_some_iff _ _ _).2 ⟨kind, isSymbol, rfl⟩] at found
      cases found
  | some name =>
      cases rest with
      | nil => cases found
      | cons second rest =>
          rw [List.head?_cons, Option.bind_some] at found
          unfold pairName? at found
          split at found
          · cases found
            rfl
          · cases found
            rfl
          · cases found
            rfl
          · cases found
            rfl
          · cases found

theorem findSome?_singles :
    (singles.map symbol).findSome? (·.segment? (first :: rest)) =
      (singleName? first).map fun name => (⟨.symbol name, [first]⟩, rest) := by
  cases found : singleName? first with
  | none =>
      have listed : ∀ entry ∈ singles, entry.1.length = 1 ∧ entry ∈ symbols := by decide
      rw [Option.map_none, List.findSome?_eq_none_iff]
      intro alternative member
      obtain ⟨⟨text, kind⟩, inside, rfl⟩ := List.mem_map.1 member
      obtain ⟨one, isSymbol⟩ := listed _ inside
      obtain ⟨char, rfl⟩ := List.length_eq_one_iff.1 one
      rw [symbol, segment?_literal, if_neg]
      rw [single_prefix_iff]
      rintro rfl
      rw [singleName?_of_listed isSymbol] at found
      cases found
  | some name =>
      unfold singleName? at found
      split at found <;> first | (cases found; rfl) | cases found

theorem segment?_newline :
    newline.segment? (first :: rest) =
      if first = '\n' then some (⟨.newline, [first]⟩, rest) else none := by
  rw [newline, segment?_literal]
  simp only [single_prefix_iff]
  split
  · rename_i same
    rw [same]
    rfl
  · rfl

theorem segment?_blanks :
    blanks.segment? (first :: rest) =
      if isBlank first then
        some (⟨.blanks, first :: rest.takeWhile isBlank⟩, rest.dropWhile isBlank)
      else none := by
  rw [segment?, blanks, Pattern.head?_ways_some]
  split
  · rfl
  · rfl

theorem segment?_unexpected :
    unexpected.segment? (first :: rest) =
      if first = '\n' then none else some (⟨.unexpected, [first]⟩, rest) := by
  rw [segment?, unexpected, Pattern.ways_one_cons]
  simp only [bne_iff_ne, ne_eq, ite_not]
  split
  · rfl
  · rfl

/-- Where a segment begins, the first alternative that matches takes it. -/
theorem findSome?_inOrder :
    inOrder.findSome? (·.segment? (first :: rest)) = some (split first rest) := by
  have rows := findSome?_pairs first rest
  have more := findSome?_singles first rest
  simp only [inOrder, List.map_append, List.findSome?_append, List.findSome?_cons,
    List.findSome?_nil, rows, more, segment?_blockComment, segment?_lineComment, segment?_string,
    segment?_unterminated, segment?_number, segment?_word, segment?_newline, segment?_blanks,
    segment?_unexpected]
  fun_cases split first rest with
  | case1 opens body after found => simp [opens, found]
  | case2 noStar opens => simp [opens]
  | case3 noStar noSlash opens quote after found => simp [opens, found]
  | case4 noStar noSlash opens found => simp [opens, found]
  | case5 noStar noSlash noQuote isDigit digits after found =>
      simp [noStar, noSlash, noQuote, isDigit, found]
  | case6 noStar noSlash noQuote noDigit isWord =>
      simp [noStar, noSlash, noQuote, noDigit, isWord]
  | case7 noStar noSlash noQuote noDigit noWord kind found =>
      simp [noStar, noSlash, noQuote, noDigit, noWord, found]
  | case8 noStar noSlash noQuote noDigit noWord kind found noPair =>
      simp [noStar, noSlash, noQuote, noDigit, noWord, noPair, found]
  | case9 noStar noSlash noQuote noDigit noWord noSymbol noPair isNewline =>
      simp [noStar, noSlash, noQuote, noDigit, noWord, noPair, noSymbol, if_pos isNewline]
  | case10 noStar noSlash noQuote noDigit noWord noSymbol noPair noNewline blank =>
      simp [noStar, noSlash, noQuote, noDigit, noWord, noPair, noSymbol, noNewline, blank]
  | case11 noStar noSlash noQuote noDigit noWord noSymbol noPair noNewline noBlank =>
      simp [noStar, noSlash, noQuote, noDigit, noWord, noPair, noSymbol, noNewline, noBlank]

end Rows

end Alternative

/-- A block comment in which no end of one comes before its own. -/
def EndsFirst (text : List Char) : Prop :=
  ¬commentEnd <:+: (text.drop 2).dropLast

theorem shape_of_endsFirst {body : List Char} (ends : EndsFirst ('/' :: '*' :: body)) :
    Shape .blockComment ('/' :: '*' :: body) := by
  by_cases inside : commentEnd <:+: body
  · rcases List.eq_nil_or_concat' body with rfl | ⟨front, last, rfl⟩
    · exact absurd inside (by decide)
    · rw [EndsFirst, List.drop_succ_cons, List.drop_succ_cons, List.drop_zero,
        List.dropLast_concat] at ends
      rcases List.infix_concat_iff.1 inside with isLast | within
      · obtain ⟨before, same⟩ := isLast
        have shorter : before ++ ['*'] = front := by
          have dropped := congrArg List.dropLast same
          rwa [List.dropLast_concat, commentEnd, List.dropLast_append_cons] at dropped
        rw [← same]
        apply Shape.closedComment
        intro found
        rw [← shorter] at ends
        exact ends (found.trans (List.prefix_append before _).isInfix)
      · exact absurd within ends
  · exact .openComment inside

theorem Shape.endsFirst {text : List Char} (shape : Shape .blockComment text) :
    EndsFirst text := by
  cases shape with
  | @closedComment body inside =>
      have dropped : (body ++ commentEnd).dropLast = body ++ ['*'] :=
        List.dropLast_append_cons
      rw [EndsFirst, List.drop_succ_cons, List.drop_succ_cons, List.drop_zero, dropped]
      exact no_end_append inside (by decide)
  | @openComment body inside =>
      intro found
      exact inside (found.trans (List.dropLast_prefix body).isInfix)

/-- A point in a number is followed by a digit. -/
theorem Shape.digit_of_point {front back : List Char}
    (shape : Shape .number (front ++ '.' :: back)) :
    ∃ digit rest, back = digit :: rest ∧ Decimal.isDigit digit := by
  have noPoint {digits : List Char} (all : ∀ char ∈ digits, Decimal.isDigit char) :
      '.' ∉ digits := by
    intro member
    exact absurd (all '.' member) (by decide)
  generalize same : front ++ '.' :: back = text at shape
  cases shape with
  | whole inhabited all =>
      rw [← same] at all
      exact absurd (List.mem_append_right front List.mem_cons_self) (noPoint all)
  | fraction inhabited all more every =>
      rw [eq_comm, List.append_cons_inj_of_notMem (noPoint all) (noPoint every)] at same
      obtain ⟨-, -, rfl⟩ := same
      obtain ⟨digit, rest, rfl⟩ := List.exists_cons_of_ne_nil more
      exact ⟨digit, rest, rfl, every digit List.mem_cons_self⟩

namespace Alternative

section Shape

variable {text taken left : List Char}

theorem shape_blockComment (way : (taken, left) ∈ blockComment.pattern.ways text)
    (ends : EndsFirst taken) : Shape .blockComment taken := by
  obtain ⟨opening, middle, body, opens, -, rfl⟩ := Pattern.mem_ways_sequence way
  obtain rfl := Pattern.mem_ways_literal opens
  exact shape_of_endsFirst ends

theorem shape_lineComment (way : (taken, left) ∈ lineComment.pattern.ways text) :
    Shape .lineComment taken := by
  obtain ⟨opening, middle, body, opens, run, rfl⟩ := Pattern.mem_ways_sequence way
  obtain rfl := Pattern.mem_ways_literal opens
  have inside := (Pattern.mem_mostWays run).2
  exact .lineComment fun member => by simpa using inside '\n' member

theorem shape_string (way : (taken, left) ∈ string.pattern.ways text) : Shape .string taken := by
  obtain ⟨opening, middle, inner, opens, more, rfl⟩ := Pattern.mem_ways_sequence way
  obtain ⟨body, rest, closing, run, closes, rfl⟩ := Pattern.mem_ways_sequence more
  obtain rfl := Pattern.mem_ways_literal opens
  obtain rfl := Pattern.mem_ways_literal closes
  have inside := (Pattern.mem_mostWays run).2
  exact .string fun member => by simpa using inside '"' member

theorem shape_unterminated (way : (taken, left) ∈ unterminated.pattern.ways text) :
    Shape .unterminated taken := by
  obtain ⟨opening, middle, inner, opens, more, rfl⟩ := Pattern.mem_ways_sequence way
  obtain ⟨body, rest, closing, run, closes, rfl⟩ := Pattern.mem_ways_sequence more
  obtain rfl := Pattern.mem_ways_literal opens
  obtain ⟨rfl, -⟩ := Pattern.mem_ways_atEnd closes
  have inside := (Pattern.mem_mostWays run).2
  rw [List.append_nil]
  exact .unterminated fun member => by simpa using inside '"' member

theorem shape_number (way : (taken, left) ∈ number.pattern.ways text) : Shape .number taken := by
  obtain ⟨whole, middle, back, run, more, rfl⟩ := Pattern.mem_ways_sequence way
  obtain ⟨inhabited, all⟩ := Pattern.mem_ways_some run
  rcases List.mem_append.1 more with following | alone
  · obtain ⟨point, rest, digits, begins, later, rfl⟩ := Pattern.mem_ways_sequence following
    obtain rfl := Pattern.mem_ways_literal begins
    obtain ⟨some, every⟩ := Pattern.mem_ways_some later
    exact .fraction inhabited all some every
  · obtain ⟨rfl, -⟩ := Prod.mk.inj (List.mem_singleton.1 alone)
    rw [List.append_nil]
    exact .whole inhabited all

theorem shape_word (way : (taken, left) ∈ word.pattern.ways text) : Shape .word taken := by
  obtain ⟨front, middle, rest, begins, run, rfl⟩ := Pattern.mem_ways_sequence way
  obtain ⟨first, starts, rfl, -⟩ := Pattern.mem_ways_one begins
  exact .word starts (Pattern.mem_mostWays run).2

theorem shape_symbol {entry : List Char × Token.Kind} (listed : entry ∈ symbols)
    (way : (taken, left) ∈ (symbol entry).pattern.ways text) :
    Shape (.symbol entry.2.name) taken := by
  rw [Pattern.mem_ways_literal way]
  exact .symbol listed

theorem shape_blanks (way : (taken, left) ∈ blanks.pattern.ways text) : Shape .blanks taken := by
  obtain ⟨inhabited, all⟩ := Pattern.mem_ways_some way
  exact .blanks inhabited all

/-- What an alternative matches has the shape of its kind, or it is a single character. -/
theorem shape_or_single {alternative : Alternative} (listed : alternative ∈ inOrder)
    (way : (taken, left) ∈ alternative.pattern.ways text)
    (ends : alternative.kind = .blockComment → EndsFirst taken) :
    Shape alternative.kind taken ∨ taken.length = 1 := by
  have isSymbol : ∀ entry ∈ pairs ++ singles, entry ∈ symbols := by decide
  simp only [inOrder, List.mem_append, List.mem_cons, List.not_mem_nil, or_false] at listed
  rcases listed with ((rfl | rfl | rfl | rfl | rfl | rfl) | symbols) | rfl | rfl | rfl
  · exact .inl (shape_blockComment way (ends rfl))
  · exact .inl (shape_lineComment way)
  · exact .inl (shape_string way)
  · exact .inl (shape_unterminated way)
  · exact .inl (shape_number way)
  · exact .inl (shape_word way)
  · obtain ⟨entry, inside, rfl⟩ := List.mem_map.1 symbols
    exact .inl (shape_symbol (isSymbol entry inside) way)
  · rw [Pattern.mem_ways_literal way]
    exact .inl .newline
  · exact .inl (shape_blanks way)
  · obtain ⟨char, -, rfl, -⟩ := Pattern.mem_ways_one way
    exact .inr rfl

end Shape

end Alternative

/-- Nothing that an alternative matches is longer than the segment that leads. -/
theorem Leads.length_way_le {segment : Segment} {after : List Char} (leads : segment.Leads after)
    {alternative : Alternative} (listed : alternative ∈ Alternative.inOrder)
    {taken left : List Char}
    (way : (taken, left) ∈ alternative.pattern.ways (segment.text ++ after))
    (ends : alternative.kind = .blockComment → EndsFirst taken) :
    taken.length ≤ segment.text.length := by
  rcases Alternative.shape_or_single listed way ends with shape | single
  · exact leads.longest _ _ shape ⟨left, Pattern.append_of_mem_ways way⟩
  · rw [single]
    exact List.length_pos_iff.2 leads.shape.ne_nil

/-- The segment that leads is what the first alternative that matches takes. -/
theorem Leads.exists_alternative {segment : Segment} {after : List Char}
    (leads : segment.Leads after) :
    ∃ earlier pattern later,
      Alternative.inOrder = earlier ++ ⟨segment.kind, pattern⟩ :: later ∧
      (pattern.ways (segment.text ++ after)).head? = some (segment.text, after) ∧
      ∀ alternative ∈ earlier, alternative.pattern.ways (segment.text ++ after) = [] := by
  obtain ⟨first, rest, same⟩ := List.exists_cons_of_ne_nil leads.shape.ne_nil
  have text : first :: (rest ++ after) = segment.text ++ after := by
    rw [same]
    rfl
  have found := Alternative.findSome?_inOrder first (rest ++ after)
  rw [leads.split_eq text, text, List.findSome?_eq_some_iff] at found
  obtain ⟨earlier, ⟨kind, pattern⟩, later, listed, takes, others⟩ := found
  obtain ⟨⟨taken, left⟩, head, made⟩ := Option.map_eq_some_iff.1 takes
  obtain ⟨rfl, rfl⟩ := Prod.mk.inj made
  refine ⟨earlier, pattern, later, listed, head, ?_⟩
  intro alternative member
  have refused := others alternative member
  rwa [Alternative.segment?, Option.map_eq_none_iff, List.head?_eq_none_iff] at refused

/-- Where a segment of a source text begins, the first alternative that matches takes it, and no
alternative matches more there, except a block comment that goes on after its end. A block comment
ends at its first end or else with the text, and each point in a number has a digit after it. -/
theorem ofText_longest {source : String} {before after : List Segment} {segment : Segment}
    (segments : ofText source.toList = before ++ segment :: after) :
    before.flatMap (·.text) ++ (segment.text ++ after.flatMap (·.text)) = source.toList ∧
      (∃ earlier pattern later,
        Alternative.inOrder = earlier ++ ⟨segment.kind, pattern⟩ :: later ∧
        (pattern.ways (segment.text ++ after.flatMap (·.text))).head? =
          some (segment.text, after.flatMap (·.text)) ∧
        ∀ alternative ∈ earlier,
          alternative.pattern.ways (segment.text ++ after.flatMap (·.text)) = []) ∧
      (∀ alternative ∈ Alternative.inOrder, ∀ taken left,
        (taken, left) ∈ alternative.pattern.ways (segment.text ++ after.flatMap (·.text)) →
        (alternative.kind = .blockComment → EndsFirst taken) →
        taken.length ≤ segment.text.length) ∧
      (segment.kind = .blockComment →
        EndsFirst segment.text ∧ (commentEnd <:+ segment.text.drop 2 ∨ after = [])) ∧
      (segment.kind = .number → ∀ front back, segment.text = front ++ '.' :: back →
        ∃ digit rest, back = digit :: rest ∧ Decimal.isDigit digit) := by
  have text := flatMap_text_ofText source.toList
  rw [segments, List.flatMap_append, List.flatMap_cons] at text
  have leads := leads_of_ofText segments
  refine ⟨text, leads.exists_alternative, ?_, ?_, ?_⟩
  · intro alternative listed taken left way ends
    exact leads.length_way_le listed way ends
  · intro isComment
    have shape := leads.shape
    rw [isComment] at shape
    refine ⟨shape.endsFirst, ?_⟩
    rw [Classical.or_iff_not_imp_right]
    intro more
    rw [List.append_cons] at segments
    have closed := not_isOpen_of_ofText segments more segment (by simp)
    apply Classical.byContradiction
    intro endless
    exact closed (.inr ⟨isComment, endless⟩)
  · intro isNumber front back same
    have shape := leads.shape
    rw [isNumber, same] at shape
    exact shape.digit_of_point

theorem ofText_longest_number :
    ofText "x<=1.;".toList =
        [⟨.word, ['x']⟩, ⟨.symbol "LESS_EQUAL", ['<', '=']⟩] ++
          ⟨.number, ['1']⟩ :: [⟨.symbol "DOT", ['.']⟩, ⟨.symbol "SEMICOLON", [';']⟩] ∧
      ∀ alternative ∈ Alternative.inOrder, ∀ taken left,
        (taken, left) ∈ alternative.pattern.ways ['1', '.', ';'] →
        (alternative.kind = .blockComment → EndsFirst taken) → taken.length ≤ 1 := by
  have segments : ofText "x<=1.;".toList =
      [⟨.word, ['x']⟩, ⟨.symbol "LESS_EQUAL", ['<', '=']⟩] ++
        ⟨.number, ['1']⟩ :: [⟨.symbol "DOT", ['.']⟩, ⟨.symbol "SEMICOLON", [';']⟩] := by
    decide +kernel
  obtain ⟨-, -, longest, -⟩ := ofText_longest segments
  exact ⟨segments, longest⟩

end Lox.Segment
