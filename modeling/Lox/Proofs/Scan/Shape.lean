import Lox.Proofs.Scan.Seam

/-!
What a segment of each kind looks like, apart from how it is found: `Shape`. The first segment of a
text has the shape of its kind, and it is the longest piece at the front of the text that has any
shape: `split_shape`, `Shape.lt_or_eq_split`.
-/

set_option autoImplicit false

namespace Lox.Segment

/-- The symbols, as they are written. -/
def symbols : List (List Char × Token.Kind) :=
  [(['!'], .bang), (['='], .equal), (['<'], .less), (['>'], .greater), (['!', '='], .bangEqual),
    (['=', '='], .equalEqual), (['<', '='], .lessEqual), (['>', '='], .greaterEqual),
    (['('], .leftParen), ([')'], .rightParen), (['{'], .leftBrace), (['}'], .rightBrace),
    ([','], .comma), (['.'], .dot), (['-'], .minus), (['+'], .plus), ([';'], .semicolon),
    (['/'], .slash), (['*'], .star)]

/-- The words that are no identifiers. -/
def keywords : List (String × Token.Kind) :=
  [("and", .andWord), ("class", .classWord), ("else", .elseWord), ("false", .falseWord),
    ("for", .forWord), ("fun", .funWord), ("if", .ifWord), ("nil", .nilWord), ("or", .orWord),
    ("print", .printWord), ("return", .returnWord), ("super", .superWord), ("this", .thisWord),
    ("true", .trueWord), ("var", .varWord), ("while", .whileWord)]

theorem reserved_eq : Token.Kind.reserved = keywords := rfl

/-- What ends a block comment. -/
def commentEnd : List Char :=
  ['*', '/']

/-- A character that begins no segment but that of itself alone. -/
structure BeginsNothing (char : Char) : Prop where
  noQuote : char ≠ '"'
  noDigit : ¬Decimal.isDigit char
  noWord : ¬isWordStart char
  noSymbol : ∀ entry ∈ symbols, entry.1.head? ≠ some char
  noNewline : char ≠ '\n'
  noBlank : ¬isBlank char

/-- How a segment of a kind is written. -/
inductive Shape : Kind → List Char → Prop where
  | closedComment {body : List Char} (inside : ¬commentEnd <:+: body) :
      Shape .blockComment ('/' :: '*' :: (body ++ commentEnd))
  | openComment {body : List Char} (inside : ¬commentEnd <:+: body) :
      Shape .blockComment ('/' :: '*' :: body)
  | lineComment {body : List Char} (inside : '\n' ∉ body) : Shape .lineComment ('/' :: '/' :: body)
  | string {body : List Char} (inside : '"' ∉ body) : Shape .string ('"' :: (body ++ ['"']))
  | unterminated {body : List Char} (inside : '"' ∉ body) : Shape .unterminated ('"' :: body)
  | whole {digits : List Char} (inhabited : digits ≠ [])
      (all : ∀ char ∈ digits, Decimal.isDigit char) : Shape .number digits
  | fraction {whole digits : List Char} (inhabited : whole ≠ [])
      (all : ∀ char ∈ whole, Decimal.isDigit char) (more : digits ≠ [])
      (every : ∀ char ∈ digits, Decimal.isDigit char) : Shape .number (whole ++ '.' :: digits)
  | word {first : Char} {rest : List Char} (starts : isWordStart first)
      (goesOn : ∀ char ∈ rest, isWordPart char) : Shape .word (first :: rest)
  | symbol {text : List Char} {kind : Token.Kind} (listed : (text, kind) ∈ symbols) :
      Shape (.symbol kind.name) text
  | newline : Shape .newline ['\n']
  | blanks {text : List Char} (inhabited : text ≠ []) (all : ∀ char ∈ text, isBlank char) :
      Shape .blanks text
  | unexpected {char : Char} (nothing : BeginsNothing char) : Shape .unexpected [char]

theorem pairName?_eq_some_iff (first second : Char) (name : String) :
    pairName? first second = some name ↔
      ∃ kind, ([first, second], kind) ∈ symbols ∧ kind.name = name := by
  constructor
  · unfold pairName?
    split
    · rintro ⟨⟩
      exact ⟨.bangEqual, by decide, rfl⟩
    · rintro ⟨⟩
      exact ⟨.equalEqual, by decide, rfl⟩
    · rintro ⟨⟩
      exact ⟨.lessEqual, by decide, rfl⟩
    · rintro ⟨⟩
      exact ⟨.greaterEqual, by decide, rfl⟩
    · exact nofun
  · rintro ⟨kind, listed, rfl⟩
    simp only [symbols, List.mem_cons, Prod.mk.injEq, List.cons.injEq, reduceCtorEq, and_false,
      false_and, false_or, and_true, List.not_mem_nil, or_false] at listed
    obtain ⟨⟨rfl, rfl⟩, rfl⟩ | ⟨⟨rfl, rfl⟩, rfl⟩ | ⟨⟨rfl, rfl⟩, rfl⟩ | ⟨⟨rfl, rfl⟩, rfl⟩ := listed
    · rfl
    · rfl
    · rfl
    · rfl

theorem singleName?_of_listed {char : Char} {kind : Token.Kind}
    (listed : ([char], kind) ∈ symbols) : singleName? char = some kind.name := by
  simp only [symbols, List.mem_cons, Prod.mk.injEq, List.cons.injEq, reduceCtorEq, and_false,
    false_and, false_or, and_true, List.not_mem_nil, or_false] at listed
  rcases listed with ⟨rfl, rfl⟩ | ⟨rfl, rfl⟩ | ⟨rfl, rfl⟩ | ⟨rfl, rfl⟩ | ⟨rfl, rfl⟩ | ⟨rfl, rfl⟩ |
    ⟨rfl, rfl⟩ | ⟨rfl, rfl⟩ | ⟨rfl, rfl⟩ | ⟨rfl, rfl⟩ | ⟨rfl, rfl⟩ | ⟨rfl, rfl⟩ | ⟨rfl, rfl⟩ |
    ⟨rfl, rfl⟩ | ⟨rfl, rfl⟩ <;> rfl

theorem singleName?_eq_some_iff (char : Char) (name : String) :
    singleName? char = some name ↔ ∃ kind, ([char], kind) ∈ symbols ∧ kind.name = name := by
  constructor
  · intro found
    have listed : ∃ entry ∈ symbols, entry.1 = [char] ∧ entry.2.name = name := by
      unfold singleName? at found
      split at found <;> first | (cases found; decide +kernel) | cases found
    obtain ⟨⟨text, kind⟩, listed, rfl, named⟩ := listed
    exact ⟨kind, listed, named⟩
  · rintro ⟨kind, listed, rfl⟩
    exact singleName?_of_listed listed

/-- What a symbol begins with is a symbol by itself. -/
theorem symbols_begin : ∀ entry ∈ symbols, entry.1.head?.bind singleName? ≠ none := by
  decide

/-- No symbol has a character that begins another kind of token. -/
theorem symbols_other : ∀ entry ∈ symbols, entry.1.all fun char =>
    char != '"' && !Decimal.isDigit char && !isWordStart char := by
  decide

section Comment

/-- A piece of a comment that does not begin with its end. -/
theorem no_end_cons {char : Char} {body rest : List Char}
    (noEnd : ¬(char = '*' ∧ rest.head? = some '/')) (ahead : body <+: rest)
    (inside : ¬commentEnd <:+: body) : ¬commentEnd <:+: char :: body := by
  intro found
  rcases List.infix_cons_iff.1 found with first | later
  · obtain ⟨after, same⟩ := first
    obtain ⟨star, slash⟩ := List.cons.inj same
    obtain ⟨more, rfl⟩ := ahead
    rw [← slash] at noEnd
    exact noEnd ⟨star.symm, rfl⟩
  · exact inside later

theorem splitComment_shape (text : List Char) :
    (∃ body, ¬commentEnd <:+: body ∧ (splitComment text).1 = body ++ commentEnd) ∨
      ¬commentEnd <:+: (splitComment text).1 := by
  induction text with
  | nil => exact Or.inr (by decide)
  | cons char rest ih =>
      by_cases ends : char = '*' ∧ rest.head? = some '/'
      · obtain ⟨rfl, slash⟩ := ends
        obtain ⟨after, rfl⟩ := List.head?_eq_some_iff.1 slash
        exact Or.inl ⟨[], by decide, rfl⟩
      · have ahead : (splitComment rest).1 <+: rest := ⟨_, splitComment_append rest⟩
        rw [splitComment_cons ends]
        rcases ih with ⟨body, inside, same⟩ | inside
        · have shorter : body <+: rest := (same ▸ List.prefix_append body commentEnd).trans ahead
          exact Or.inl ⟨char :: body, no_end_cons ends shorter inside, congrArg _ same⟩
        · exact Or.inr (no_end_cons ends ahead inside)

theorem commentEnd_infix_of_head? {body : List Char} (slash : body.head? = some '/') :
    commentEnd <:+: '*' :: body := by
  obtain ⟨after, rfl⟩ := List.head?_eq_some_iff.1 slash
  exact ⟨[], after, rfl⟩

/-- An end of a comment is not put together of a text that has none and one without a slash. -/
theorem no_end_append {body more : List Char} (inside : ¬commentEnd <:+: body)
    (noSlash : '/' ∉ more) : ¬commentEnd <:+: body ++ more := by
  induction body with
  | nil =>
      intro found
      exact noSlash (found.subset (by simp [commentEnd]))
  | cons char body ih =>
      have later := ih fun found => inside (found.trans (List.suffix_cons char body).isInfix)
      apply no_end_cons _ (List.prefix_refl (body ++ more)) later
      rintro ⟨rfl, slash⟩
      cases body with
      | nil => exact noSlash (List.mem_of_mem_head? slash)
      | cons next body => exact inside (commentEnd_infix_of_head? slash)

/-- A comment is split at its first end. -/
theorem splitComment_of_body {body : List Char} (inside : ¬commentEnd <:+: body)
    (more : List Char) :
    splitComment (body ++ commentEnd ++ more) = (body ++ commentEnd, more) := by
  induction body with
  | nil => rfl
  | cons char body ih =>
      have still : ¬(char = '*' ∧ (body ++ commentEnd ++ more).head? = some '/') := by
        rintro ⟨rfl, slash⟩
        cases body with
        | nil => simp [commentEnd] at slash
        | cons next body => exact inside (commentEnd_infix_of_head? slash)
      have later := ih fun found => inside (found.trans (List.suffix_cons char body).isInfix)
      rw [List.cons_append, List.cons_append, splitComment_cons still, later]

/-- What has no end in it does not reach beyond the comment it begins. -/
theorem prefix_splitComment {body : List Char} (inside : ¬commentEnd <:+: body)
    (more : List Char) : body <+: (splitComment (body ++ more)).1 := by
  induction body with
  | nil => exact List.nil_prefix
  | cons char body ih =>
      have later := ih fun found => inside (found.trans (List.suffix_cons char body).isInfix)
      rw [List.cons_append]
      by_cases ends : char = '*' ∧ (body ++ more).head? = some '/'
      · obtain ⟨rfl, slash⟩ := ends
        cases body with
        | nil =>
            obtain ⟨after, rfl⟩ := List.head?_eq_some_iff.1 slash
            exact ⟨['/'], rfl⟩
        | cons next body =>
            have inner : (next :: body).head? = some '/' := slash
            exact absurd (commentEnd_infix_of_head? inner) inside
      · rw [splitComment_cons ends]
        exact List.cons_prefix_cons.2 ⟨rfl, later⟩

end Comment

/-- A run of characters that goes on reaches no farther than the whole run. -/
theorem prefix_takeWhile {stays : Char → Bool} {run text : List Char} (ahead : run <+: text)
    (all : ∀ char ∈ run, stays char) : run <+: text.takeWhile stays := by
  obtain ⟨rest, rfl⟩ := ahead
  rw [List.takeWhile_append_of_pos all]
  exact List.prefix_append run _

/-- Of two pieces that begin alike, the one whose end is an initial piece of the other's end is
shorter or the same. -/
theorem lt_or_eq_of_prefix (kind : Kind) (front : List Char) {run whole : List Char}
    (ahead : run <+: whole) :
    (front ++ run).length < (front ++ whole).length ∨
      (⟨kind, front ++ whole⟩ : Segment) = ⟨kind, front ++ run⟩ := by
  rcases Nat.lt_or_eq_of_le ahead.length_le with shorter | same
  · left
    rw [List.length_append, List.length_append]
    omega
  · right
    rw [ahead.eq_of_length same]

theorem mem_takeWhile {stays : Char → Bool} {text : List Char} {char : Char}
    (member : char ∈ text.takeWhile stays) : stays char := by
  have all := List.all_takeWhile (p := stays) (l := text)
  exact List.all_eq_true.1 all char member

theorem not_mem_takeWhile_ne (stop : Char) (text : List Char) :
    stop ∉ text.takeWhile (· != stop) := by
  intro member
  have other := mem_takeWhile member
  simp at other

theorem forall_ne_of_not_mem {stop : Char} {text : List Char} (without : stop ∉ text) :
    ∀ char ∈ text, (char != stop) = true := by
  intro char member
  rw [bne_iff_ne]
  rintro rfl
  exact without member

theorem takeWhile_ne_append {stop : Char} {text : List Char} (without : stop ∉ text)
    (more : List Char) : (text ++ stop :: more).takeWhile (· != stop) = text := by
  rw [List.takeWhile_append_of_pos (forall_ne_of_not_mem without),
    List.takeWhile_cons_of_neg (by simp), List.append_nil]

theorem dropWhile_ne_append {stop : Char} {text : List Char} (without : stop ∉ text)
    (more : List Char) : (text ++ stop :: more).dropWhile (· != stop) = stop :: more := by
  rw [List.dropWhile_append_of_pos (forall_ne_of_not_mem without),
    List.dropWhile_cons_of_neg (by simp)]

theorem dropWhile_ne_of_not_mem {stop : Char} {text : List Char} (without : stop ∉ text) :
    text.dropWhile (· != stop) = [] := by
  have nothing : (text ++ []).dropWhile (· != stop) = [] :=
    List.dropWhile_append_of_pos (forall_ne_of_not_mem without)
  rwa [List.append_nil] at nothing

theorem splitNumber_shape (first : Char) (rest : List Char) (digit : Decimal.isDigit first) :
    Shape .number (splitNumber (first :: rest)).1 := by
  have some : (first :: rest).takeWhile Decimal.isDigit ≠ [] := by simp [digit]
  fun_cases splitNumber (first :: rest) with
  | case1 next after split isDigit =>
      refine .fraction some (fun _ member => mem_takeWhile member) (by simp) ?_
      rw [List.forall_mem_cons]
      exact ⟨isDigit, fun _ member => mem_takeWhile member⟩
  | case2 next after split noDigit => exact .whole some fun _ member => mem_takeWhile member
  | case3 => exact .whole some fun _ member => mem_takeWhile member

/-- The first segment of a text has the shape of its kind. -/
theorem split_shape (first : Char) (rest : List Char) :
    Shape (split first rest).1.kind (split first rest).1.text := by
  fun_cases split first rest with
  | case1 opens body after found =>
      have shape := splitComment_shape rest.tail
      rw [found] at shape
      rcases shape with ⟨inner, inside, same⟩ | inside
      · dsimp only at same
        rw [same]
        exact .closedComment inside
      · exact .openComment inside
  | case2 noStar opens =>
      obtain ⟨rfl, slash⟩ := opens
      obtain ⟨tail, rfl⟩ := List.head?_eq_some_iff.1 slash
      rw [List.takeWhile_cons_of_pos (by decide)]
      exact .lineComment (not_mem_takeWhile_ne '\n' tail)
  | case3 noStar noSlash opens quote after found =>
      have stops := List.head?_dropWhile_not (· != '"') rest
      rw [found] at stops
      obtain rfl : quote = '"' := by simpa using stops
      rw [opens]
      exact .string (not_mem_takeWhile_ne '"' rest)
  | case4 noStar noSlash opens found =>
      have joined := List.takeWhile_append_dropWhile (p := (· != '"')) (l := rest)
      rw [found, List.append_nil] at joined
      rw [opens, ← joined]
      exact .unterminated (not_mem_takeWhile_ne '"' rest)
  | case5 noStar noSlash noQuote isDigit digits after found =>
      have shape := splitNumber_shape first rest isDigit
      rw [found] at shape
      exact shape
  | case6 noStar noSlash noQuote noDigit isWord =>
      exact .word isWord fun _ member => mem_takeWhile member
  | case7 noStar noSlash noQuote noDigit noWord name found =>
      cases rest with
      | nil => cases found
      | cons second rest =>
          obtain ⟨kind, listed, rfl⟩ := (pairName?_eq_some_iff first second name).1 found
          exact .symbol listed
  | case8 noStar noSlash noQuote noDigit noWord name found noPair =>
      obtain ⟨kind, listed, rfl⟩ := (singleName?_eq_some_iff first name).1 found
      exact .symbol listed
  | case9 noStar noSlash noQuote noDigit noWord noSymbol noPair isNewline =>
      subst isNewline
      exact .newline
  | case10 noStar noSlash noQuote noDigit noWord noSymbol noPair noNewline blank =>
      refine .blanks (by simp) ?_
      rw [List.forall_mem_cons]
      exact ⟨blank, fun _ member => mem_takeWhile member⟩
  | case11 noStar noSlash noQuote noDigit noWord noSymbol noPair noNewline noBlank =>
      refine .unexpected ⟨noQuote, noDigit, noWord, ?_, noNewline, noBlank⟩
      intro entry listed begins
      apply symbols_begin entry listed
      rw [begins]
      exact noSymbol

/-! The first character of a text decides what kind of segment comes first; only a slash, a quote
and the symbols that begin longer ones leave it to what follows. -/

section Leading

variable {first : Char} (rest : List Char)

theorem not_isDigit_of_isWordStart (starts : isWordStart first) : ¬Decimal.isDigit first := by
  intro digit
  simp only [isWordStart, Decimal.isDigit, Bool.or_eq_true, Bool.and_eq_true, decide_eq_true_eq,
    beq_iff_eq] at starts digit
  have high : first.toNat ≤ '9'.toNat := digit.2
  have before : '9'.toNat < 'A'.toNat ∧ '9'.toNat < 'a'.toNat := by decide
  rcases starts with (⟨low, -⟩ | ⟨low, -⟩) | rfl
  · have low : 'a'.toNat ≤ first.toNat := low
    omega
  · have low : 'A'.toNat ≤ first.toNat := low
    omega
  · exact absurd digit.2 (by decide)

theorem split_of_digit (digit : Decimal.isDigit first) :
    (split first rest).1 = ⟨.number, (splitNumber (first :: rest)).1⟩ := by
  have noSlash : first ≠ '/' := by
    rintro rfl
    exact absurd digit (by decide)
  have noQuote : first ≠ '"' := by
    rintro rfl
    exact absurd digit (by decide)
  rw [split, if_neg fun opens => noSlash opens.1, if_neg fun opens => noSlash opens.1,
    if_neg noQuote, if_pos digit]

theorem split_of_wordStart (starts : isWordStart first) :
    (split first rest).1 = ⟨.word, first :: rest.takeWhile isWordPart⟩ := by
  have noSlash : first ≠ '/' := by
    rintro rfl
    exact absurd starts (by decide)
  have noQuote : first ≠ '"' := by
    rintro rfl
    exact absurd starts (by decide)
  rw [split, if_neg fun opens => noSlash opens.1, if_neg fun opens => noSlash opens.1,
    if_neg noQuote, if_neg (not_isDigit_of_isWordStart starts), if_pos starts]

theorem bind_pairName?_eq_none (noSymbol : singleName? first = none) :
    rest.head?.bind (pairName? first) = none := by
  cases rest with
  | nil => rfl
  | cons second rest =>
      rw [List.head?_cons, Option.bind_some, Option.eq_none_iff_forall_ne_some]
      intro name pair
      obtain ⟨kind, listed, -⟩ := (pairName?_eq_some_iff first second name).1 pair
      exact symbols_begin _ listed noSymbol

theorem split_of_noSymbol (noQuote : first ≠ '"') (noDigit : ¬Decimal.isDigit first)
    (noWord : ¬isWordStart first) (noSymbol : singleName? first = none) :
    (split first rest).1 =
      if first = '\n' then ⟨.newline, [first]⟩
      else if isBlank first then ⟨.blanks, first :: rest.takeWhile isBlank⟩
      else ⟨.unexpected, [first]⟩ := by
  have noSlash : first ≠ '/' := by
    rintro rfl
    cases noSymbol
  rw [split, if_neg fun opens => noSlash opens.1, if_neg fun opens => noSlash opens.1,
    if_neg noQuote, if_neg noDigit, if_neg noWord, bind_pairName?_eq_none rest noSymbol, noSymbol]
  dsimp only
  split
  · rfl
  · split
    · rfl
    · rfl

theorem split_of_newline : (split '\n' rest).1 = ⟨.newline, ['\n']⟩ :=
  split_of_noSymbol rest (by decide) (by decide) (by decide) rfl

theorem split_of_blank (blank : isBlank first) :
    (split first rest).1 = ⟨.blanks, first :: rest.takeWhile isBlank⟩ := by
  simp only [isBlank, Bool.or_eq_true, beq_iff_eq] at blank
  rcases blank with (rfl | rfl) | rfl
  · exact split_of_noSymbol rest (by decide) (by decide) (by decide) rfl
  · exact split_of_noSymbol rest (by decide) (by decide) (by decide) rfl
  · exact split_of_noSymbol rest (by decide) (by decide) (by decide) rfl

theorem split_of_beginsNothing (nothing : BeginsNothing first) :
    (split first rest).1 = ⟨.unexpected, [first]⟩ := by
  have noSymbol : singleName? first = none := by
    rw [Option.eq_none_iff_forall_ne_some]
    intro name single
    obtain ⟨kind, listed, -⟩ := (singleName?_eq_some_iff first name).1 single
    exact nothing.noSymbol _ listed rfl
  rw [split_of_noSymbol rest nothing.noQuote nothing.noDigit nothing.noWord noSymbol,
    if_neg nothing.noNewline, if_neg nothing.noBlank]

theorem split_of_quote :
    (split '"' rest).1 =
      match rest.dropWhile (· != '"') with
      | quote :: _ => ⟨.string, '"' :: rest.takeWhile (· != '"') ++ [quote]⟩
      | [] => ⟨.unterminated, '"' :: rest⟩ := by
  have noSlash : '"' ≠ '/' := by decide
  rw [split, if_neg fun opens => noSlash opens.1, if_neg fun opens => noSlash opens.1, if_pos rfl]
  cases rest.dropWhile (· != '"') with
  | nil => rfl
  | cons quote after => rfl

theorem split_of_string {body : List Char} (inside : '"' ∉ body) (more : List Char) :
    (split '"' (body ++ '"' :: more)).1 = ⟨.string, '"' :: (body ++ ['"'])⟩ := by
  rw [split_of_quote, dropWhile_ne_append inside, takeWhile_ne_append inside]
  rfl

theorem split_of_unterminated {rest : List Char} (noQuote : '"' ∉ rest) :
    (split '"' rest).1 = ⟨.unterminated, '"' :: rest⟩ := by
  rw [split_of_quote, dropWhile_ne_of_not_mem noQuote]

theorem split_of_comment : (split '/' ('*' :: rest)).1 =
    ⟨.blockComment, ['/', '*'] ++ (splitComment rest).1⟩ := rfl

theorem split_of_lineComment : (split '/' ('/' :: rest)).1 =
    ⟨.lineComment, ['/', '/'] ++ rest.takeWhile (· != '\n')⟩ := rfl

theorem split_of_pair {second : Char} {name : String}
    (pair : pairName? first second = some name) :
    (split first (second :: rest)).1 = ⟨.symbol name, [first, second]⟩ := by
  unfold pairName? at pair
  split at pair
  · cases pair
    rfl
  · cases pair
    rfl
  · cases pair
    rfl
  · cases pair
    rfl
  · cases pair

/-- A character that is a symbol is the first segment, unless a longer one begins with it. -/
theorem split_of_single {name : String} (single : singleName? first = some name) :
    1 < (split first rest).1.text.length ∨
      (split first rest).1 = ⟨.symbol name, [first]⟩ := by
  obtain ⟨kind, listed, -⟩ := (singleName?_eq_some_iff first name).1 single
  have other := symbols_other _ listed
  simp only [List.all_cons, List.all_nil, Bool.and_true, Bool.and_eq_true, bne_iff_ne,
    Bool.not_eq_true', ← Bool.not_eq_true] at other
  obtain ⟨⟨noQuote, noDigit⟩, noWord⟩ := other
  by_cases star : first = '/' ∧ rest.head? = some '*'
  · obtain ⟨rfl, star⟩ := star
    obtain ⟨tail, rfl⟩ := List.head?_eq_some_iff.1 star
    rw [split_of_comment]
    left
    simp
  by_cases slash : first = '/' ∧ rest.head? = some '/'
  · obtain ⟨rfl, slash⟩ := slash
    obtain ⟨tail, rfl⟩ := List.head?_eq_some_iff.1 slash
    rw [split_of_lineComment]
    left
    simp
  rw [split, if_neg star, if_neg slash, if_neg noQuote, if_neg noDigit, if_neg noWord, single]
  cases pair : rest.head?.bind (pairName? first) with
  | none => exact Or.inr rfl
  | some longer =>
      cases rest with
      | nil => cases pair
      | cons second rest =>
          left
          simp

end Leading

theorem symbols_cases {text : List Char} {kind : Token.Kind} (listed : (text, kind) ∈ symbols) :
    (∃ first second, text = [first, second] ∧ pairName? first second = some kind.name) ∨
      ∃ char, text = [char] ∧ singleName? char = some kind.name := by
  have short : ∀ entry ∈ symbols, entry.1.length = 1 ∨ entry.1.length = 2 := by decide
  rcases short _ listed with one | two
  · obtain ⟨char, rfl⟩ := List.length_eq_one_iff.1 one
    exact Or.inr ⟨char, rfl, singleName?_of_listed listed⟩
  · match text, two with
    | [first, second], two =>
      have pair := (pairName?_eq_some_iff first second _).2 ⟨kind, listed, rfl⟩
      exact Or.inl ⟨first, second, rfl, pair⟩

theorem splitNumber_of_digits {digits text : List Char} (ahead : digits <+: text)
    (all : ∀ char ∈ digits, Decimal.isDigit char) :
    digits.length < (splitNumber text).1.length ∨
      (⟨.number, (splitNumber text).1⟩ : Segment) = ⟨.number, digits⟩ := by
  have inside := prefix_takeWhile ahead all
  fun_cases splitNumber text with
  | case1 next after split isDigit =>
      left
      have shorter := inside.length_le
      simp
      omega
  | case2 next after split noDigit => exact lt_or_eq_of_prefix .number [] inside
  | case3 => exact lt_or_eq_of_prefix .number [] inside

theorem splitNumber_of_point {whole : List Char} {digit : Char} {digits : List Char}
    (all : ∀ char ∈ whole, Decimal.isDigit char) (isDigit : Decimal.isDigit digit)
    (more : List Char) :
    splitNumber (whole ++ '.' :: digit :: (digits ++ more)) =
      (whole ++ '.' :: digit :: (digits ++ more).takeWhile Decimal.isDigit,
        (digits ++ more).dropWhile Decimal.isDigit) := by
  have noDigit : ¬Decimal.isDigit '.' := by decide
  have front : (whole ++ '.' :: digit :: (digits ++ more)).takeWhile Decimal.isDigit = whole := by
    rw [List.takeWhile_append_of_pos all, List.takeWhile_cons_of_neg noDigit, List.append_nil]
  have after : (whole ++ '.' :: digit :: (digits ++ more)).dropWhile Decimal.isDigit =
      '.' :: digit :: (digits ++ more) := by
    rw [List.dropWhile_append_of_pos all, List.dropWhile_cons_of_neg noDigit]
  rw [splitNumber_of_fraction after isDigit, front]

/-- Whatever has a shape and stands at the front of a text is shorter than the first segment, or it
is that. The cases are those of the shape: its first character tells which segment comes first, and
the rest of it is an initial piece of what that segment takes. -/
theorem Shape.lt_or_eq_split {kind : Kind} {text : List Char} (shape : Shape kind text)
    {first : Char} {rest : List Char} (ahead : text <+: first :: rest) :
    text.length < (split first rest).1.text.length ∨ (split first rest).1 = ⟨kind, text⟩ := by
  cases shape with
  | closedComment inside =>
      rw [List.cons_prefix_cons] at ahead
      obtain ⟨rfl, more, rfl⟩ := ahead
      rw [List.cons_append, split_of_comment, splitComment_of_body inside more]
      exact Or.inr rfl
  | openComment inside =>
      rw [List.cons_prefix_cons] at ahead
      obtain ⟨rfl, more, rfl⟩ := ahead
      exact lt_or_eq_of_prefix .blockComment ['/', '*'] (prefix_splitComment inside more)
  | lineComment inside =>
      rw [List.cons_prefix_cons] at ahead
      obtain ⟨rfl, more, rfl⟩ := ahead
      have run := prefix_takeWhile (List.prefix_append _ more) (forall_ne_of_not_mem inside)
      exact lt_or_eq_of_prefix .lineComment ['/', '/'] run
  | string inside =>
      rw [List.cons_prefix_cons] at ahead
      obtain ⟨rfl, more, rfl⟩ := ahead
      rw [List.append_assoc]
      exact Or.inr (split_of_string inside more)
  | @unterminated body inside =>
      rw [List.cons_prefix_cons] at ahead
      obtain ⟨rfl, ahead⟩ := ahead
      by_cases closes : '"' ∈ rest
      · obtain ⟨front, more, rfl, without⟩ := List.eq_append_cons_of_mem closes
        have run := prefix_takeWhile ahead (forall_ne_of_not_mem inside)
        rw [takeWhile_ne_append without] at run
        have shorter := run.length_le
        left
        rw [split_of_string without]
        simp
        omega
      · rw [split_of_unterminated closes]
        exact lt_or_eq_of_prefix .unterminated ['"'] ahead
  | @whole digits inhabited all =>
      obtain ⟨digit, digits, rfl⟩ := List.exists_cons_of_ne_nil inhabited
      obtain ⟨rfl, -⟩ := List.cons_prefix_cons.1 ahead
      rw [split_of_digit rest (all digit List.mem_cons_self)]
      exact splitNumber_of_digits ahead all
  | @fraction whole digits inhabited all more every =>
      obtain ⟨first, whole, rfl⟩ := List.exists_cons_of_ne_nil inhabited
      obtain ⟨digit, digits, rfl⟩ := List.exists_cons_of_ne_nil more
      have begins := List.cons_prefix_cons.1 ahead
      obtain ⟨rfl, -⟩ := begins
      obtain ⟨after, same⟩ := ahead
      rw [List.forall_mem_cons] at every
      have text : first :: whole ++ '.' :: digit :: (digits ++ after) = first :: rest := by
        rw [← same, List.append_assoc]
        rfl
      have run := prefix_takeWhile (List.prefix_append digits after) every.2
      rw [split_of_digit rest (all first List.mem_cons_self), ← text,
        splitNumber_of_point all every.1]
      have last := lt_or_eq_of_prefix .number ((first :: whole) ++ ['.', digit]) run
      rw [List.append_assoc, List.append_assoc] at last
      exact last
  | @word initial run starts goesOn =>
      rw [List.cons_prefix_cons] at ahead
      obtain ⟨rfl, ahead⟩ := ahead
      rw [split_of_wordStart rest starts]
      exact lt_or_eq_of_prefix .word [initial] (prefix_takeWhile ahead goesOn)
  | symbol listed =>
      rcases symbols_cases listed with ⟨initial, second, rfl, pair⟩ | ⟨initial, rfl, single⟩
      · rw [List.cons_prefix_cons] at ahead
        obtain ⟨rfl, more, rfl⟩ := ahead
        exact Or.inr (split_of_pair more pair)
      · rw [List.cons_prefix_cons] at ahead
        obtain ⟨rfl, -⟩ := ahead
        exact split_of_single rest single
  | newline =>
      rw [List.cons_prefix_cons] at ahead
      obtain ⟨rfl, -⟩ := ahead
      exact Or.inr (split_of_newline rest)
  | @blanks run inhabited all =>
      obtain ⟨initial, run, rfl⟩ := List.exists_cons_of_ne_nil inhabited
      rw [List.forall_mem_cons] at all
      rw [List.cons_prefix_cons] at ahead
      obtain ⟨rfl, ahead⟩ := ahead
      rw [split_of_blank rest all.1]
      exact lt_or_eq_of_prefix .blanks [initial] (prefix_takeWhile ahead all.2)
  | unexpected nothing =>
      rw [List.cons_prefix_cons] at ahead
      obtain ⟨rfl, -⟩ := ahead
      exact Or.inr (split_of_beginsNothing rest nothing)

end Lox.Segment
