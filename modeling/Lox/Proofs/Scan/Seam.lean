import Lox.Scan

/-!
Where a text can be cut. A blank or a newline begins a segment of its own after every segment but
one that takes it: an open one looks for its end, a line comment takes what is no newline, and
blanks take blanks. So the segments of two texts with a newline between them are the segments of
each, with the newline between them: `ofText_newline`.
-/

set_option autoImplicit false

namespace Lox.Segment

/-- A block comment that only the end of the text ends. -/
def IsOpenComment (segment : Segment) : Prop :=
  segment.kind = .blockComment ∧ ¬['*', '/'] <:+ segment.text.drop 2

instance : DecidablePred IsOpenComment := fun segment =>
  inferInstanceAs (Decidable (segment.kind = .blockComment ∧ ¬['*', '/'] <:+ segment.text.drop 2))

/-- A segment that only the end of the text ends. -/
def IsOpen (segment : Segment) : Prop :=
  segment.kind = .unterminated ∨ segment.IsOpenComment

/-- Whether a blank or a newline right after a segment would be part of it. -/
def Takes (segment : Segment) (next : Char) : Prop :=
  segment.kind = .lineComment ∧ next ≠ '\n' ∨ segment.kind = .blanks ∧ isBlank next

/-- A run that ends in a text, or at the character that follows the text, is the same with more
after it. -/
theorem splitRun_append {stays : Char → Bool} (text : List Char) {stop : Char}
    (stops : text.dropWhile stays = [] → stays stop = false) (more : List Char) :
    (text ++ stop :: more).takeWhile stays = text.takeWhile stays ∧
      (text ++ stop :: more).dropWhile stays = text.dropWhile stays ++ stop :: more := by
  induction text with
  | nil =>
      have ends : ¬stays stop := by simpa using stops
      rw [List.nil_append, List.takeWhile_cons_of_neg ends, List.dropWhile_cons_of_neg ends]
      exact ⟨rfl, rfl⟩
  | cons char text ih =>
      rw [List.cons_append]
      by_cases goesOn : stays char
      · rw [List.dropWhile_cons_of_pos goesOn] at stops
        obtain ⟨before, later⟩ := ih stops
        rw [List.takeWhile_cons_of_pos goesOn, List.takeWhile_cons_of_pos goesOn,
          List.dropWhile_cons_of_pos goesOn, List.dropWhile_cons_of_pos goesOn, before, later]
        exact ⟨rfl, rfl⟩
      · rw [List.takeWhile_cons_of_neg goesOn, List.takeWhile_cons_of_neg goesOn,
          List.dropWhile_cons_of_neg goesOn, List.dropWhile_cons_of_neg goesOn]
        exact ⟨rfl, rfl⟩

theorem splitComment_cons {char : Char} {rest : List Char}
    (noEnd : ¬(char = '*' ∧ rest.head? = some '/')) :
    splitComment (char :: rest) = (char :: (splitComment rest).1, (splitComment rest).2) := by
  rw [splitComment]
  rintro after rfl rfl
  exact noEnd ⟨rfl, rfl⟩

/-- What a suffix of two characters says about a comment that does not begin with its end. -/
theorem closed_of_cons {char : Char} {rest : List Char}
    (noEnd : ¬(char = '*' ∧ rest.head? = some '/'))
    (closed : ['*', '/'] <:+ char :: (splitComment rest).1) :
    ['*', '/'] <:+ (splitComment rest).1 := by
  rcases List.suffix_cons_iff.1 closed with same | beyond
  · rw [List.cons.injEq] at same
    have joined := splitComment_append rest
    rw [← same.2] at joined
    rw [← joined] at noEnd
    exact absurd ⟨same.1.symm, rfl⟩ noEnd
  · exact beyond

/-- A comment that is closed ends where it ends, whatever more there is. -/
theorem splitComment_of_closed (text more : List Char)
    (closed : ['*', '/'] <:+ (splitComment text).1) :
    splitComment (text ++ more) = ((splitComment text).1, (splitComment text).2 ++ more) := by
  induction text with
  | nil => simp [splitComment] at closed
  | cons char rest ih =>
      by_cases ends : char = '*' ∧ rest.head? = some '/'
      · obtain ⟨rfl, slash⟩ := ends
        obtain ⟨after, rfl⟩ := List.head?_eq_some_iff.1 slash
        rfl
      · rw [splitComment_cons ends] at closed
        have inside := closed_of_cons ends closed
        have inhabited : rest ≠ [] := by
          rintro rfl
          simp [splitComment] at inside
        have still : ¬(char = '*' ∧ (rest ++ more).head? = some '/') := by
          rw [List.head?_append]
          cases rest with
          | nil => exact absurd rfl inhabited
          | cons next rest => exact ends
        rw [List.cons_append, splitComment_cons still, splitComment_cons ends, ih inside]

theorem splitComment_of_open (text : List Char)
    (stillOpen : ¬['*', '/'] <:+ (splitComment text).1) : (splitComment text).2 = [] := by
  induction text with
  | nil => rfl
  | cons char rest ih =>
      by_cases ends : char = '*' ∧ rest.head? = some '/'
      · obtain ⟨rfl, slash⟩ := ends
        obtain ⟨after, rfl⟩ := List.head?_eq_some_iff.1 slash
        exact absurd (List.suffix_refl _) stillOpen
      · rw [splitComment_cons ends] at stillOpen ⊢
        apply ih
        intro closed
        exact stillOpen (closed.trans (List.suffix_cons char _))

/-- A number has a fraction if a point and a digit come after its first digits. -/
theorem splitNumber_of_fraction {text rest : List Char} {digit : Char}
    (after : text.dropWhile Decimal.isDigit = '.' :: digit :: rest)
    (isDigit : Decimal.isDigit digit) :
    splitNumber text =
      (text.takeWhile Decimal.isDigit ++ '.' :: digit :: rest.takeWhile Decimal.isDigit,
        rest.dropWhile Decimal.isDigit) := by
  unfold splitNumber
  rw [after]
  simp [isDigit]

theorem splitNumber_of_whole {text : List Char}
    (noFraction : ∀ digit rest, text.dropWhile Decimal.isDigit = '.' :: digit :: rest →
      ¬Decimal.isDigit digit) :
    splitNumber text = (text.takeWhile Decimal.isDigit, text.dropWhile Decimal.isDigit) := by
  unfold splitNumber
  split
  · rename_i digit rest after
    rw [if_neg (noFraction digit rest after), after]
  · rfl

/-- A number ends in front of what is neither a digit nor a point. -/
theorem splitNumber_stop {stop : Char} (noDigit : Decimal.isDigit stop = false)
    (noPoint : stop ≠ '.') (text more : List Char) :
    splitNumber (text ++ stop :: more) =
      ((splitNumber text).1, (splitNumber text).2 ++ stop :: more) := by
  have run (text : List Char) := splitRun_append text (fun _ => noDigit) more
  by_cases fraction : ∃ digit rest, text.dropWhile Decimal.isDigit = '.' :: digit :: rest ∧
      Decimal.isDigit digit
  · obtain ⟨digit, rest, after, isDigit⟩ := fraction
    have later : (text ++ stop :: more).dropWhile Decimal.isDigit =
        '.' :: digit :: (rest ++ stop :: more) := by
      rw [(run text).2, after]
      rfl
    rw [splitNumber_of_fraction after isDigit, splitNumber_of_fraction later isDigit,
      (run text).1, (run rest).1, (run rest).2]
  · have noFraction : ∀ digit rest, text.dropWhile Decimal.isDigit = '.' :: digit :: rest →
        ¬Decimal.isDigit digit := by
      intro digit rest after isDigit
      exact fraction ⟨digit, rest, after, isDigit⟩
    have still : ∀ digit rest, (text ++ stop :: more).dropWhile Decimal.isDigit =
        '.' :: digit :: rest → ¬Decimal.isDigit digit := by
      intro digit rest after
      rw [(run text).2] at after
      cases left : text.dropWhile Decimal.isDigit with
      | nil =>
          rw [left, List.nil_append, List.cons.injEq] at after
          exact absurd after.1 noPoint
      | cons point tail =>
          cases tail with
          | nil =>
              simp only [left, List.cons_append, List.nil_append, List.cons.injEq] at after
              rw [← after.2.1, noDigit]
              decide
          | cons next tail =>
              simp only [left, List.cons_append, List.cons.injEq] at after
              rw [← after.2.1]
              exact noFraction next tail (by rw [left, after.1])
    rw [splitNumber_of_whole noFraction, splitNumber_of_whole still, (run text).1, (run text).2]

theorem eq_of_isBlank {char : Char} (blank : isBlank char) :
    char = ' ' ∨ char = '\r' ∨ char = '\t' := by
  simpa [isBlank, or_assoc] using blank

section Stop

variable {stop : Char} (parts : isBlank stop ∨ stop = '\n')

include parts

/-- A class of characters that has no blank and no newline. -/
theorem not_stays_of_parts (stays : Char → Bool)
    (stops : [' ', '\r', '\t', '\n'].all fun char => !stays char) : stays stop = false := by
  have listed : stop ∈ [' ', '\r', '\t', '\n'] := by
    rcases parts with blank | rfl
    · rcases eq_of_isBlank blank with rfl | rfl | rfl
      · simp
      · simp
      · simp
    · simp
  have ends := List.all_eq_true.1 stops stop listed
  simpa using ends

theorem ne_of_parts {mark : Char} (other : [' ', '\r', '\t', '\n'].all (· != mark)) :
    stop ≠ mark := by
  have apart := not_stays_of_parts parts (· == mark) other
  simpa using apart

theorem head?_stop {char : Char} (other : [' ', '\r', '\t', '\n'].all (· != char))
    (rest more : List Char) :
    (rest ++ stop :: more).head? = some char ↔ rest.head? = some char := by
  cases rest with
  | nil => simp [ne_of_parts parts other]
  | cons next rest => rfl

/-- No operator has a blank or a newline for its second character. -/
theorem pairName?_stop (first : Char) (rest more : List Char) :
    (rest ++ stop :: more).head?.bind (pairName? first) = rest.head?.bind (pairName? first) := by
  have noEqual : stop ≠ '=' := ne_of_parts parts (by decide)
  cases rest with
  | nil => simp [pairName?, noEqual]
  | cons next rest => rfl

/-- In front of a blank or a newline and more, the first segment is the same, unless it is open or
takes that character. -/
theorem split_stop (first : Char) (rest more : List Char)
    (closed : ¬(split first rest).1.IsOpen)
    (ends : (split first rest).2 = [] → ¬(split first rest).1.Takes stop) :
    split first (rest ++ stop :: more) =
      ((split first rest).1, (split first rest).2 ++ stop :: more) := by
  have star : first = '/' ∧ (rest ++ stop :: more).head? = some '*' ↔
      first = '/' ∧ rest.head? = some '*' := by rw [head?_stop parts (by decide)]
  have slash : first = '/' ∧ (rest ++ stop :: more).head? = some '/' ↔
      first = '/' ∧ rest.head? = some '/' := by rw [head?_stop parts (by decide)]
  have pair := pairName?_stop parts first rest more
  rw [split]
  simp only [star, slash, pair]
  revert closed ends
  fun_cases split first rest with
  | case1 opens body after found =>
      intro closed ends
      obtain ⟨tail, rfl⟩ := List.head?_eq_some_iff.1 opens.2
      have ended : ['*', '/'] <:+ (splitComment tail).1 := by
        apply Classical.byContradiction
        intro endless
        rw [List.tail_cons] at found
        rw [found] at endless
        exact closed (Or.inr ⟨rfl, endless⟩)
      rw [List.tail_cons] at found
      rw [if_pos opens, List.cons_append, List.tail_cons, splitComment_of_closed tail _ ended,
        found]
  | case2 noStar opens =>
      intro closed ends
      have stops : rest.dropWhile (· != '\n') = [] → (stop != '\n') = false := by
        intro nothing
        rw [← Bool.not_eq_true, bne_iff_ne]
        intro other
        exact ends nothing (Or.inl ⟨rfl, other⟩)
      obtain ⟨before, later⟩ := splitRun_append rest stops more
      rw [if_neg noStar, if_pos opens, before, later]
  | case3 noStar noSlash opens quote after found =>
      intro closed ends
      obtain ⟨before, later⟩ := splitRun_append rest
        (fun nothing => by rw [found] at nothing; cases nothing) more
      rw [if_neg noStar, if_neg noSlash, if_pos opens, before, later, found]
      rfl
  | case4 noStar noSlash opens found =>
      intro closed ends
      exact absurd (Or.inl rfl) closed
  | case5 noStar noSlash noQuote isDigit digits after found =>
      intro closed ends
      have joined := splitNumber_stop (not_stays_of_parts parts Decimal.isDigit (by decide))
        (ne_of_parts parts (by decide)) (first :: rest) more
      rw [List.cons_append, found] at joined
      rw [if_neg noStar, if_neg noSlash, if_neg noQuote, if_pos isDigit, joined]
  | case6 noStar noSlash noQuote noDigit isWord =>
      intro closed ends
      obtain ⟨before, later⟩ := splitRun_append rest
        (fun _ => not_stays_of_parts parts isWordPart (by decide)) more
      rw [if_neg noStar, if_neg noSlash, if_neg noQuote, if_neg noDigit, if_pos isWord, before,
        later]
  | case7 noStar noSlash noQuote noDigit noWord kind found =>
      intro closed ends
      rw [if_neg noStar, if_neg noSlash, if_neg noQuote, if_neg noDigit, if_neg noWord, found]
      cases rest with
      | nil => cases found
      | cons next rest => rfl
  | case8 noStar noSlash noQuote noDigit noWord kind found noPair =>
      intro closed ends
      rw [if_neg noStar, if_neg noSlash, if_neg noQuote, if_neg noDigit, if_neg noWord, found,
        noPair]
  | case9 noStar noSlash noQuote noDigit noWord noSymbol noPair isNewline =>
      intro closed ends
      rw [if_neg noStar, if_neg noSlash, if_neg noQuote, if_neg noDigit, if_neg noWord, noSymbol,
        noPair, if_pos isNewline]
  | case10 noStar noSlash noQuote noDigit noWord noSymbol noPair noNewline blank =>
      intro closed ends
      have stops : rest.dropWhile isBlank = [] → isBlank stop = false := by
        intro nothing
        rw [← Bool.not_eq_true]
        intro more
        exact ends nothing (Or.inr ⟨rfl, more⟩)
      obtain ⟨before, later⟩ := splitRun_append rest stops more
      rw [if_neg noStar, if_neg noSlash, if_neg noQuote, if_neg noDigit, if_neg noWord, noSymbol,
        noPair, if_neg noNewline, if_pos blank, before, later]
  | case11 noStar noSlash noQuote noDigit noWord noSymbol noPair noNewline noBlank =>
      intro closed ends
      rw [if_neg noStar, if_neg noSlash, if_neg noQuote, if_neg noDigit, if_neg noWord, noSymbol,
        noPair, if_neg noNewline, if_neg noBlank]

end Stop

/-- Nothing comes after an open segment. -/
theorem split_of_isOpen (first : Char) (rest : List Char) (isOpen : (split first rest).1.IsOpen) :
    (split first rest).2 = [] := by
  revert isOpen
  fun_cases split first rest with
  | case1 opens body after found =>
      intro isOpen
      obtain different | ⟨-, endless⟩ := isOpen
      · cases different
      · have stillOpen : ¬['*', '/'] <:+ (splitComment rest.tail).1 := by
          rw [found]
          exact endless
        have nothing := splitComment_of_open rest.tail stillOpen
        rw [found] at nothing
        exact nothing
  | case4 noStar noSlash opens found =>
      intro isOpen
      rfl
  | _ =>
      intro isOpen
      obtain different | ⟨different, -⟩ := isOpen
      · cases different
      · cases different

theorem ofText_cons (first : Char) (rest : List Char) :
    ofText (first :: rest) = (split first rest).1 :: ofText (split first rest).2 := by
  rw [ofText]

/-- The first segment is split off a text, and the others are those of what is left. -/
theorem split_of_ofText {text : List Char} {segment : Segment} {later : List Segment}
    (segments : ofText text = segment :: later) :
    ∃ first rest, text = first :: rest ∧ (split first rest).1 = segment ∧
      ofText (split first rest).2 = later := by
  cases text with
  | nil =>
      rw [ofText] at segments
      cases segments
  | cons first rest =>
      rw [ofText_cons, List.cons.injEq] at segments
      exact ⟨first, rest, rfl, segments⟩

theorem flatMap_text_ofText (text : List Char) : (ofText text).flatMap (·.text) = text := by
  induction text using ofText.induct with
  | case1 =>
      rw [ofText]
      rfl
  | case2 first rest ih => rw [ofText_cons, List.flatMap_cons, ih, split_append]

/-- A newline is a segment. -/
theorem ofText_of_newline (text : List Char) :
    ofText ('\n' :: text) = ⟨.newline, ['\n']⟩ :: ofText text := by
  have noPair : text.head?.bind (pairName? '\n') = none := by
    cases text with
    | nil => rfl
    | cons next text => simp [pairName?]
  have found : split '\n' text = (⟨.newline, ['\n']⟩, text) := by
    rw [split, noPair]
    simp [Decimal.isDigit, isWordStart, singleName?]
  rw [ofText_cons, found]

/-- No segment is open but the last. -/
theorem not_isOpen_of_ofText {text : List Char} {front back : List Segment}
    (segments : ofText text = front ++ back) (more : back ≠ []) :
    ∀ segment ∈ front, ¬segment.IsOpen := by
  induction front generalizing text with
  | nil => exact List.forall_mem_nil _
  | cons segment front ih =>
      rw [List.cons_append] at segments
      obtain ⟨first, rest, rfl, rfl, later⟩ := split_of_ofText segments
      refine List.forall_mem_cons.2 ⟨?_, ih later⟩
      intro isOpen
      rw [split_of_isOpen first rest isOpen, ofText] at later
      exact more (List.append_eq_nil_iff.1 later.symm).2

/-- If the last segment is not open, none is. -/
theorem not_isOpen_of_last {text : List Char}
    (closed : ∀ segment ∈ (ofText text).getLast?, ¬segment.IsOpen) :
    ∀ segment ∈ ofText text, ¬segment.IsOpen := by
  intro segment member
  rcases List.eq_nil_or_concat (ofText text) with nothing | ⟨front, last, same⟩
  · rw [nothing] at member
    cases member
  · rw [List.concat_eq_append] at same
    rw [same] at member closed
    rcases List.mem_append.1 member with before | isLast
    · exact not_isOpen_of_ofText same (List.cons_ne_nil last []) segment before
    · rw [List.mem_singleton] at isLast
      exact closed segment (by simp [isLast])

/-- Segments that are not open are the same in front of a blank or a newline and more, unless the
last one takes that character. -/
theorem ofText_stop {stop : Char} (parts : isBlank stop ∨ stop = '\n') (more : List Char)
    {text : List Char} {front back : List Segment} (segments : ofText text = front ++ back)
    (closed : ∀ segment ∈ front, ¬segment.IsOpen)
    (ends : back = [] → ∀ segment ∈ front.getLast?, ¬segment.Takes stop) :
    ofText (text ++ stop :: more) = front ++ ofText (back.flatMap (·.text) ++ stop :: more) := by
  induction front generalizing text with
  | nil => rw [List.nil_append, ← flatMap_text_ofText text, segments, List.nil_append]
  | cons segment front ih =>
      rw [List.cons_append] at segments
      obtain ⟨first, rest, rfl, rfl, later⟩ := split_of_ofText segments
      rw [List.forall_mem_cons] at closed
      have last : (split first rest).2 = [] → ¬(split first rest).1.Takes stop := by
        intro nothing
        rw [nothing, ofText, eq_comm, List.append_eq_nil_iff] at later
        exact ends later.2 _ (by rw [later.1]; rfl)
      have others : back = [] → ∀ segment ∈ front.getLast?, ¬segment.Takes stop := by
        intro nothing segment member
        apply ends nothing segment
        rw [Option.mem_def] at member ⊢
        rw [List.getLast?_cons, member]
        rfl
      rw [List.cons_append, ofText_cons, split_stop parts first rest more closed.1 last,
        ih later closed.2 others, List.cons_append]

/-- The segments of two texts with a newline between them, unless the first one ends in an open
segment. -/
theorem ofText_newline (text more : List Char)
    (closed : ∀ segment ∈ (ofText text).getLast?, ¬segment.IsOpen) :
    ofText (text ++ '\n' :: more) = ofText text ++ ⟨.newline, ['\n']⟩ :: ofText more := by
  have noTaking (segment : Segment) : ¬segment.Takes '\n' := by
    rintro (⟨-, other⟩ | ⟨-, blank⟩)
    · exact other rfl
    · exact absurd blank (by decide)
  have joined := ofText_stop (Or.inr rfl) more (List.append_nil (ofText text)).symm
    (not_isOpen_of_last closed) fun _ segment _ => noTaking segment
  rw [joined, List.flatMap_nil, List.nil_append, ofText_of_newline]

end Lox.Segment
