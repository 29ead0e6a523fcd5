import Mathlib.Data.List.TakeWhile

/-!
Regular expressions with ordered choices. A pattern matches initial pieces of a text in any number
of ways; `Pattern.ways` lists them in the order in which they are tried, so the first is the one
that counts. A choice tries its first pattern before its second, and a run of characters is tried
from its longest on or from its shortest on.
-/

set_option autoImplicit false

namespace Lox

inductive Pattern where
  /-- One character of a class. -/
  | one (accepts : Char → Bool)
  /-- A run of characters of a class, the longer ones first. -/
  | most (accepts : Char → Bool)
  /-- A run of characters of a class, the shorter ones first. -/
  | least (accepts : Char → Bool)
  /-- The end of the text. -/
  | atEnd
  | nothing
  | sequence (first second : Pattern)
  | choice (first second : Pattern)

namespace Pattern

def literal : List Char → Pattern
  | [] => .nothing
  | char :: rest => .sequence (.one (· == char)) (literal rest)

/-- A run of at least one character, the longer ones first. -/
def some (accepts : Char → Bool) : Pattern :=
  .sequence (.one accepts) (.most accepts)

/-- What a pattern matches, or else nothing. -/
def optional (pattern : Pattern) : Pattern :=
  .choice pattern .nothing

/-- A way to match what comes after a piece, with the piece. -/
def prepend (front : List Char) (way : List Char × List Char) : List Char × List Char :=
  (front ++ way.1, way.2)

/-- The first character of a text, if it is of a class, and what it leaves. -/
def oneWays (accepts : Char → Bool) : List Char → List (List Char × List Char)
  | [] => []
  | char :: rest => if accepts char then [([char], rest)] else []

/-- The initial runs of a class, from the longest on, and what each of them leaves. -/
def mostWays (accepts : Char → Bool) : List Char → List (List Char × List Char)
  | [] => [([], [])]
  | char :: rest =>
    if accepts char then (mostWays accepts rest).map (prepend [char]) ++ [([], char :: rest)]
    else [([], char :: rest)]

/-- The initial runs of a class, from the shortest on, and what each of them leaves. -/
def leastWays (accepts : Char → Bool) : List Char → List (List Char × List Char)
  | [] => [([], [])]
  | char :: rest =>
    ([], char :: rest) ::
      if accepts char then (leastWays accepts rest).map (prepend [char]) else []

/-- The pieces of a text that a pattern matches at its front, in the order in which they are tried,
and what each of them leaves. -/
def ways : Pattern → List Char → List (List Char × List Char)
  | .one accepts, text => oneWays accepts text
  | .most accepts, text => mostWays accepts text
  | .least accepts, text => leastWays accepts text
  | .atEnd, text => if text = [] then [([], [])] else []
  | .nothing, text => [([], text)]
  | .sequence first second, text =>
    (first.ways text).flatMap fun (taken, left) => (second.ways left).map (prepend taken)
  | .choice first second, text => first.ways text ++ second.ways text

section Equations

variable (accepts : Char → Bool) (first : Char) (rest text : List Char)

theorem mostWays_nil : mostWays accepts [] = [([], [])] := rfl

theorem mostWays_cons :
    mostWays accepts (first :: rest) =
      if accepts first then (mostWays accepts rest).map (prepend [first]) ++ [([], first :: rest)]
      else [([], first :: rest)] :=
  rfl

theorem leastWays_nil : leastWays accepts [] = [([], [])] := rfl

theorem leastWays_cons :
    leastWays accepts (first :: rest) =
      ([], first :: rest) ::
        if accepts first then (leastWays accepts rest).map (prepend [first]) else [] :=
  rfl

theorem ways_one_nil : (one accepts).ways [] = [] := rfl

theorem ways_one_cons :
    (one accepts).ways (first :: rest) = if accepts first then [([first], rest)] else [] :=
  rfl

theorem ways_most : (most accepts).ways text = mostWays accepts text := rfl

theorem ways_least : (least accepts).ways text = leastWays accepts text := rfl

theorem ways_atEnd : atEnd.ways text = if text = [] then [([], [])] else [] := rfl

theorem ways_nothing : nothing.ways text = [([], text)] := rfl

theorem ways_sequence (pattern second : Pattern) :
    (sequence pattern second).ways text =
      (pattern.ways text).flatMap fun (taken, left) => (second.ways left).map (prepend taken) :=
  rfl

theorem ways_choice (pattern second : Pattern) :
    (choice pattern second).ways text = pattern.ways text ++ second.ways text :=
  rfl

end Equations

theorem prepend_nil : prepend [] = id := rfl

theorem prepend_comp (front back : List Char) :
    prepend front ∘ prepend back = prepend (front ++ back) := by
  funext way
  simp [prepend]

section Pieces

variable {accepts : Char → Bool} {text taken left : List Char}

theorem mem_mostWays (way : (taken, left) ∈ mostWays accepts text) :
    taken ++ left = text ∧ ∀ char ∈ taken, accepts char := by
  induction text generalizing taken with
  | nil =>
      obtain ⟨rfl, rfl⟩ : taken = [] ∧ left = [] := by simpa [mostWays_nil] using way
      exact ⟨rfl, List.forall_mem_nil _⟩
  | cons char rest ih =>
      rw [mostWays_cons] at way
      split at way
      · rename_i accepted
        rcases List.mem_append.1 way with longer | none
        · obtain ⟨⟨inner, after⟩, inside, same⟩ := List.mem_map.1 longer
          obtain ⟨rfl, rfl⟩ := Prod.mk.inj same
          obtain ⟨joined, all⟩ := ih inside
          exact ⟨congrArg _ joined, List.forall_mem_cons.2 ⟨accepted, all⟩⟩
        · obtain ⟨rfl, rfl⟩ := Prod.mk.inj (List.mem_singleton.1 none)
          exact ⟨rfl, List.forall_mem_nil _⟩
      · obtain ⟨rfl, rfl⟩ := Prod.mk.inj (List.mem_singleton.1 way)
        exact ⟨rfl, List.forall_mem_nil _⟩

theorem mem_leastWays (way : (taken, left) ∈ leastWays accepts text) :
    taken ++ left = text ∧ ∀ char ∈ taken, accepts char := by
  induction text generalizing taken with
  | nil =>
      obtain ⟨rfl, rfl⟩ : taken = [] ∧ left = [] := by simpa [leastWays_nil] using way
      exact ⟨rfl, List.forall_mem_nil _⟩
  | cons char rest ih =>
      rw [leastWays_cons] at way
      rcases List.mem_cons.1 way with none | longer
      · obtain ⟨rfl, rfl⟩ := Prod.mk.inj none
        exact ⟨rfl, List.forall_mem_nil _⟩
      · split at longer
        · rename_i accepted
          obtain ⟨⟨inner, after⟩, inside, same⟩ := List.mem_map.1 longer
          obtain ⟨rfl, rfl⟩ := Prod.mk.inj same
          obtain ⟨joined, all⟩ := ih inside
          exact ⟨congrArg _ joined, List.forall_mem_cons.2 ⟨accepted, all⟩⟩
        · cases longer

theorem mem_ways_one (way : (taken, left) ∈ (one accepts).ways text) :
    ∃ char, accepts char ∧ taken = [char] ∧ text = char :: left := by
  cases text with
  | nil => cases way
  | cons char rest =>
      rw [ways_one_cons] at way
      split at way
      · rename_i accepted
        obtain ⟨rfl, rfl⟩ := Prod.mk.inj (List.mem_singleton.1 way)
        exact ⟨char, accepted, rfl, rfl⟩
      · cases way

theorem mem_ways_atEnd (way : (taken, left) ∈ atEnd.ways text) :
    taken = [] ∧ left = [] ∧ text = [] := by
  rw [ways_atEnd] at way
  split at way
  · rename_i ended
    obtain ⟨rfl, rfl⟩ := Prod.mk.inj (List.mem_singleton.1 way)
    exact ⟨rfl, rfl, ended⟩
  · cases way

theorem mem_ways_sequence {first second : Pattern}
    (way : (taken, left) ∈ (sequence first second).ways text) :
    ∃ front middle back, (front, middle) ∈ first.ways text ∧ (back, left) ∈ second.ways middle ∧
      taken = front ++ back := by
  rw [ways_sequence, List.mem_flatMap] at way
  obtain ⟨⟨front, middle⟩, before, way⟩ := way
  obtain ⟨⟨back, after⟩, later, same⟩ := List.mem_map.1 way
  obtain ⟨rfl, rfl⟩ := Prod.mk.inj same
  exact ⟨front, middle, back, before, later, rfl⟩

/-- What is matched and what is left are the text. -/
theorem append_of_mem_ways {pattern : Pattern} (way : (taken, left) ∈ pattern.ways text) :
    taken ++ left = text := by
  induction pattern generalizing text taken left with
  | one accepts =>
      obtain ⟨char, -, rfl, rfl⟩ := mem_ways_one way
      rfl
  | most accepts => exact (mem_mostWays way).1
  | least accepts => exact (mem_leastWays way).1
  | atEnd =>
      obtain ⟨rfl, rfl, rfl⟩ := mem_ways_atEnd way
      rfl
  | nothing =>
      obtain ⟨rfl, rfl⟩ := Prod.mk.inj (List.mem_singleton.1 way)
      rfl
  | sequence first second firstIH secondIH =>
      obtain ⟨front, middle, back, before, later, rfl⟩ := mem_ways_sequence way
      rw [List.append_assoc, secondIH later, firstIH before]
  | choice first second firstIH secondIH =>
      rcases List.mem_append.1 way with inFirst | inSecond
      · exact firstIH inFirst
      · exact secondIH inSecond

theorem mem_ways_some (way : (taken, left) ∈ (some accepts).ways text) :
    taken ≠ [] ∧ ∀ char ∈ taken, accepts char := by
  obtain ⟨front, middle, back, before, later, rfl⟩ := mem_ways_sequence way
  obtain ⟨char, accepted, rfl, rfl⟩ := mem_ways_one before
  exact ⟨by simp, List.forall_mem_cons.2 ⟨accepted, (mem_mostWays later).2⟩⟩

theorem mem_ways_literal {word : List Char} (way : (taken, left) ∈ (literal word).ways text) :
    taken = word := by
  induction word generalizing text taken with
  | nil => exact (Prod.mk.inj (List.mem_singleton.1 way)).1
  | cons char word ih =>
      obtain ⟨front, middle, back, before, later, rfl⟩ := mem_ways_sequence way
      obtain ⟨found, same, rfl, -⟩ := mem_ways_one before
      rw [ih later, eq_of_beq same]
      rfl

end Pieces

section First

variable {accepts : Char → Bool} (pattern : Pattern) (text : List Char)

theorem ways_sequence_assoc (second third : Pattern) :
    (sequence (sequence pattern second) third).ways text =
      (sequence pattern (sequence second third)).ways text := by
  simp only [ways_sequence, List.flatMap_assoc, List.map_flatMap, List.flatMap_map, List.map_map,
    prepend_comp]
  rfl

theorem ways_one_then (first : Char) (rest : List Char) :
    (sequence (one accepts) pattern).ways (first :: rest) =
      if accepts first then (pattern.ways rest).map (prepend [first]) else [] := by
  rw [ways_sequence, ways_one_cons]
  split
  · rw [List.flatMap_singleton]
  · rfl

/-- A word is matched by itself only, and then what follows it. -/
theorem ways_literal_then (word : List Char) :
    (sequence (literal word) pattern).ways text =
      if word <+: text then (pattern.ways (text.drop word.length)).map (prepend word) else [] := by
  induction word generalizing text with
  | nil => simp [literal, ways_sequence, ways_nothing, prepend_nil]
  | cons char word ih =>
      rw [literal, ways_sequence_assoc]
      cases text with
      | nil => simp [ways_sequence, ways_one_nil]
      | cons first rest =>
          rw [ways_one_then, ih, apply_ite (List.map _), List.map_map, prepend_comp]
          simp only [List.cons_prefix_cons, beq_iff_eq]
          by_cases same : first = char
          · simp [same]
          · simp [same, Ne.symm same]

theorem ways_literal (word : List Char) :
    (literal word).ways text = if word <+: text then [(word, text.drop word.length)] else [] := by
  have alone := ways_literal_then .nothing text word
  simpa [ways_sequence, ways_nothing, prepend] using alone

theorem ways_most_then_of_pos {first : Char} (accepted : accepts first) (rest : List Char) :
    (sequence (most accepts) pattern).ways (first :: rest) =
      ((sequence (most accepts) pattern).ways rest).map (prepend [first]) ++
        pattern.ways (first :: rest) := by
  simp only [ways_sequence, ways_most, mostWays_cons, if_pos accepted, List.flatMap_append,
    List.flatMap_map, List.map_flatMap, List.map_map, prepend_comp, List.flatMap_singleton,
    prepend_nil, List.map_id]
  rfl

theorem ways_most_then_of_neg {first : Char} (refused : ¬accepts first) (rest : List Char) :
    (sequence (most accepts) pattern).ways (first :: rest) = pattern.ways (first :: rest) := by
  simp only [ways_sequence, ways_most, mostWays_cons, if_neg refused, List.flatMap_singleton,
    prepend_nil, List.map_id]

theorem ways_most_then_nil :
    (sequence (most accepts) pattern).ways [] = pattern.ways [] := by
  simp only [ways_sequence, ways_most, mostWays_nil, List.flatMap_singleton, prepend_nil,
    List.map_id]

variable {pattern text}

/-- The longest run is tried first, and then whatever follows it. -/
theorem head?_ways_most_then {way : List Char × List Char}
    (found : (pattern.ways (text.dropWhile accepts)).head? = .some way) :
    ((sequence (most accepts) pattern).ways text).head? =
      .some (prepend (text.takeWhile accepts) way) := by
  induction text with
  | nil =>
      rw [ways_most_then_nil]
      exact found
  | cons first rest ih =>
      by_cases accepted : accepts first
      · rw [List.dropWhile_cons_of_pos accepted] at found
        rw [ways_most_then_of_pos pattern accepted, List.head?_append, List.head?_map, ih found,
          List.takeWhile_cons_of_pos accepted]
        rfl
      · rw [List.dropWhile_cons_of_neg accepted] at found
        rw [ways_most_then_of_neg pattern accepted, found, List.takeWhile_cons_of_neg accepted]
        rfl

/-- A run is matched as a whole if what follows cannot begin inside it. -/
theorem ways_most_then_of_refused
    (refuses : ∀ first, accepts first → ∀ rest, pattern.ways (first :: rest) = []) :
    (sequence (most accepts) pattern).ways text =
      (pattern.ways (text.dropWhile accepts)).map (prepend (text.takeWhile accepts)) := by
  induction text with
  | nil =>
      rw [ways_most_then_nil]
      exact (List.map_id _).symm
  | cons first rest ih =>
      by_cases accepted : accepts first
      · rw [ways_most_then_of_pos pattern accepted, refuses first accepted, List.append_nil, ih,
          List.map_map, prepend_comp, List.dropWhile_cons_of_pos accepted,
          List.takeWhile_cons_of_pos accepted]
        rfl
      · rw [ways_most_then_of_neg pattern accepted, List.dropWhile_cons_of_neg accepted,
          List.takeWhile_cons_of_neg accepted]
        exact (List.map_id _).symm

theorem head?_ways_most :
    ((most accepts).ways text).head? =
      .some (text.takeWhile accepts, text.dropWhile accepts) := by
  have alone : ((sequence (most accepts) .nothing).ways text).head? = _ :=
    head?_ways_most_then rfl
  simpa [ways_sequence, ways_nothing, prepend] using alone

theorem head?_ways_some (first : Char) (rest : List Char) :
    ((some accepts).ways (first :: rest)).head? =
      if accepts first then .some (first :: rest.takeWhile accepts, rest.dropWhile accepts)
      else none := by
  rw [some, ways_one_then]
  split
  · rw [List.head?_map, head?_ways_most]
    rfl
  · rfl

variable (pattern text)

/-- The shortest run is tried first: what follows is tried at each place in turn. -/
theorem ways_least_then (first : Char) (rest : List Char) :
    (sequence (least accepts) pattern).ways (first :: rest) =
      pattern.ways (first :: rest) ++
        if accepts first then
          ((sequence (least accepts) pattern).ways rest).map (prepend [first])
        else [] := by
  simp only [ways_sequence, ways_least, leastWays_cons, List.flatMap_cons, prepend_nil, List.map_id]
  split
  · simp only [List.flatMap_map, List.map_flatMap, List.map_map, prepend_comp]
    rfl
  · rfl

end First

end Pattern

end Lox
