import Lox.Proofs.Scan.Written

/-!
Forms: words, quoted texts, and lists in parentheses of a head and parts. Of what is written for a
form, and of more text after it, there is one way to read the form back, as long as the text goes
on with a mark: `Form.Clear.isTold`. So lines of forms are read back too:
`Form.writeLines_inj`.
-/

set_option autoImplicit false

namespace Lox

/-- What a prefix form is made of. -/
inductive Form where
  | word (text : List Char)
  | quoted (body : List Char)
  | list (head : List Char) (parts : List Form)

namespace Form

mutual

def write : Form → List Char
  | .word text => text
  | .quoted body => '"' :: (body ++ ['"'])
  | .list head parts => '(' :: (head ++ (writeParts parts ++ [')']))

/-- Forms with a space before each of them. -/
def writeParts : List Form → List Char
  | [] => []
  | part :: rest => ' ' :: (part.write ++ writeParts rest)

end

/-- Forms with a mark before each of them. -/
def writeEach (mark : Char) (forms : List Form) : List Char :=
  forms.flatMap fun form => mark :: form.write

/-- A form on each line. -/
def writeLines : List Form → List Char
  | [] => []
  | first :: rest => first.write ++ writeEach '\n' rest

theorem writeParts_eq (parts : List Form) : writeParts parts = writeEach ' ' parts := by
  induction parts with
  | nil => rfl
  | cons part parts ih =>
      rw [writeParts, ih]
      rfl

theorem writeEach_cons (mark : Char) (form : Form) (rest : List Form) :
    writeEach mark (form :: rest) = mark :: (form.write ++ writeEach mark rest) :=
  rfl

/-- The characters that end a word. -/
def isMark (char : Char) : Bool :=
  char == ' ' || char == '\n' || char == '"' || char == '(' || char == ')'

theorem plain_of_all {text : List Char} (all : text.all (!isMark ·)) :
    ∀ char ∈ text, ¬isMark char := by
  simpa using all

/-- A form whose words have no marks in them, and whose texts no quotes. -/
inductive Clear : Form → Prop where
  | word {text : List Char} (inhabited : text ≠ []) (plain : ∀ char ∈ text, ¬isMark char) :
      Clear (.word text)
  | quoted {body : List Char} (inside : '"' ∉ body) : Clear (.quoted body)
  | list {head : List Char} {parts : List Form} (plain : ∀ char ∈ head, ¬isMark char)
      (clear : ∀ part ∈ parts, part.Clear) : Clear (.list head parts)

theorem Clear.one {head : List Char} {part : Form} (plain : ∀ char ∈ head, ¬isMark char)
    (clear : part.Clear) : (Form.list head [part]).Clear :=
  .list plain (List.forall_mem_singleton.2 clear)

theorem Clear.pair {head : List Char} {first second : Form} (plain : ∀ char ∈ head, ¬isMark char)
    (clear : first.Clear) (clearSecond : second.Clear) : (Form.list head [first, second]).Clear :=
  .list plain (List.forall_mem_cons.2 ⟨clear, List.forall_mem_singleton.2 clearSecond⟩)

/-- Whether a word before a text would end there. -/
def Ends (text : List Char) : Prop :=
  ∀ char ∈ text.head?, isMark char

theorem ends_cons {mark : Char} (isOne : isMark mark) (rest : List Char) : Ends (mark :: rest) := by
  intro char member
  rw [List.head?_cons, Option.mem_some_iff] at member
  rwa [← member]

theorem ends_writeEach {mark : Char} (isOne : isMark mark) (forms : List Form) {after : List Char}
    (ends : Ends after) : Ends (writeEach mark forms ++ after) := by
  cases forms with
  | nil => exact ends
  | cons form rest =>
      rw [writeEach_cons, List.cons_append]
      exact ends_cons isOne _

/-- A run of characters and what follows it are told apart by the first character that is of
another class. -/
theorem run_append_inj (stays : Char → Bool) {first second after behind : List Char}
    (all : ∀ char ∈ first, stays char) (every : ∀ char ∈ second, stays char)
    (ends : ∀ char ∈ after.head?, ¬stays char) (stops : ∀ char ∈ behind.head?, ¬stays char)
    (same : first ++ after = second ++ behind) : first = second ∧ after = behind := by
  have front := takeWhile_run all ends
  have back := dropWhile_run all ends
  rw [same, takeWhile_run every stops] at front
  rw [same, dropWhile_run every stops] at back
  exact ⟨front.symm, back.symm⟩

theorem word_append_inj {first second after behind : List Char}
    (plain : ∀ char ∈ first, ¬isMark char) (clear : ∀ char ∈ second, ¬isMark char)
    (ends : Ends after) (stops : Ends behind) (same : first ++ after = second ++ behind) :
    first = second ∧ after = behind := by
  refine run_append_inj (!isMark ·) ?_ ?_ ?_ ?_ same
  · simpa using plain
  · simpa using clear
  · simpa [Ends] using ends
  · simpa [Ends] using stops

/-- A word begins with no mark. -/
theorem append_ne_of_word {text : List Char} (inhabited : text ≠ [])
    (plain : ∀ char ∈ text, ¬isMark char) {mark : Char} (isOne : isMark mark)
    {after rest : List Char} : text ++ after ≠ mark :: rest := by
  obtain ⟨first, more, rfl⟩ := List.exists_cons_of_ne_nil inhabited
  intro same
  obtain ⟨rfl, -⟩ := List.cons.inj same
  exact plain first List.mem_cons_self isOne

/-- Whether a form is told from every other one, and from what follows it. -/
def IsTold (form : Form) : Prop :=
  ∀ {other : Form}, other.Clear → ∀ {after behind : List Char}, Ends after → Ends behind →
    form.write ++ after = other.write ++ behind → form = other ∧ after = behind

/-- The induction is on the first forms; each of them ends where the next mark is. -/
theorem writeEach_append_inj {mark : Char} (isOne : isMark mark) {forms others : List Form}
    (told : ∀ form ∈ forms, form.IsTold) (clear : ∀ other ∈ others, other.Clear)
    {after behind : List Char} (ends : Ends after) (stops : Ends behind)
    (noMore : mark ∉ after.head?) (noOther : mark ∉ behind.head?)
    (same : writeEach mark forms ++ after = writeEach mark others ++ behind) :
    forms = others ∧ after = behind := by
  induction forms generalizing others with
  | nil =>
      cases others with
      | nil => exact ⟨rfl, same⟩
      | cons other others =>
          rw [writeEach_cons] at same
          exact absurd (congrArg List.head? same) noMore
  | cons form forms ih =>
      rw [writeEach_cons, List.cons_append, List.append_assoc] at same
      cases others with
      | nil => exact absurd (congrArg List.head? same).symm noOther
      | cons other others =>
          rw [writeEach_cons, List.cons_append, List.append_assoc] at same
          rw [List.forall_mem_cons] at told clear
          obtain ⟨rfl, later⟩ := told.1 clear.1 (ends_writeEach isOne forms ends)
            (ends_writeEach isOne others stops) (List.cons.inj same).2
          obtain ⟨rfl, last⟩ := ih told.2 clear.2 later
          exact ⟨rfl, last⟩

/-- What is written determines the form and where it ends. -/
theorem Clear.isTold {form : Form} (clear : form.Clear) : form.IsTold := by
  induction clear with
  | word inhabited plain =>
      intro other otherClear after behind ends stops same
      rw [write] at same
      cases otherClear with
      | word otherInhabited otherPlain =>
          obtain ⟨rfl, rest⟩ := word_append_inj plain otherPlain ends stops same
          exact ⟨rfl, rest⟩
      | quoted inside => exact absurd same (append_ne_of_word inhabited plain (by decide))
      | list head parts => exact absurd same (append_ne_of_word inhabited plain (by decide))
  | quoted inside =>
      intro other otherClear after behind ends stops same
      cases otherClear with
      | word inhabited plain =>
          exact absurd same.symm (append_ne_of_word inhabited plain (by decide))
      | quoted otherInside =>
          simp only [write, List.cons_append, List.append_assoc, List.cons.injEq, true_and,
            List.nil_append] at same
          have closes (rest : List Char) : ∀ char ∈ ('"' :: rest).head?, ¬(char != '"') := by simp
          obtain ⟨rfl, rest⟩ := run_append_inj (· != '"')
            (fun char member => by
              rw [bne_iff_ne]
              rintro rfl
              exact inside member)
            (fun char member => by
              rw [bne_iff_ne]
              rintro rfl
              exact otherInside member)
            (closes after) (closes behind) same
          exact ⟨rfl, (List.cons.inj rest).2⟩
      | list head parts => exact absurd (List.cons.inj same).1 (by decide)
  | @list head parts plain clear ih =>
      intro other otherClear after behind ends stops same
      cases otherClear with
      | word inhabited plain =>
          exact absurd same.symm (append_ne_of_word inhabited plain (by decide))
      | quoted inside => exact absurd (List.cons.inj same).1 (by decide)
      | @list otherHead others otherPlain otherClear =>
          simp only [write, writeParts_eq, List.cons_append, List.append_assoc, List.cons.injEq,
            true_and, List.nil_append] at same
          have closes (rest : List Char) : Ends (')' :: rest) := ends_cons (by decide) rest
          obtain ⟨rfl, rest⟩ := word_append_inj plain otherPlain
            (ends_writeEach (by decide) parts (closes after))
            (ends_writeEach (by decide) others (closes behind)) same
          obtain ⟨rfl, last⟩ := writeEach_append_inj (by decide) ih otherClear (closes after)
            (closes behind) (by simp) (by simp) rest
          exact ⟨rfl, (List.cons.inj last).2⟩

theorem Clear.write_ne_nil {form : Form} (clear : form.Clear) : form.write ≠ [] := by
  cases clear with
  | word inhabited plain => exact inhabited
  | quoted inside => exact List.cons_ne_nil _ _
  | list plain clear => exact List.cons_ne_nil _ _

/-- Lines of forms are read back. -/
theorem writeLines_inj {forms others : List Form} (clear : ∀ form ∈ forms, form.Clear)
    (otherClear : ∀ other ∈ others, other.Clear) (same : writeLines forms = writeLines others) :
    forms = others := by
  cases forms with
  | nil =>
      cases others with
      | nil => rfl
      | cons other others =>
          rw [eq_comm, writeLines, writeLines, List.append_eq_nil_iff] at same
          exact absurd same.1 (otherClear other List.mem_cons_self).write_ne_nil
  | cons form forms =>
      cases others with
      | nil =>
          rw [writeLines, writeLines, List.append_eq_nil_iff] at same
          exact absurd same.1 (clear form List.mem_cons_self).write_ne_nil
      | cons other others =>
          have nothing : Ends [] := nofun
          have told : ∀ form ∈ forms, form.IsTold := fun form member =>
            (clear form (List.mem_cons_of_mem _ member)).isTold
          rw [List.forall_mem_cons] at clear otherClear
          rw [writeLines, writeLines, ← List.append_nil (writeEach _ forms),
            ← List.append_nil (writeEach _ others)] at same
          obtain ⟨rfl, rest⟩ := clear.1.isTold otherClear.1
            (ends_writeEach (by decide) forms nothing)
            (ends_writeEach (by decide) others nothing) same
          obtain ⟨rfl, -⟩ := writeEach_append_inj (by decide) told otherClear.2 nothing nothing
            nofun nofun rest
          rfl

end Form

end Lox
