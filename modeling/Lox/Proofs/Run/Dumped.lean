import Lox.Proofs.Grammar.ScannedTree
import Lox.Proofs.Run.Reading

/-!
What the dump of a program tells. Two programs that are read of source texts, whatever is wrong with
the texts, have the same prefix form just if they are the same but for the lines of their tokens:
`Reading.programForm?_eq_iff`.
-/

set_option autoImplicit false

namespace Lox.Reading

theorem statements_scanned {source : String} {reading : Reading}
    (read : ofSource source = .ok reading) :
    ∀ statement ∈ reading.statements, statement.Scanned := by
  obtain ⟨body, last, scan, -, -, inside, parsed⟩ := parts_of_ofSource read
  refine Grammar.program_scanned ?_ parsed
  intro token member
  apply Scan.exists_lexeme source token _ (inside token member)
  rw [scan]
  exact List.mem_append_left _ member

/-- The prefix form of a program tells all there is of it but the lines of its tokens, if its
numbers are finite. -/
theorem programForm?_eq_iff {source otherSource : String} {reading other : Reading}
    (read : ofSource source = .ok reading) (readOther : ofSource otherSource = .ok other)
    (finite : ∀ number ∈ Stmt.allNumbers reading.statements, number.isFinite)
    (finiteOther : ∀ number ∈ Stmt.allNumbers other.statements, number.isFinite) :
    ∃ text otherText,
      Node.programForm? (Stmt.toNodes reading.statements) = some text ∧
        Node.programForm? (Stmt.toNodes other.statements) = some otherText ∧
          (text = otherText ↔
            reading.statements.map (Stmt.moved fun _ => 0) =
              other.statements.map (Stmt.moved fun _ => 0)) := by
  have scanned := statements_scanned read
  have scannedOther := statements_scanned readOther
  refine ⟨_, _, Stmt.programForm?_eq scanned, Stmt.programForm?_eq scannedOther, ?_⟩
  rw [String.ofList_inj]
  exact Stmt.writeLines_forms_eq_iff scanned finite scannedOther finiteOther

theorem programForm?_eq_iff_negation :
    let minus : Token := ⟨.minus, "-", .nil, 1⟩
    let later : Token := ⟨.minus, "-", .nil, 2⟩
    let reading : Reading := ⟨[⟨.printWord, "print", .nil, 1⟩, minus,
      ⟨.number, "1.0", .number 1, 1⟩, ⟨.semicolon, ";", .nil, 1⟩, ⟨.endOfInput, "", .nil, 1⟩],
      [.print (.unary minus (.literal (.number 1)))], [], []⟩
    let other : Reading := ⟨[⟨.printWord, "print", .nil, 1⟩, later,
      ⟨.number, "1", .number 1, 2⟩, ⟨.semicolon, ";", .nil, 2⟩, ⟨.endOfInput, "", .nil, 2⟩],
      [.print (.unary later (.literal (.number 1)))], [], []⟩
    ofSource "print -1.0;" = .ok reading ∧ ofSource "print\n-1;" = .ok other ∧
      (∀ number ∈ Stmt.allNumbers reading.statements, number.isFinite) ∧
        (∀ number ∈ Stmt.allNumbers other.statements, number.isFinite) ∧
          ∃ text, Node.programForm? (Stmt.toNodes reading.statements) = some text ∧
            Node.programForm? (Stmt.toNodes other.statements) = some text := by
  intro minus later reading other
  have read : ofSource "print -1.0;" = .ok reading := by
    have scanned : Scan.ofSource "print -1.0;" = ⟨reading.tokens, []⟩ := by decide +kernel
    exact ofSource_of_program scanned (by cbv)
  have readOther : ofSource "print\n-1;" = .ok other := by
    have scanned : Scan.ofSource "print\n-1;" = ⟨other.tokens, []⟩ := by decide +kernel
    exact ofSource_of_program scanned (by cbv)
  have isFinite : (1 : Float).isFinite := by decide +kernel
  have finite : ∀ number ∈ Stmt.allNumbers reading.statements, number.isFinite :=
    List.forall_mem_singleton.2 isFinite
  have finiteOther : ∀ number ∈ Stmt.allNumbers other.statements, number.isFinite :=
    List.forall_mem_singleton.2 isFinite
  obtain ⟨text, otherText, shown, shownOther, same⟩ :=
    programForm?_eq_iff read readOther finite finiteOther
  obtain rfl := same.2 rfl
  exact ⟨read, readOther, finite, finiteOther, text, shown, shownOther⟩

end Lox.Reading
