import Lox.Proofs.Execution.Alike
import Lox.Proofs.Scope.Holder

/-!
What a program has to do with globals. It depends only on those that it names, and changes only
those that it declares or assigns to: `Stmt.execAll_local`.
-/

set_option autoImplicit false

namespace Lox

namespace Scope

theorem has_eq_of_get? {scope other : Scope} {name : String}
    (same : other.get? name = scope.get? name) : other.has name = scope.has name := by
  rw [has, has, same]

end Scope

namespace Environment

/-- Two global scopes that agree on the names that may be read, each as it was at first but for the
names that may be written. -/
inductive AgreesOn (readable writable : String → Prop) (first second : Scope) :
    Environment → Environment → Prop where
  | global {scope other : Scope}
      (agree : ∀ name, readable name → other.get? name = scope.get? name)
      (kept : ∀ name, ¬writable name →
        scope.get? name = first.get? name ∧ other.get? name = second.get? name) :
      AgreesOn readable writable first second (.global scope) (.global other)

variable {readable writable : String → Prop} {first second : Scope}

theorem AgreesOn.set {scope other : Scope}
    (agrees : AgreesOn readable writable first second (.global scope) (.global other))
    {name : String} (allowed : writable name) (value : Value) :
    AgreesOn readable writable first second (.global (scope.set name value))
      (.global (other.set name value)) := by
  obtain ⟨agree, kept⟩ := agrees
  refine .global (fun found known => ?_) fun found frozen => ?_
  · rw [Scope.get?_set, Scope.get?_set, agree found known]
  · have different : found ≠ name := fun same => frozen (same ▸ allowed)
    rw [Scope.get?_set, Scope.get?_set, if_neg different, if_neg different]
    exact kept found frozen

theorem AgreesOn.keeps (known : ∀ name, writable name → readable name) :
    Keeps readable writable (AgreesOn readable writable first second) where
  get := by
    rintro _ _ ⟨agree, kept⟩ name allowed
    exact agree name allowed
  assign := by
    rintro _ _ ⟨agree, kept⟩ name value allowed
    rw [assign?, assign?, Scope.has_eq_of_get? (agree name (known name allowed))]
    split
    · exact .some (.set (.global agree kept) allowed value)
    · exact .none
  define := by
    rintro _ _ ⟨agree, kept⟩ name value allowed
    exact .set (.global agree kept) allowed value

end Environment

/-- Global scopes that agree on the names in a program make no difference to it: the same is
printed, it ends or stops in the same way, and the scopes agree on its names at the end as well.
Globals that the program neither declares nor assigns to are left as they are, however it ends. -/
theorem Stmt.execAll_local (statements : List Stmt) (first second : Scope)
    (agree : ∀ name ∈ names statements, second.get? name = first.get? name) :
    let one := execAll (.global first) statements
    let other := execAll (.global second) statements
    other.printed = one.printed ∧ other.stop = one.stop ∧
      (∀ name ∈ names statements,
        other.environment.globals.get? name = one.environment.globals.get? name) ∧
        ∀ name, name ∉ allWrites statements →
          one.environment.globals.get? name = first.get? name ∧
            other.environment.globals.get? name = second.get? name := by
  intro one other
  have keeps : Environment.Keeps (· ∈ names statements) (· ∈ allWrites statements)
      (Environment.AgreesOn (· ∈ names statements) (· ∈ allWrites statements) first second) :=
    Environment.AgreesOn.keeps fun name written => List.mem_append_right _ written
  have alike := execAll_alike keeps statements (fun name read => List.mem_append_left _ read)
    (fun name written => written) (.global agree fun _ _ => ⟨rfl, rfl⟩)
  obtain ⟨printed, stop, reached⟩ := alike
  refine ⟨printed, stop, ?_⟩
  change Environment.AgreesOn _ _ first second one.environment other.environment at reached
  generalize one.environment = ended at reached ⊢
  generalize other.environment = otherEnded at reached ⊢
  cases reached with
  | global agreed kept => exact ⟨agreed, kept⟩

/-- `{ var a = b; print a; } a = b; a = c;` stops at `c`, which is nowhere, and has then changed the
global `a`. With `e` for `d` among the globals, and all in another order, it does the same. -/
theorem Stmt.execAll_local_stopped :
    let a : Token := ⟨.identifier, "a", .nil, 1⟩
    let b : Token := ⟨.identifier, "b", .nil, 1⟩
    let c : Token := ⟨.identifier, "c", .nil, 1⟩
    let statements : List Stmt := [.block [.declare a (some (.var b)), .print (.var a)],
      .expression (.assign a (.var b)), .expression (.assign a (.var c))]
    let first : Scope := ⟨[("a", .nil), ("b", .text "x"), ("d", .nil)]⟩
    let second : Scope := ⟨[("e", .text "y"), ("b", .text "x"), ("a", .nil)]⟩
    let other := execAll (.global second) statements
    (∀ name ∈ names statements, second.get? name = first.get? name) ∧
      other.printed = ["x"] ∧ other.stop = some (.failed (.undefinedVariable c)) ∧
        other.environment.globals.get? "a" = some (.text "x") ∧
          other.environment.globals.get? "e" = some (.text "y") := by
  intro a b c statements first second other
  have agree : ∀ name ∈ names statements, second.get? name = first.get? name := by decide
  obtain ⟨printed, stop, agreed, kept⟩ := execAll_local statements first second agree
  have named : "a" ∈ names statements := by decide
  have frozen : "e" ∉ allWrites statements := by decide
  exact ⟨agree, printed, stop, agreed "a" named, (kept "e" frozen).2⟩

end Lox
