import Lox.Proofs.Scope.Completed
import Mathlib.Data.List.Forall2

/-!
Statements with a block around them. They do what they do without it, and only what they declare is
in another place: in the scope of the block, which is closed at the end, and not in the scope around
it. The two runs are related by a scope that lies over another: `Stmt.exec_wrapped`.
-/

set_option autoImplicit false

namespace Lox

namespace Scope

/-- A scope over the one outside it, and both joined in one. Names that are in both have the value
that they have in the upper one. -/
structure Overlaid (upper lower joined : Scope) : Prop where
  get : ∀ name, joined.get? name = (upper.get? name).or (lower.get? name)
  same : upper = empty → joined = lower

variable {upper lower joined : Scope} {name : String}

theorem eq_empty {scope : Scope} (nothing : ∀ name, ¬scope.has name) : scope = empty := by
  have names : scope.names = [] := by
    rw [List.eq_nil_iff_forall_not_mem]
    exact fun name member => nothing name ((scope.mem_names name).1 member)
  exact congrArg Scope.mk (List.map_eq_nil_iff.1 names)

theorem Overlaid.empty (scope : Scope) : Overlaid empty scope scope where
  get _ := rfl
  same _ := rfl

theorem set_ne_empty (scope : Scope) (name : String) (value : Value) :
    scope.set name value ≠ .empty := by
  intro same
  have has := (scope.has_set name value name).2 (.inl rfl)
  rw [same] at has
  exact has_empty name has

theorem Overlaid.set_upper (overlaid : Overlaid upper lower joined) (name : String)
    (value : Value) : Overlaid (upper.set name value) lower (joined.set name value) where
  get other := by
    rw [get?_set, get?_set, overlaid.get]
    split
    · rfl
    · rfl
  same empty := absurd empty (upper.set_ne_empty name value)

theorem Overlaid.set_lower (overlaid : Overlaid upper lower joined) (without : ¬upper.has name)
    (value : Value) : Overlaid upper (lower.set name value) (joined.set name value) where
  get other := by
    rw [get?_set, get?_set, overlaid.get]
    split
    · rename_i same
      rw [same, get?_of_not_has without, Option.none_or]
    · rfl
  same empty := by rw [overlaid.same empty]

theorem Overlaid.get_lower (overlaid : Overlaid upper lower joined) (without : ¬upper.has name) :
    joined.get? name = lower.get? name := by
  rw [overlaid.get, get?_of_not_has without, Option.none_or]

theorem Overlaid.has_lower (overlaid : Overlaid upper lower joined) (without : ¬upper.has name) :
    joined.has name = lower.has name := by
  rw [has, overlaid.get_lower without, has]

theorem Overlaid.has_upper (overlaid : Overlaid upper lower joined) (known : upper.has name) :
    joined.has name := by
  obtain ⟨value, got⟩ := get?_of_has known
  rw [has, overlaid.get, got]
  rfl

end Scope

namespace Environment

open Scope (Overlaid)

/-- An environment with a scope of its own for declarations, and one without: there the scope is
joined with the one outside it. -/
inductive Wraps : Environment → Environment → Prop where
  | global {scope own joined : Scope} (overlaid : Overlaid scope own joined) :
      Wraps (.inner scope (.global own)) (.global joined)
  | inner {scope own joined : Scope} (overlaid : Overlaid scope own joined)
      (outer : Environment) : Wraps (.inner scope (.inner own outer)) (.inner joined outer)

theorem Wraps.enter (environment : Environment) : Wraps environment.enter environment := by
  cases environment with
  | global scope => exact .global (.empty scope)
  | inner scope outer => exact .inner (.empty scope) outer

theorem Wraps.keeps : Keeps (fun _ => True) (fun _ => True) Wraps where
  get := by
    rintro _ _ (overlaid | ⟨overlaid, outer⟩) name -
    · exact overlaid.get name
    · rw [get?, get?, get?, overlaid.get, Option.or_assoc]
  assign := by
    rintro _ _ (overlaid | ⟨overlaid, outer⟩) name value -
    · rw [assign?, assign?, assign?]
      split
      · rename_i known
        rw [if_pos (overlaid.has_upper known)]
        exact .some (.global (overlaid.set_upper name value))
      · rename_i without
        rw [overlaid.has_lower without]
        split
        · exact .some (.global (overlaid.set_lower without value))
        · exact .none
    · rw [assign?, assign?, assign?]
      split
      · rename_i known
        rw [if_pos (overlaid.has_upper known)]
        exact .some (.inner (overlaid.set_upper name value) outer)
      · rename_i without
        rw [overlaid.has_lower without]
        split
        · exact .some (.inner (overlaid.set_lower without value) outer)
        · cases outer.assign? name value with
          | some changed => exact .some (.inner overlaid changed)
          | none => exact .none
  define := by
    rintro _ _ (overlaid | ⟨overlaid, outer⟩) name value -
    · exact .global (overlaid.set_upper name value)
    · exact .inner (overlaid.set_upper name value) outer

/-- Where the statements end, the scopes with and without the one of their own have the same values
for names that are not in it. -/
theorem Wraps.scopes {environment other : Environment} (wraps : Wraps environment other) :
    List.Forall₂ (fun one two : Scope =>
      ∀ name, ¬environment.innermost.has name → two.get? name = one.get? name)
      environment.leave.scopes other.scopes := by
  cases wraps with
  | global overlaid => exact .cons (fun _ without => overlaid.get_lower without) .nil
  | inner overlaid outer =>
      refine List.rel_append ?_ (.cons (fun _ without => overlaid.get_lower without) .nil)
      exact List.forall₂_same.2 fun _ _ _ _ => rfl

/-- A scope of its own with nothing in it makes no difference. -/
theorem Wraps.eq_leave {environment other : Environment} (wraps : Wraps environment other)
    (nothing : environment.innermost = .empty) : other = environment.leave := by
  cases wraps with
  | global overlaid => rw [overlaid.same nothing, leave]
  | inner overlaid outer => rw [overlaid.same nothing, leave]

end Environment

namespace Stmt

theorem completed_sublist (environment : Environment) (statements : List Stmt) :
    (completed environment statements).Sublist statements := by
  induction statements generalizing environment with
  | nil => exact .slnil
  | cons statement rest ih =>
      rw [completed]
      split
      · exact List.nil_sublist _
      · exact (ih _).cons_cons statement

/-- The scope of a block has names only that the block declares. -/
theorem has_execAll_enter {environment : Environment} {statements : List Stmt} {name : String}
    (has : (execAll environment.enter statements).environment.innermost.has name) :
    name ∈ declaredNames statements := by
  obtain ⟨later, declares, members⟩ := exists_execAll_declares environment.enter statements
  have member := (members name).1 ((declares.mem_innermost name).2 has)
  have declared := member.resolve_left (Scope.has_empty name)
  exact ((completed_sublist environment.enter statements).filterMap declaredName?).subset declared

/-- In a block of their own, statements print the same and stop in the same way. The scopes around
it have then the same values, but for the names that the statements declare themselves; if there are
none, it is all the same. -/
theorem exec_wrapped (environment : Environment) (statements : List Stmt) :
    let wrapped := exec environment (.block statements)
    let direct := execAll environment statements
    direct.printed = wrapped.printed ∧ direct.stop = wrapped.stop ∧
      List.Forall₂ (fun one two : Scope =>
        ∀ name, name ∉ declaredNames statements → two.get? name = one.get? name)
        wrapped.environment.scopes direct.environment.scopes ∧
      (declaredNames statements = [] → direct = wrapped) := by
  intro wrapped direct
  let inside := execAll environment.enter statements
  have ran : wrapped = ⟨inside.printed, inside.environment.leave, inside.stop⟩ := by rw [← exec]
  obtain ⟨printed, stop, wraps⟩ := execAll_alike Environment.Wraps.keeps statements
    (fun _ _ => trivial) (fun _ _ => trivial) (Environment.Wraps.enter environment)
  change inside.environment.Wraps direct.environment at wraps
  -- Declarations that were not reached are in neither run, so all that can differ is declared here.
  have known : ∀ name, inside.environment.innermost.has name → name ∈ declaredNames statements :=
    fun _ has => has_execAll_enter has
  rw [ran]
  refine ⟨printed, stop, ?_, fun nothing => ?_⟩
  · refine wraps.scopes.imp fun one two same name undeclared => same name fun has => ?_
    exact undeclared (known name has)
  · rw [nothing] at known
    have empty := Scope.eq_empty fun name has => List.not_mem_nil (known name has)
    have reached := wraps.eq_leave empty
    rw [← reached, ← printed, ← stop]

/-- `var a = b; b = nil; print a; c;` prints `x` and stops at `c`, with a block around it and
without. It makes `b` nil, and only without the block it gives a value to the `a` that was there.
`b = nil;` alone does the same with and without. -/
theorem exec_wrapped_shadowed :
    let a : Token := ⟨.identifier, "a", .nil, 1⟩
    let b : Token := ⟨.identifier, "b", .nil, 1⟩
    let c : Token := ⟨.identifier, "c", .nil, 1⟩
    let clear : Stmt := .expression (.assign b (.literal .nil))
    let statements : List Stmt :=
      [.declare a (some (.var b)), clear, .print (.var a), .expression (.var c)]
    let environment : Environment := .inner ⟨[("a", .nil)]⟩ (.global ⟨[("b", .text "x")]⟩)
    let wrapped := exec environment (.block statements)
    let direct := execAll environment statements
    wrapped.printed = ["x"] ∧ wrapped.stop = some (.failed (.undefinedVariable c)) ∧
      direct.printed = ["x"] ∧ direct.stop = some (.failed (.undefinedVariable c)) ∧
      wrapped.environment = .inner ⟨[("a", .nil)]⟩ (.global ⟨[("b", .nil)]⟩) ∧
      direct.environment = .inner ⟨[("a", .text "x")]⟩ (.global ⟨[("b", .nil)]⟩) ∧
      execAll environment [clear] = exec environment (.block [clear]) := by
  intro a b c clear statements environment wrapped direct
  obtain ⟨printed, stop, -, -⟩ := exec_wrapped environment statements
  obtain ⟨-, -, -, same⟩ := exec_wrapped environment [clear]
  exact ⟨rfl, rfl, printed.trans rfl, stop.trans rfl, rfl, rfl, same rfl⟩

end Stmt

end Lox
