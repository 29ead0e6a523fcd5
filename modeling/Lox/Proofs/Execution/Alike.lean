import Lox.Execution
import Lox.Proofs.Tree.Names

/-!
Two runs side by side. From environments that are related they come to the same: the same values,
the same texts printed and the same stop, in environments that are related again. For expressions
it is enough that each name is read and written alike in both (`Expr.eval_alike`). For statements
it is enough that reading, assignment and declaration keep the relation in the scope that they run
in (`Stmt.execAll_alike`), as what a block opens inside it is the same in both.
-/

set_option autoImplicit false

namespace Lox

namespace Evaluation

variable {α β : Type} {related : Environment → Environment → Prop}

/-- The environment that an evaluation ends in, whether it stops or not. -/
def reached : EStateM.Result Stop Environment α → Environment
  | .ok _ environment => environment
  | .error _ environment => environment

/-- The same value, or the same stop, in environments that are related. -/
inductive ResultAlike (related : Environment → Environment → Prop) :
    EStateM.Result Stop Environment α → EStateM.Result Stop Environment α → Prop where
  | ok (result : α) {reached other : Environment} (holds : related reached other) :
      ResultAlike related (.ok result reached) (.ok result other)
  | error (stop : Stop) {reached other : Environment} (holds : related reached other) :
      ResultAlike related (.error stop reached) (.error stop other)

theorem ResultAlike.reached {first second : EStateM.Result Stop Environment α}
    (alike : ResultAlike related first second) :
    related (Evaluation.reached first) (Evaluation.reached second) := by
  cases alike with
  | ok result holds => exact holds
  | error stop holds => exact holds

/-- Two evaluations that come to the same from environments that are related. -/
def Alike (related : Environment → Environment → Prop) (first second : Evaluation α) : Prop :=
  ∀ environment other, related environment other →
    ResultAlike related (first environment) (second other)

theorem Alike.pure (result : α) : Alike related (Pure.pure result) (Pure.pure result) :=
  fun _ _ holds => .ok result holds

theorem Alike.stop (stop : Stop) : Alike related (throw stop : Evaluation α) (throw stop) :=
  fun _ _ holds => .error stop holds

theorem Alike.bind {first second : Evaluation α} {next later : α → Evaluation β}
    (begins : Alike related first second)
    (goesOn : ∀ result, Alike related (next result) (later result)) :
    Alike related (first >>= next) (second >>= later) := by
  intro environment other holds
  have result := begins environment other holds
  rw [bind_apply, bind_apply]
  generalize first environment = one at result
  generalize second other = two at result
  cases result with
  | ok result holds => exact goesOn result _ _ holds
  | error stop holds => exact .error stop holds

theorem Alike.ofOperation (result : Except RuntimeError α) :
    Alike related (ofOperation result) (ofOperation result) := by
  cases result with
  | ok found => exact .pure found
  | error error => exact .stop (.failed error)

/-- The two names may differ if they are always found. -/
theorem Alike.read {name other : Token}
    (got : ∀ first second, related first second →
      second.get? other.lexeme = first.get? name.lexeme)
    (found : other = name ∨ ∀ first second, related first second →
      first.get? name.lexeme ≠ none) :
    Alike related (read name) (read other) := by
  intro first second holds
  rw [read_apply, read_apply, got first second holds]
  cases there : first.get? name.lexeme with
  | some value => exact .ok value holds
  | none =>
      rw [found.resolve_right fun always => always first second holds there]
      exact .error _ holds

theorem Alike.write {name other : Token} {value : Value}
    (assigned : ∀ first second, related first second →
      Option.Rel related (first.assign? name.lexeme value) (second.assign? other.lexeme value))
    (found : other = name ∨ ∀ first second, related first second →
      first.assign? name.lexeme value ≠ none) :
    Alike related (write name value) (write other value) := by
  intro first second holds
  have result := assigned first second holds
  have known := fun always => found.resolve_right fun there => there first second holds always
  rw [write_apply, write_apply]
  generalize first.assign? name.lexeme value = one at result known
  generalize second.assign? other.lexeme value = two at result
  cases result with
  | some still => exact .ok () still
  | none =>
      rw [known rfl]
      exact .error _ holds

end Evaluation

open Evaluation (Alike)

/-- Two expressions that differ in their names have the same value if the names are read and
written alike. -/
theorem Expr.eval_alike {related : Environment → Environment → Prop} {place : Token → Token}
    (expression : Expr)
    (reads : ∀ name : Token, name.lexeme ∈ expression.reads →
      Alike related (.read name) (.read (place name)))
    (writes : ∀ name : Token, name.lexeme ∈ expression.writes →
      ∀ value, Alike related (.write name value) (.write (place name) value)) :
    Alike related expression.eval (expression.mapNames place).eval := by
  induction expression with
  | literal value => exact .pure value
  | group inner ih => exact ih reads writes
  | unary operator operand ih => exact (ih reads writes).bind fun value => .ofOperation _
  | binary left operator right first second =>
      simp only [Expr.reads, Expr.writes, List.mem_append] at reads writes
      apply (first (fun name member => reads name (.inl member))
        fun name member => writes name (.inl member)).bind
      intro leftValue
      apply (second (fun name member => reads name (.inr member))
        fun name member => writes name (.inr member)).bind
      intro rightValue
      exact .ofOperation _
  | assign name value ih =>
      simp only [Expr.reads, Expr.writes, List.mem_cons] at reads writes
      apply (ih reads fun name member => writes name (.inr member)).bind
      intro result
      apply (writes name (.inl rfl) result).bind
      intro done
      exact .pure result
  | var name => exact reads name (List.mem_singleton.2 rfl)
  | misplaced found => exact .stop (.notExpression found)

/-- What assignments keep, evaluation keeps, whether it stops or not: it is a run beside itself. -/
theorem Expr.eval_keepsInvariant {invariant : Environment → Prop}
    (assigned : ∀ {environment name value changed}, invariant environment →
      environment.assign? name value = some changed → invariant changed)
    (expression : Expr) {environment : Environment} (holds : invariant environment) :
    invariant (Evaluation.reached (expression.eval environment)) := by
  let related := fun first second : Environment => second = first ∧ invariant first
  have alike : Alike related expression.eval (expression.mapNames id).eval := by
    apply expression.eval_alike
    · intro name member
      exact .read (fun _ _ same => by rw [same.1, id]) (.inl rfl)
    · intro name member value
      refine .write (fun first second same => ?_) (.inl rfl)
      rw [same.1, id]
      cases found : first.assign? name.lexeme value with
      | some changed => exact .some ⟨rfl, assigned same.2 found⟩
      | none => exact .none
  rw [expression.mapNames_id] at alike
  exact (alike environment environment ⟨rfl, holds⟩).reached.2

namespace Execution

/-- Two executions that print the same and stop for the same reason. How the environments they end
in are related may depend on the stop. -/
structure Alike (related : Option Stop → Environment → Environment → Prop)
    (first second : Execution) : Prop where
  printed : second.printed = first.printed
  stop : second.stop = first.stop
  reached : related first.stop first.environment second.environment

variable {related later : Option Stop → Environment → Environment → Prop}

theorem Alike.completed (printed : List String) {environment other : Environment}
    (holds : related none environment other) :
    Alike related ⟨printed, environment, none⟩ ⟨printed, other, none⟩ :=
  ⟨rfl, rfl, holds⟩

theorem Alike.stopped {stop : Stop} {environment other : Environment}
    (holds : related (some stop) environment other) :
    Alike related ⟨[], environment, some stop⟩ ⟨[], other, some stop⟩ :=
  ⟨rfl, rfl, holds⟩

theorem Alike.ofValue {before : Environment → Environment → Prop} {expression second : Expr}
    (begins : Evaluation.Alike before expression.eval second.eval)
    {environment other : Environment} (holds : before environment other)
    {next goesOn : Value → Environment → Execution}
    (stops : ∀ stop environment other, before environment other →
      related (some stop) environment other)
    (ends : ∀ value environment other, before environment other →
      Alike related (next value environment) (goesOn value other)) :
    Alike related (ofValue expression environment next) (ofValue second other goesOn) := by
  have result := begins environment other holds
  unfold Execution.ofValue
  generalize expression.eval environment = one at result
  generalize second.eval other = two at result
  cases result with
  | ok value holds => exact ends value _ _ holds
  | error stop holds => exact .stopped (stops stop _ _ holds)

theorem Alike.andThen {first second : Execution} {next goesOn : Environment → Execution}
    (begins : Alike related first second)
    (stops : ∀ stop environment other, related (some stop) environment other →
      later (some stop) environment other)
    (ends : ∀ environment other, related none environment other →
      Alike later (next environment) (goesOn other)) :
    Alike later (first.andThen next) (second.andThen goesOn) := by
  obtain ⟨printed, stop, reached⟩ := begins
  unfold Execution.andThen
  rw [stop]
  cases ended : first.stop with
  | some found =>
      rw [ended] at reached
      refine ⟨printed, stop, ?_⟩
      rw [ended]
      exact stops found _ _ reached
  | none =>
      rw [ended] at reached
      obtain ⟨morePrinted, sameStop, reachedLater⟩ := ends _ _ reached
      refine ⟨?_, sameStop, reachedLater⟩
      show second.printed ++ _ = first.printed ++ _
      rw [printed, morePrinted]

theorem Alike.leave {first second : Execution} (body : Alike related first second)
    (leaves : ∀ stop environment other, related stop environment other →
      later stop environment.leave other.leave) :
    Alike later { first with environment := first.environment.leave }
      { second with environment := second.environment.leave } :=
  ⟨body.printed, body.stop, leaves first.stop _ _ body.reached⟩

end Execution

namespace Environment

/-- A relation of environments that reading, assignment and declaration keep, for names that may
be read and names that may be written. -/
structure Keeps (readable writable : String → Prop)
    (related : Environment → Environment → Prop) : Prop where
  get : ∀ {environment other}, related environment other → ∀ name, readable name →
    other.get? name = environment.get? name
  assign : ∀ {environment other}, related environment other → ∀ name value, writable name →
    Option.Rel related (environment.assign? name value) (other.assign? name value)
  define : ∀ {environment other}, related environment other → ∀ name value, writable name →
    related (environment.define name value) (other.define name value)

/-- One more scope, the same in both, inside environments that are related. -/
inductive Inside (related : Environment → Environment → Prop) :
    Environment → Environment → Prop where
  | inner (scope : Scope) {outer other : Environment} (holds : related outer other) :
      Inside related (.inner scope outer) (.inner scope other)

variable {readable writable : String → Prop} {related : Environment → Environment → Prop}

theorem Inside.enter {environment other : Environment} (holds : related environment other) :
    Inside related environment.enter other.enter :=
  .inner .empty holds

theorem Inside.leave {environment other : Environment} (holds : Inside related environment other) :
    related environment.leave other.leave := by
  cases holds with
  | inner scope holds => exact holds

theorem Keeps.inside (keeps : Keeps readable writable related) :
    Keeps readable writable (Inside related) where
  get := by
    rintro _ _ ⟨scope, holds⟩ name allowed
    rw [get?, get?, keeps.get holds name allowed]
  assign := by
    rintro _ _ ⟨scope, holds⟩ name value allowed
    rw [assign?, assign?]
    split
    · exact .some (.inner _ holds)
    · have assigned := keeps.assign holds name value allowed
      generalize assign? name value _ = one at assigned
      generalize assign? name value _ = two at assigned
      cases assigned with
      | some holds => exact .some (.inner scope holds)
      | none => exact .none
  define := by
    rintro _ _ ⟨scope, holds⟩ name value -
    exact .inner _ holds

variable (keeps : Keeps readable writable related) {name : Token}

include keeps

theorem Keeps.read (allowed : readable name.lexeme) :
    Evaluation.Alike related (.read name) (.read name) :=
  .read (fun _ _ holds => keeps.get holds name.lexeme allowed) (.inl rfl)

theorem Keeps.write (allowed : writable name.lexeme) (value : Value) :
    Evaluation.Alike related (.write name value) (.write name value) :=
  .write (fun _ _ holds => keeps.assign holds name.lexeme value allowed) (.inl rfl)

end Environment

open Environment (Keeps Inside)

variable {readable writable : String → Prop}

theorem Expr.eval_keeps {related : Environment → Environment → Prop}
    (keeps : Keeps readable writable related) (expression : Expr)
    (reads : ∀ name ∈ expression.reads, readable name)
    (writes : ∀ name ∈ expression.writes, writable name) :
    Alike related expression.eval expression.eval := by
  have alike : Alike related expression.eval (expression.mapNames id).eval := expression.eval_alike
    (fun name member => keeps.read (reads name.lexeme member))
    fun name member => keeps.write (writes name.lexeme member)
  rwa [expression.mapNames_id] at alike

mutual

theorem Stmt.exec_alike {related : Environment → Environment → Prop}
    (keeps : Keeps readable writable related) (statement : Stmt)
    (reads : ∀ name ∈ statement.reads, readable name)
    (writes : ∀ name ∈ statement.writes, writable name) {environment other : Environment}
    (holds : related environment other) :
    Execution.Alike (fun _ => related) (exec environment statement) (exec other statement) := by
  match statement with
  | .expression inner =>
      rw [exec, exec]
      exact .ofValue (inner.eval_keeps keeps reads writes) holds (fun _ _ _ holds => holds)
        fun _ _ _ holds => .completed [] holds
  | .print inner =>
      rw [exec, exec]
      exact .ofValue (inner.eval_keeps keeps reads writes) holds (fun _ _ _ holds => holds)
        fun value _ _ holds => .completed [value.display] holds
  | .declare name none =>
      rw [exec, exec]
      rw [Stmt.writes, List.forall_mem_singleton] at writes
      exact .completed [] (keeps.define holds name.lexeme .nil writes)
  | .declare name (some initial) =>
      rw [exec, exec]
      rw [Stmt.reads] at reads
      rw [Stmt.writes, List.forall_mem_cons] at writes
      exact .ofValue (initial.eval_keeps keeps reads writes.2) holds (fun _ _ _ holds => holds)
        fun value _ _ holds => .completed [] (keeps.define holds name.lexeme value writes.1)
  | .block body =>
      rw [exec, exec]
      rw [Stmt.reads] at reads
      rw [Stmt.writes] at writes
      have inside := Stmt.execAll_alike keeps.inside body reads writes (Inside.enter holds)
      exact inside.leave fun _ _ _ holds => holds.leave
  | .misplaced found =>
      rw [exec, exec]
      exact .stopped holds

/-- Statements do the same from environments that are related, and keep them related. -/
theorem Stmt.execAll_alike {related : Environment → Environment → Prop}
    (keeps : Keeps readable writable related) (statements : List Stmt)
    (reads : ∀ name ∈ Stmt.allReads statements, readable name)
    (writes : ∀ name ∈ Stmt.allWrites statements, writable name)
    {environment other : Environment} (holds : related environment other) :
    Execution.Alike (fun _ => related) (execAll environment statements)
      (execAll other statements) := by
  match statements with
  | [] =>
      rw [execAll, execAll]
      exact .completed [] holds
  | statement :: rest =>
      rw [execAll, execAll]
      rw [Stmt.allReads, List.forall_mem_append] at reads
      rw [Stmt.allWrites, List.forall_mem_append] at writes
      have first := Stmt.exec_alike keeps statement reads.1 writes.1 holds
      exact first.andThen (fun _ _ _ holds => holds)
        fun _ _ holds => Stmt.execAll_alike keeps rest reads.2 writes.2 holds

end

end Lox
