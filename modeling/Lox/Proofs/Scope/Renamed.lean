import Lox.Proofs.Execution.Alike
import Lox.Proofs.Execution.Sequence
import Lox.Proofs.Scope.Holder

/-!
A variable of a block under another name. The name is changed where the block declares it, and
where a read or an assignment, in the block or in one inside it, means the variable of the block.
With a name that does not occur in the block, the program does the same:
`Stmt.Context.execAll_fill_rename`.
-/

set_option autoImplicit false

namespace Lox

/-- The new name for the old one, and any other name as it is. -/
def replaceName (old new name : String) : String :=
  if name = old then new else name

/-- A name with the new one for it where it means the variable of the block. The open scopes are
those from the block inwards, so that the block has the scope number 0. -/
def renamed (old new : String) (declared : List (List String)) (name : String) : String :=
  if innermost? old declared = some 0 then replaceName old new name else name

def Token.rename (old new : String) (declared : List (List String)) (name : Token) : Token :=
  { name with lexeme := renamed old new declared name.lexeme }

namespace Stmt

mutual

/-- A statement of a block, or of one inside it, with the new name for the variable of the block. A
declaration means the variable that it declares. -/
def rename (old new : String) (declared : List (List String)) : Stmt → Stmt
  | .expression inner => .expression (inner.mapNames (.rename old new declared))
  | .print inner => .print (inner.mapNames (.rename old new declared))
  | .declare name none =>
    .declare (name.rename old new (declareName name.lexeme declared)) none
  | .declare name (some initial) =>
    .declare (name.rename old new (declareName name.lexeme declared))
      (some (initial.mapNames (.rename old new declared)))
  | .block body => .block (renameAll old new ([] :: declared) body)
  | .misplaced found => .misplaced found

def renameAll (old new : String) (declared : List (List String)) : List Stmt → List Stmt
  | [] => []
  | statement :: rest =>
    rename old new declared statement :: renameAll old new (statement.declares declared) rest

end

/-- What is around a statement in a program. -/
inductive Context where
  /-- The statement is among others. -/
  | among (before after : List Stmt)
  /-- It is in a block that is among others. -/
  | inside (before : List Stmt) (deeper : Context) (after : List Stmt)

/-- The program with a statement in its place. -/
def Context.fill (statement : Stmt) : Context → List Stmt
  | .among before after => before ++ statement :: after
  | .inside before deeper after => before ++ .block (deeper.fill statement) :: after

end Stmt

section Names

variable {old new name known : String} {names : List String} {declared : List (List String)}

theorem replaceName_of_ne (different : name ≠ old) : replaceName old new name = name :=
  if_neg different

theorem replaceName_eq_iff (fresh : name ≠ new) (knownFresh : known ≠ new) :
    replaceName old new name = replaceName old new known ↔ name = known := by
  rw [replaceName, replaceName]
  split
  · rename_i isOld
    split
    · rename_i knownOld
      exact iff_of_true rfl (isOld.trans knownOld.symm)
    · rename_i knownOther
      exact iff_of_false knownFresh.symm fun same => knownOther (same.symm.trans isOld)
  · rename_i other
    split
    · rename_i knownOld
      exact iff_of_false fresh fun same => other (same.trans knownOld)
    · rfl

theorem renamed_of_ne (different : name ≠ old) : renamed old new declared name = name := by
  rw [renamed, replaceName_of_ne different, ite_self]

/-- A name of the block itself is one that means the variable of the block, or another one. -/
theorem renamed_block (member : name ∈ names) :
    renamed old new [names] name = replaceName old new name := by
  by_cases same : name = old
  · rw [renamed, innermost?_of_mem (same ▸ member), if_pos (by rfl)]
  · rw [renamed_of_ne same, replaceName_of_ne same]

theorem renamed_outside (unknown : name ∉ names) : renamed old new [names] name = name := by
  by_cases same : name = old
  · rw [renamed, innermost?_of_not_mem (same ▸ unknown), innermost?,
      if_neg (Option.some_ne_none 0).symm]
  · exact renamed_of_ne same

/-- A name of a block inside hides the variable of the block. -/
theorem renamed_inside (inside : declared ≠ []) (member : name ∈ names) :
    renamed old new (names :: declared) name = name := by
  by_cases same : name = old
  · rw [renamed, innermost?_of_mem (same ▸ member), if_neg (by simpa using inside)]
  · exact renamed_of_ne same

theorem renamed_further (unknown : name ∉ names) :
    renamed old new (names :: declared) name = renamed old new declared name := by
  by_cases same : name = old
  · rw [renamed, innermost?_of_not_mem (same ▸ unknown), renamed]
  · rw [renamed_of_ne same, renamed_of_ne same]

theorem renamed_eq (old new name : String) (declared : List (List String)) :
    renamed old new declared name = name ∨ renamed old new declared name = new := by
  rw [renamed, replaceName]
  split
  · split
    · exact .inr rfl
    · exact .inl rfl
  · exact .inl rfl

end Names

namespace Scope

/-- A scope with the new name for one of its variables. -/
def rename (old new : String) (scope : Scope) : Scope :=
  ⟨scope.bindings.map (Prod.map (replaceName old new) id)⟩

section Bindings

variable {old new name : String} {bindings : List (String × Value)}

theorem lookup_rename (unused : new ∉ bindings.map Prod.fst) (fresh : name ≠ new) :
    (bindings.map (Prod.map (replaceName old new) id)).lookup (replaceName old new name) =
      bindings.lookup name := by
  induction bindings with
  | nil => rfl
  | cons binding rest ih =>
      obtain ⟨known, value⟩ := binding
      rw [List.map_cons, List.mem_cons, not_or] at unused
      rw [List.map_cons, Prod.map_apply, lookup_cons, lookup_cons, ih unused.2, id]
      simp only [replaceName_eq_iff fresh (Ne.symm unused.1)]

theorem bind_rename (unused : new ∉ bindings.map Prod.fst) (fresh : name ≠ new)
    (value : Value) :
    bind (replaceName old new name) value (bindings.map (Prod.map (replaceName old new) id)) =
      (bind name value bindings).map (Prod.map (replaceName old new) id) := by
  induction bindings with
  | nil => rfl
  | cons binding rest ih =>
      obtain ⟨known, present⟩ := binding
      rw [List.map_cons, List.mem_cons, not_or] at unused
      rw [List.map_cons, Prod.map_apply, bind, bind, ih unused.2]
      simp only [replaceName_eq_iff fresh (Ne.symm unused.1)]
      split
      · rfl
      · rfl

end Bindings

variable {old new name : String} {scope : Scope}

theorem rename_of_not_has (without : ¬scope.has old) (new : String) :
    scope.rename old new = scope := by
  have other : ∀ binding ∈ scope.bindings,
      Prod.map (replaceName old new) id binding = binding := by
    intro binding member
    have named : binding.1 ∈ scope.names := List.mem_map_of_mem member
    have different : binding.1 ≠ old :=
      fun same => without (same ▸ (scope.mem_names binding.1).1 named)
    rw [Prod.map, replaceName_of_ne different, id]
  exact congrArg Scope.mk ((List.map_congr_left other).trans (List.map_id _))

theorem get?_rename (unused : ¬scope.has new) (fresh : name ≠ new) :
    (scope.rename old new).get? (replaceName old new name) = scope.get? name :=
  lookup_rename (fun member => unused ((scope.mem_names new).1 member)) fresh

theorem set_rename (unused : ¬scope.has new) (fresh : name ≠ new) (value : Value) :
    (scope.rename old new).set (replaceName old new name) value =
      (scope.set name value).rename old new :=
  congrArg Scope.mk
    (bind_rename (fun member => unused ((scope.mem_names new).1 member)) fresh value)

theorem has_rename (unused : ¬scope.has new) (fresh : name ≠ new) :
    (scope.rename old new).has (replaceName old new name) = scope.has name := by
  rw [has, get?_rename unused fresh, has]

theorem not_has_set (unused : ¬scope.has new) (fresh : name ≠ new) (value : Value) :
    ¬(scope.set name value).has new := by
  rw [has_set]
  exact not_or.2 ⟨fresh.symm, unused⟩

theorem not_has_rename (unused : ¬scope.has new) (fresh : name ≠ new) (without : ¬scope.has name) :
    ¬(scope.rename old new).has name := by
  by_cases same : name = old
  · rwa [rename_of_not_has (same ▸ without)]
  · have kept : (scope.rename old new).has (replaceName old new name) = scope.has name :=
      has_rename unused fresh
    rw [replaceName_of_ne same] at kept
    rwa [kept]

theorem not_has_renamed (unused : ¬scope.has new) (without : ¬scope.has name)
    (declared : List (List String)) : ¬scope.has (renamed old new declared name) := by
  rcases renamed_eq old new name declared with same | same
  · rwa [same]
  · rwa [same]

end Scope

namespace Environment

/-- An environment from the scope of a block inwards, with the names of its scopes, and the same one
with the new name for the variable of the block. The scopes outside the block are the same. -/
inductive Renamed (old new : String) : List (List String) → Environment → Environment → Prop where
  | block {names : List String} {scope : Scope} (same : ∀ name, name ∈ names ↔ scope.has name)
      (unused : ¬scope.has new) (outer : Environment) :
      Renamed old new [names] (.inner scope outer) (.inner (scope.rename old new) outer)
  | inside {names : List String} {declared : List (List String)} {scope : Scope}
      {outer other : Environment} (same : ∀ name, name ∈ names ↔ scope.has name)
      (unused : ¬scope.has new) (rest : Renamed old new declared outer other) :
      Renamed old new (names :: declared) (.inner scope outer) (.inner scope other)

variable {old new name : String} {names : List String} {outer declared : List (List String)}
  {environment other : Environment}

theorem Renamed.ne_nil (related : Renamed old new declared environment other) : declared ≠ [] := by
  cases related with
  | block same unused outer => exact List.cons_ne_nil _ _
  | inside same unused rest => exact List.cons_ne_nil _ _

/-- What is read under the new name is what is read under the old one. -/
theorem Renamed.get (related : Renamed old new declared environment other) (fresh : name ≠ new) :
    other.get? (renamed old new declared name) = environment.get? name := by
  induction related with
  | @block names scope same unused outer =>
      by_cases member : name ∈ names
      · obtain ⟨value, got⟩ := Scope.get?_of_has ((same name).1 member)
        rw [renamed_block member, get?, get?, Scope.get?_rename unused fresh, got, Option.some_or,
          Option.some_or]
      · have without := fun has => member ((same name).2 has)
        rw [renamed_outside member, get?, get?, Scope.get?_of_not_has without,
          Scope.get?_of_not_has (Scope.not_has_rename unused fresh without)]
  | @inside names declared scope outer other same unused rest ih =>
      by_cases member : name ∈ names
      · obtain ⟨value, got⟩ := Scope.get?_of_has ((same name).1 member)
        rw [renamed_inside rest.ne_nil member, get?, get?, got, Option.some_or, Option.some_or]
      · have without := fun has => member ((same name).2 has)
        rw [renamed_further member, get?, get?, ih, Scope.get?_of_not_has without,
          Scope.get?_of_not_has (Scope.not_has_renamed unused without declared)]

theorem Renamed.assign (related : Renamed old new declared environment other)
    (fresh : name ≠ new) (value : Value) :
    Option.Rel (Renamed old new declared) (environment.assign? name value)
      (other.assign? (renamed old new declared name) value) := by
  induction related with
  | @block names scope same unused outer =>
      by_cases member : name ∈ names
      · have has := (same name).1 member
        have renamedHas : (scope.rename old new).has (replaceName old new name) :=
          (Scope.has_rename unused fresh).trans has
        rw [renamed_block member, assign?, assign?, if_pos has, if_pos renamedHas,
          Scope.set_rename unused fresh]
        refine .some (.block (fun other => ?_) (Scope.not_has_set unused fresh value) outer)
        rw [same, Scope.has_set_of_has has]
      · have without := fun has => member ((same name).2 has)
        rw [renamed_outside member, assign?, assign?, if_neg without,
          if_neg (Scope.not_has_rename unused fresh without)]
        cases outer.assign? name value with
        | none => exact .none
        | some changed => exact .some (.block same unused changed)
  | @inside names declared scope outer other same unused rest ih =>
      by_cases member : name ∈ names
      · have has := (same name).1 member
        rw [renamed_inside rest.ne_nil member, assign?, assign?, if_pos has, if_pos has]
        refine .some (.inside (fun other => ?_) (Scope.not_has_set unused fresh value) rest)
        rw [same, Scope.has_set_of_has has]
      · have without := fun has => member ((same name).2 has)
        rw [renamed_further member, assign?, assign?, if_neg without,
          if_neg (Scope.not_has_renamed unused without declared)]
        generalize outer.assign? name value = one at ih
        generalize other.assign? _ value = two at ih
        cases ih with
        | none => exact .none
        | some rest => exact .some (.inside same unused rest)

/-- A declaration means the variable that it declares. -/
theorem Renamed.define (related : Renamed old new declared environment other)
    (fresh : name ≠ new) (value : Value) :
    Renamed old new (declareName name declared) (environment.define name value)
      (other.define (renamed old new (declareName name declared) name) value) := by
  cases related with
  | @block names scope same unused outer =>
      rw [declareName, renamed_block List.mem_cons_self, define, define,
        Scope.set_rename unused fresh]
      refine .block (fun other => ?_) (Scope.not_has_set unused fresh value) outer
      rw [List.mem_cons, Scope.has_set, same]
  | @inside names declared scope outer other same unused rest =>
      rw [declareName, renamed_inside rest.ne_nil List.mem_cons_self, define, define]
      refine .inside (fun other => ?_) (Scope.not_has_set unused fresh value) rest
      rw [List.mem_cons, Scope.has_set, same]

theorem Renamed.enter (related : Renamed old new declared environment other) :
    Renamed old new ([] :: declared) environment.enter other.enter :=
  .inside (fun name => by simp [Scope.has_empty name]) (Scope.has_empty new) related

theorem Renamed.leave (related : Renamed old new (names :: declared) environment other)
    (inside : declared ≠ []) : Renamed old new declared environment.leave other.leave := by
  cases related with
  | block same unused outer => exact absurd rfl inside
  | inside same unused rest => exact rest

/-- The block itself has nothing in its scope at first, and changes alike what is outside. -/
theorem Renamed.enter_block (old new : String) (environment : Environment) :
    Renamed old new [[]] environment.enter environment.enter :=
  .block (fun name => by simp [Scope.has_empty name]) (Scope.has_empty new) environment

theorem Renamed.leave_block (related : Renamed old new [names] environment other) :
    other.leave = environment.leave := by
  cases related with
  | block same unused outer => rfl
  | inside same unused rest => exact absurd rfl rest.ne_nil

/-- A name that has another one in its place is found. -/
theorem Renamed.found (related : Renamed old new declared environment other)
    (changed : renamed old new declared name ≠ name) : environment.get? name ≠ none := by
  induction related with
  | @block names scope same unused outer =>
      have member : name ∈ names :=
        Decidable.byContradiction fun unknown => changed (renamed_outside unknown)
      obtain ⟨value, got⟩ := Scope.get?_of_has ((same name).1 member)
      rw [get?, got, Option.some_or]
      exact Option.some_ne_none value
  | @inside names declared scope outer other same unused rest ih =>
      have unknown : name ∉ names := fun member => changed (renamed_inside rest.ne_nil member)
      rw [renamed_further unknown] at changed
      have without := fun has => unknown ((same name).2 has)
      rw [get?, Scope.get?_of_not_has without, Option.none_or]
      exact ih changed

/-- What can be read can be assigned to. -/
theorem assign?_ne_none (got : environment.get? name ≠ none) (value : Value) :
    environment.assign? name value ≠ none := by
  induction environment with
  | global scope =>
      have has : scope.has name := Option.isSome_iff_ne_none.2 got
      rw [assign?, if_pos has]
      exact Option.some_ne_none _
  | inner scope outer ih =>
      rw [assign?]
      split
      · exact Option.some_ne_none _
      · rename_i without
        rw [get?, Scope.get?_of_not_has without, Option.none_or] at got
        rw [ne_eq, Option.map_eq_none_iff]
        exact ih got

theorem Renamed.read {token : Token} (fresh : token.lexeme ≠ new) :
    Evaluation.Alike (Renamed old new declared) (.read token)
      (.read (token.rename old new declared)) := by
  refine .read (fun first second related => related.get fresh) ?_
  by_cases same : renamed old new declared token.lexeme = token.lexeme
  · refine .inl ?_
    rw [Token.rename, same]
  · exact .inr fun first second related => related.found same

theorem Renamed.write {token : Token} (fresh : token.lexeme ≠ new) (value : Value) :
    Evaluation.Alike (Renamed old new declared) (.write token value)
      (.write (token.rename old new declared) value) := by
  refine .write (fun first second related => related.assign fresh value) ?_
  by_cases same : renamed old new declared token.lexeme = token.lexeme
  · refine .inl ?_
    rw [Token.rename, same]
  · exact .inr fun first second related => assign?_ne_none (related.found same) value

end Environment

open Environment (Renamed)

variable {old new : String}

theorem Expr.eval_rename {declared : List (List String)} (expression : Expr)
    (reads : new ∉ expression.reads) (writes : new ∉ expression.writes) :
    Evaluation.Alike (Renamed old new declared) expression.eval
      (expression.mapNames (.rename old new declared)).eval := by
  apply expression.eval_alike
  · intro name member
    have different : name.lexeme ≠ new := fun same => reads (same ▸ member)
    exact Renamed.read different
  · intro name member value
    have different : name.lexeme ≠ new := fun same => writes (same ▸ member)
    exact Renamed.write different value

/-- The environments in which statements end. If they stop, not all that they declare themselves
may be there. -/
def Execution.EndsRenamed (old new : String) (outer later : List (List String))
    (stop : Option Stop) (environment other : Environment) : Prop :=
  match stop with
  | none => Renamed old new later environment other
  | some _ => ∃ names, Renamed old new (names :: outer) environment other

namespace Stmt

open Execution (EndsRenamed)

mutual

theorem exec_rename (statement : Stmt) (reads : new ∉ statement.reads)
    (writes : new ∉ statement.writes) {names : List String} {outer : List (List String)}
    {environment other : Environment}
    (related : Renamed old new (names :: outer) environment other) :
    Execution.Alike (EndsRenamed old new outer (statement.declares (names :: outer)))
      (exec environment statement)
      (exec other (statement.rename old new (names :: outer))) := by
  match statement with
  | .expression inner =>
      rw [exec, rename, exec]
      exact .ofValue (inner.eval_rename reads writes) related (fun _ _ _ holds => ⟨names, holds⟩)
        fun _ _ _ holds => .completed [] holds
  | .print inner =>
      rw [exec, rename, exec]
      exact .ofValue (inner.eval_rename reads writes) related (fun _ _ _ holds => ⟨names, holds⟩)
        fun value _ _ holds => .completed [value.display] holds
  | .declare name none =>
      rw [exec, rename, exec]
      rw [Stmt.writes, List.mem_singleton] at writes
      exact .completed [] (related.define (Ne.symm writes) .nil)
  | .declare name (some initial) =>
      rw [exec, rename, exec]
      rw [Stmt.writes, List.mem_cons, not_or] at writes
      exact .ofValue (initial.eval_rename reads writes.2) related
        (fun _ _ _ holds => ⟨names, holds⟩)
        fun value _ _ holds => .completed [] (holds.define (Ne.symm writes.1) value)
  | .block body =>
      rw [exec, rename, exec]
      have inside := execAll_rename body reads writes related.enter
      refine inside.leave fun stop environment other holds => ?_
      cases stop with
      | none =>
          obtain ⟨later, same, -⟩ := exists_declaresAll [] (names :: outer) body
          change Renamed old new (declaresAll ([] :: names :: outer) body) _ _ at holds
          rw [same] at holds
          exact holds.leave (List.cons_ne_nil _ _)
      | some stop =>
          obtain ⟨later, holds⟩ := holds
          exact ⟨names, holds.leave (List.cons_ne_nil _ _)⟩
  | .misplaced found =>
      rw [exec, rename, exec]
      exact .stopped ⟨names, related⟩

theorem execAll_rename (statements : List Stmt) (reads : new ∉ allReads statements)
    (writes : new ∉ allWrites statements) {names : List String} {outer : List (List String)}
    {environment other : Environment}
    (related : Renamed old new (names :: outer) environment other) :
    Execution.Alike (EndsRenamed old new outer (declaresAll (names :: outer) statements))
      (execAll environment statements)
      (execAll other (renameAll old new (names :: outer) statements)) := by
  match statements with
  | [] =>
      rw [execAll, renameAll, execAll]
      exact .completed [] related
  | statement :: rest =>
      rw [execAll, renameAll, execAll]
      rw [allReads, List.mem_append, not_or] at reads
      rw [allWrites, List.mem_append, not_or] at writes
      have first := exec_rename statement reads.1 writes.1 related
      -- A statement that ends leaves one list of names for the innermost scope, so the rest begins
      -- where the induction hypothesis can take it up.
      obtain ⟨later, same, -⟩ := exists_declaresAll names outer [statement]
      rw [declaresAll, declaresAll] at same
      rw [same] at first
      rw [declaresAll, same]
      exact first.andThen (fun _ _ _ holds => holds)
        fun _ _ holds => execAll_rename rest reads.2 writes.2 holds

end

/-- A block with the new name for its variable does the same. -/
theorem exec_block_rename (body : List Stmt) (fresh : new ∉ Stmt.names body)
    (environment : Environment) :
    exec environment (.block (renameAll old new [[]] body)) = exec environment (.block body) := by
  rw [Stmt.names, List.mem_append, not_or] at fresh
  obtain ⟨printed, stop, ends⟩ :=
    execAll_rename body fresh.1 fresh.2 (Renamed.enter_block old new environment)
  obtain ⟨later, same, -⟩ := exists_declaresAll [] [] body
  rw [same] at ends
  -- However the body ends, the two runs differ in the scope of the block only, which is closed.
  have reached : (execAll environment.enter (renameAll old new [[]] body)).environment.leave =
      (execAll environment.enter body).environment.leave := by
    cases ended : (execAll environment.enter body).stop with
    | none =>
        rw [ended] at ends
        exact Renamed.leave_block ends
    | some found =>
        rw [ended] at ends
        obtain ⟨names, ends⟩ := ends
        exact ends.leave_block
  rw [exec, exec, printed, stop, reached]

/-- A statement in the place of one that does the same. -/
theorem execAll_replace {one other : Stmt}
    (same : ∀ environment, exec environment one = exec environment other)
    (before after : List Stmt) (environment : Environment) :
    execAll environment (before ++ one :: after) =
      execAll environment (before ++ other :: after) := by
  rw [execAll_append, execAll_append]
  congr 1
  funext reached
  rw [execAll, execAll, same]

namespace Context

theorem execAll_fill {one other : Stmt}
    (same : ∀ environment, exec environment one = exec environment other) (context : Context)
    (environment : Environment) :
    execAll environment (context.fill one) = execAll environment (context.fill other) := by
  induction context generalizing environment with
  | among before after => exact execAll_replace same before after environment
  | inside before deeper after ih =>
      refine execAll_replace (fun reached => ?_) before after environment
      rw [exec, exec, ih]

/-- With a new name for a variable of a block, which does not occur in the block, a program does the
same: it prints the same, ends in the same way and leaves the same globals. -/
theorem execAll_fill_rename (context : Context) (body : List Stmt) (old new : String)
    (fresh : new ∉ names body) (globals : Scope) :
    execAll (.global globals) (context.fill (.block (renameAll old new [[]] body))) =
      execAll (.global globals) (context.fill (.block body)) :=
  context.execAll_fill (exec_block_rename body fresh) (.global globals)

/-- In `{ print x; var x = x; x = y; { print x; var x = y; x = nil; } var x = x; print x; }`, inside
another block that has an `x`, the `x` of the block becomes `w` where it is meant. -/
theorem execAll_fill_rename_shadowed :
    let x : Token := ⟨.identifier, "x", .nil, 1⟩
    let y : Token := ⟨.identifier, "y", .nil, 1⟩
    let w : Token := ⟨.identifier, "w", .nil, 1⟩
    let body : List Stmt := [.print (.var x), .declare x (some (.var x)),
      .expression (.assign x (.var y)),
      .block [.print (.var x), .declare x (some (.var y)), .expression (.assign x (.literal .nil))],
      .declare x (some (.var x)), .print (.var x)]
    let changed : List Stmt := [.print (.var x), .declare w (some (.var x)),
      .expression (.assign w (.var y)),
      .block [.print (.var w), .declare x (some (.var y)), .expression (.assign x (.literal .nil))],
      .declare w (some (.var w)), .print (.var w)]
    let context : Context :=
      .inside [.declare x none] (.among [.print (.var y)] []) [.print (.var x)]
    let globals : Scope := ⟨[("y", .text "q")]⟩
    renameAll "x" "w" [[]] body = changed ∧ "w" ∉ names body ∧
      execAll (.global globals) (context.fill (.block changed)) =
        execAll (.global globals) (context.fill (.block body)) ∧
      (execAll (.global globals) (context.fill (.block changed))).printed =
        ["q", "nil", "q", "q", "nil"] := by
  intro x y w body changed context globals
  have fresh : "w" ∉ names body := by decide
  have same := execAll_fill_rename context body "x" "w" fresh globals
  refine ⟨?_, fresh, same, ?_⟩
  · rfl
  · decide

end Context

end Stmt

end Lox
