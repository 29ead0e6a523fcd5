import Lox.Environment
import Lox.Proofs.Scope.Resolution

/-!
The scope a name is held by. A name is looked up, from the innermost scope outwards, in the nearest
scope that has it; scopes are counted from the global one, which is number 0. With the names of each
scope given, that scope is known before any value is: `Environment.Declares.hits`.
-/

set_option autoImplicit false

namespace Lox

namespace Scope

/-- The names of a scope. -/
def names (scope : Scope) : List String :=
  scope.bindings.map Prod.fst

theorem lookup_cons (known : String) (old : Value) (rest : List (String × Value))
    (name : String) :
    ((known, old) :: rest).lookup name = if name = known then some old else rest.lookup name := by
  rw [List.lookup_cons]
  by_cases same : name = known
  · rw [if_pos same, beq_iff_eq.2 same]
  · rw [if_neg same, beq_eq_false_iff_ne.2 same]

theorem lookup_bind (name : String) (value : Value) (bindings : List (String × Value))
    (other : String) :
    (bind name value bindings).lookup other =
      if other = name then some value else bindings.lookup other := by
  induction bindings with
  | nil => rw [bind, lookup_cons]
  | cons binding rest ih =>
      obtain ⟨known, old⟩ := binding
      rw [bind, lookup_cons]
      by_cases found : name = known
      · rw [if_pos found, lookup_cons, found]
        by_cases same : other = known
        · rw [if_pos same, if_pos same]
        · rw [if_neg same, if_neg same, if_neg same]
      · rw [if_neg found, lookup_cons, ih]
        by_cases same : other = known
        · have different : ¬other = name := fun equal => found (equal.symm.trans same)
          rw [if_pos same, if_neg different, if_pos same]
        · rw [if_neg same, if_neg same]

theorem get?_set (scope : Scope) (name : String) (value : Value) (other : String) :
    (scope.set name value).get? other = if other = name then some value else scope.get? other :=
  lookup_bind name value scope.bindings other

theorem has_set (scope : Scope) (name : String) (value : Value) (other : String) :
    (scope.set name value).has other ↔ other = name ∨ scope.has other := by
  rw [has, get?_set, has]
  by_cases same : other = name
  · simp [same]
  · simp [same]

/-- A new value for a name that is there adds no name. -/
theorem has_set_of_has {scope : Scope} {name : String} (known : scope.has name) (value : Value)
    (other : String) : (scope.set name value).has other ↔ scope.has other := by
  rw [has_set, or_iff_right_iff_imp]
  rintro rfl
  exact known

theorem has_empty (name : String) : ¬empty.has name := by
  rw [has, get?, empty, List.lookup_nil]
  decide

theorem mem_names (scope : Scope) (name : String) : name ∈ scope.names ↔ scope.has name := by
  obtain ⟨bindings⟩ := scope
  rw [names, has, get?]
  induction bindings with
  | nil => simp
  | cons binding rest ih =>
      obtain ⟨known, old⟩ := binding
      rw [List.map_cons, List.mem_cons, lookup_cons, ih]
      by_cases same : name = known
      · simp [same]
      · simp [same]

theorem get?_of_has {scope : Scope} {name : String} (has : scope.has name) :
    ∃ value, scope.get? name = some value :=
  Option.isSome_iff_exists.1 has

theorem get?_of_not_has {scope : Scope} {name : String} (without : ¬scope.has name) :
    scope.get? name = none := by
  rwa [has, Option.not_isSome_iff_eq_none] at without

end Scope

namespace Environment

/-- The open scopes, from the global one inwards. -/
def scopes : Environment → List Scope
  | .global scope => [scope]
  | .inner scope outer => outer.scopes ++ [scope]

/-- What a name is looked up to. -/
inductive Hits (environment : Environment) (name : String) : Option Nat → Prop where
  /-- Both reading and assignment go to the scope of a number, and to no other. -/
  | found (level : Nat) (scope : Scope) (there : environment.scopes[level]? = some scope)
      (has : scope.has name)
      (nearest : ∀ deeper ∈ environment.scopes.drop (level + 1), ¬deeper.has name)
      (reads : environment.get? name = scope.get? name)
      (writes : ∀ value, ∃ changed, environment.assign? name value = some changed ∧
        changed.scopes = environment.scopes.set level (scope.set name value)) :
      Hits environment name (some level)
  | missing (nowhere : ∀ scope ∈ environment.scopes, ¬scope.has name)
      (reads : environment.get? name = none)
      (writes : ∀ value, environment.assign? name value = none) : Hits environment name none

/-- The scopes of an environment have just the names given for each, from the innermost outwards. -/
inductive Declares : List (List String) → Environment → Prop where
  | global {names : List String} {scope : Scope} (same : ∀ name, name ∈ names ↔ scope.has name) :
      Declares [names] (.global scope)
  | inner {names : List String} {declared : List (List String)} {scope : Scope}
      {outer : Environment} (same : ∀ name, name ∈ names ↔ scope.has name)
      (rest : Declares declared outer) : Declares (names :: declared) (.inner scope outer)

theorem Declares.length_eq {declared : List (List String)} {environment : Environment}
    (declares : Declares declared environment) :
    declared.length = environment.scopes.length := by
  induction declares with
  | global same => rfl
  | inner same rest ih =>
      rw [List.length_cons, ih, scopes, List.length_append, List.length_singleton]

theorem Declares.hits {declared : List (List String)} {environment : Environment}
    (declares : Declares declared environment) (name : String) :
    environment.Hits name (innermost? name declared) := by
  induction declares with
  | @global names scope same =>
      rw [innermost?]
      by_cases member : name ∈ names
      · have has := (same name).1 member
        rw [if_pos member]
        refine .found 0 scope rfl has (by simp [scopes]) rfl fun value =>
          ⟨.global (scope.set name value), ?_, rfl⟩
        rw [assign?, if_pos has]
      · have without := fun has => member ((same name).2 has)
        rw [if_neg member]
        have nothing := Scope.get?_of_not_has without
        refine .missing (by simpa [scopes] using without) nothing fun value => ?_
        rw [assign?, if_neg without]
  | @inner names declared scope outer same rest ih =>
      have depth := rest.length_eq
      rw [innermost?]
      by_cases member : name ∈ names
      · have has := (same name).1 member
        obtain ⟨value, got⟩ := Scope.get?_of_has has
        rw [if_pos member, depth]
        refine .found _ scope ?_ has ?_ ?_ fun value =>
          ⟨.inner (scope.set name value) outer, ?_, ?_⟩
        · rw [scopes, List.getElem?_append_right (Nat.le_refl _), Nat.sub_self]
          rfl
        · rw [scopes, List.drop_eq_nil_of_le (by simp)]
          exact List.forall_mem_nil _
        · rw [get?, got]
          rfl
        · rw [assign?, if_pos has]
        · rw [scopes, scopes, List.set_append_right _ _ (Nat.le_refl _), Nat.sub_self]
          rfl
      · have without := fun has => member ((same name).2 has)
        have nothing := Scope.get?_of_not_has without
        rw [if_neg member]
        generalize innermost? name declared = level at ih
        cases ih with
        | found level holder there has nearest reads writes =>
            obtain ⟨bounded, -⟩ := List.getElem?_eq_some_iff.1 there
            refine .found level holder ?_ has ?_ ?_ fun value => ?_
            · rw [scopes, List.getElem?_append_left bounded, there]
            · rw [scopes, List.drop_append_of_le_length bounded]
              intro deeper member
              rcases List.mem_append.1 member with further | innermost
              · exact nearest deeper further
              · rw [List.mem_singleton.1 innermost]
                exact without
            · rw [get?, nothing, reads]
              rfl
            · obtain ⟨changed, assigned, result⟩ := writes value
              refine ⟨.inner scope changed, ?_, ?_⟩
              · rw [assign?, if_neg without, assigned]
                rfl
              · rw [scopes, scopes, result, List.set_append_left _ _ bounded]
        | missing nowhere reads writes =>
            refine .missing ?_ ?_ fun value => ?_
            · intro deeper member
              rcases List.mem_append.1 member with further | innermost
              · exact nowhere deeper further
              · rw [List.mem_singleton.1 innermost]
                exact without
            · rw [get?, nothing, reads]
              rfl
            · rw [assign?, if_neg without, writes value]
              rfl

theorem Declares.define {declared : List (List String)} {environment : Environment}
    (declares : Declares declared environment) (name : String) (value : Value) :
    Declares (declareName name declared) (environment.define name value) := by
  cases declares with
  | global same =>
      refine .global fun other => ?_
      rw [List.mem_cons, Scope.has_set, same]
  | inner same rest =>
      refine .inner (fun other => ?_) rest
      rw [List.mem_cons, Scope.has_set, same]

/-- Assignment changes values only. -/
theorem Declares.assign {declared : List (List String)} {environment changed : Environment}
    (declares : Declares declared environment) {name : String} {value : Value}
    (assigned : environment.assign? name value = some changed) : Declares declared changed := by
  induction declares generalizing changed with
  | @global names scope same =>
      rw [assign?] at assigned
      split at assigned
      · rename_i has
        cases assigned
        refine .global fun other => ?_
        rw [same, Scope.has_set_of_has has]
      · cases assigned
  | @inner names declared scope outer same rest ih =>
      rw [assign?] at assigned
      split at assigned
      · rename_i has
        cases assigned
        refine .inner (fun other => ?_) rest
        rw [same, Scope.has_set_of_has has]
      · obtain ⟨deeper, found, rfl⟩ := Option.map_eq_some_iff.1 assigned
        exact .inner same (ih found)

theorem Declares.enter {declared : List (List String)} {environment : Environment}
    (declares : Declares declared environment) : Declares ([] :: declared) environment.enter :=
  .inner (fun name => by simp [Scope.has_empty name]) declares

theorem Declares.leave {names : List String} {declared : List (List String)}
    {environment : Environment} (declares : Declares (names :: declared) environment)
    (inside : declared ≠ []) : Declares declared environment.leave := by
  cases declares with
  | global same => exact absurd rfl inside
  | inner same rest => exact rest

theorem Declares.ne_nil {declared : List (List String)} {environment : Environment}
    (declares : Declares declared environment) : declared ≠ [] := by
  cases declares with
  | global same => exact List.cons_ne_nil _ _
  | inner same rest => exact List.cons_ne_nil _ _

end Environment

end Lox
