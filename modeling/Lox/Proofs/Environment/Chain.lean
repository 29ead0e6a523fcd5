import Lox.Environment.Forest
import Lox.Proofs.Scope.Completed

/-!
The environments in a forest. A scope and those it is inside are an environment, and reading,
assignment and declaration through the number of the scope are those of the environment:
`Forest.get?_eq`, `Forest.assign?_eq`, `Forest.define_eq`. What is done to the environment can be
put back: `Forest.put_spec`.
-/

set_option autoImplicit false

namespace Lox

namespace Forest

/-- The scope with a number has a name. -/
def has (forest : Forest) (number : Nat) (name : String) : Bool :=
  forest.scopes[number]?.any (·.has name)

/-- For each scope, the number of the one it is inside. -/
def parents (forest : Forest) : List (Option Nat) :=
  forest.frames.map (·.parent)

/-- An environment begins with the scope of a number. A scope that is inside none that is there is
alone. -/
inductive Begins : List Frame → Nat → Environment → Prop where
  | alone {scope : Scope} {parent : Option Nat} {older : List Frame}
      (chain : parent.bind (environmentIn? older) = none) :
      Begins (⟨scope, parent⟩ :: older) older.length (.global scope)
  | inside {scope : Scope} {parent : Nat} {older : List Frame} {outer : Environment}
      (begins : Begins older parent outer) :
      Begins (⟨scope, some parent⟩ :: older) older.length (.inner scope outer)
  | older {frame : Frame} {older : List Frame} {number : Nat} {environment : Environment}
      (different : number ≠ older.length) (begins : Begins older number environment) :
      Begins (frame :: older) number environment

section Frames

variable {frame : Frame} {older frames : List Frame} {number : Nat} {environment : Environment}

theorem begins_of_found (found : environmentIn? frames number = some environment) :
    Begins frames number environment := by
  induction frames generalizing number environment with
  | nil => cases found
  | cons frame older ih =>
      obtain ⟨scope, parent⟩ := frame
      rw [environmentIn?] at found
      split at found
      · rename_i same
        subst same
        cases chain : parent.bind (environmentIn? older) with
        | none =>
            rw [chain] at found
            cases found
            exact .alone chain
        | some outer =>
            rw [chain] at found
            cases found
            obtain ⟨parent, rfl, foundOuter⟩ := Option.bind_eq_some_iff.1 chain
            exact .inside (ih foundOuter)
      · rename_i different
        exact .older different (ih found)

theorem Begins.found (begins : Begins frames number environment) :
    environmentIn? frames number = some environment := by
  induction begins with
  | alone chain => rw [environmentIn?, if_pos rfl, chain, Option.elim_none]
  | inside begins ih => rw [environmentIn?, if_pos rfl, Option.bind_some, ih, Option.elim_some]
  | older different begins ih => rw [environmentIn?, if_neg different, ih]

theorem scopes_cons (frame : Frame) (older : List Frame) (number : Nat) :
    (Forest.scopes ⟨frame :: older⟩)[number]? =
      if number = older.length then some frame.scope else (Forest.scopes ⟨older⟩)[number]? := by
  have size : (Forest.scopes ⟨older⟩).length = older.length := by simp [scopes]
  have split : Forest.scopes ⟨frame :: older⟩ = Forest.scopes ⟨older⟩ ++ [frame.scope] := by
    simp [scopes]
  rw [split]
  rcases Nat.lt_trichotomy number older.length with below | same | above
  · rw [List.getElem?_append_left (size ▸ below), if_neg (Nat.ne_of_lt below)]
  · rw [same, if_pos rfl, ← size, List.getElem?_concat_length]
  · rw [if_neg (Nat.ne_of_gt above), List.getElem?_eq_none (by simp [size]; omega),
      List.getElem?_eq_none (by omega)]

theorem has_cons (frame : Frame) (older : List Frame) (number : Nat) (name : String) :
    Forest.has ⟨frame :: older⟩ number name =
      if number = older.length then frame.scope.has name else Forest.has ⟨older⟩ number name := by
  rw [has, scopes_cons]
  split
  · rfl
  · rfl

/-- Names added to the newest scope, where the others keep theirs. -/
theorem has_newest {scope changed : Scope} {parent : Option Nat} {older later : List Frame}
    {added : List String} (size : later.length = older.length)
    (kept : ∀ other name, Forest.has ⟨later⟩ other name ↔ Forest.has ⟨older⟩ other name)
    (members : ∀ name, changed.has name ↔ scope.has name ∨ name ∈ added) (other : Nat)
    (name : String) :
    Forest.has ⟨⟨changed, parent⟩ :: later⟩ other name ↔
      Forest.has ⟨⟨scope, parent⟩ :: older⟩ other name ∨ other = older.length ∧ name ∈ added := by
  rw [has_cons, has_cons, size]
  split
  · rename_i here
    simp [members, here]
  · rename_i elsewhere
    simp [kept, elsewhere]

theorem parents_putIn (frames : List Frame) (number : Nat) (environment : Environment) :
    (putIn frames number environment).map (·.parent) = frames.map (·.parent) := by
  induction frames generalizing number environment with
  | nil => rfl
  | cons frame older ih =>
      rw [putIn]
      split
      · cases within : frame.parent with
        | none => rw [Option.elim_none, List.map_cons, List.map_cons, within]
        | some parent => rw [Option.elim_some, List.map_cons, List.map_cons, ih, within]
      · rw [List.map_cons, ih, List.map_cons]

theorem length_putIn (frames : List Frame) (number : Nat) (environment : Environment) :
    (putIn frames number environment).length = frames.length := by
  simpa using congrArg List.length (parents_putIn frames number environment)

/-- Nothing is put back where there is no scope. -/
theorem putIn_of_none (missing : environmentIn? frames number = none)
    (environment : Environment) : putIn frames number environment = frames := by
  induction frames with
  | nil => rfl
  | cons frame older ih =>
      rw [environmentIn?] at missing
      rw [putIn]
      split at missing
      · cases missing
      · rename_i different
        rw [if_neg different, ih missing]

theorem putIn_alone {parent : Option Nat} (chain : parent.bind (environmentIn? older) = none)
    (scope : Scope) (changed : Environment) :
    putIn (⟨scope, parent⟩ :: older) older.length changed =
      ⟨changed.innermost, parent⟩ :: older := by
  rw [putIn, if_pos rfl]
  cases parent with
  | none => rfl
  | some parent => rw [Option.elim_some, putIn_of_none chain]

theorem putIn_inside (scope : Scope) (parent : Nat) (older : List Frame) (changed : Environment) :
    putIn (⟨scope, some parent⟩ :: older) older.length changed =
      ⟨changed.innermost, some parent⟩ :: putIn older parent changed.leave := by
  rw [putIn, if_pos rfl, Option.elim_some]

/-- An environment with the same scopes open is put back as it is, and adds the names that it has
more in its innermost scope. -/
theorem Begins.put {changed : Environment} {later added : List String}
    (begins : Begins frames number environment)
    (declares : changed.Declares (later :: environment.names.tail))
    (members : ∀ name, name ∈ later ↔ environment.innermost.has name ∨ name ∈ added) :
    Begins (putIn frames number changed) number changed ∧
      ∀ other name, Forest.has ⟨putIn frames number changed⟩ other name ↔
        Forest.has ⟨frames⟩ other name ∨ other = number ∧ name ∈ added := by
  induction begins generalizing changed later added with
  | @alone scope parent older chain =>
      rw [putIn_alone chain]
      cases declares with
      | inner same outside => exact absurd rfl outside.ne_nil
      | global same =>
          have names := fun name => (same name).symm.trans (members name)
          exact ⟨.alone chain, has_newest rfl (fun _ _ => .rfl) names⟩
  | @inside scope parent older outer begins ih =>
      rw [putIn_inside]
      rw [Environment.names, List.tail_cons, outer.names_eq] at declares
      cases declares with
      | @inner _ _ scope outerChanged same outside =>
          -- Only the innermost scope gains names: those around it are put back with none added.
          have unchanged : ∀ name, name ∈ outer.innermost.names ↔
              outer.innermost.has name ∨ name ∈ ([] : List String) := by
            simp [Scope.mem_names]
          obtain ⟨again, nothing⟩ := ih outside unchanged
          have kept : ∀ other name, Forest.has ⟨putIn older parent outerChanged⟩ other name ↔
              Forest.has ⟨older⟩ other name := by
            simpa using nothing
          have inside : Begins (⟨scope, some parent⟩ :: putIn older parent outerChanged)
              (putIn older parent outerChanged).length (.inner scope outerChanged) :=
            .inside again
          have size := length_putIn older parent outerChanged
          have names := fun name => (same name).symm.trans (members name)
          rw [size] at inside
          exact ⟨inside, has_newest size kept names⟩
  | @older frame older number environment different begins ih =>
      obtain ⟨again, names⟩ := ih declares members
      rw [putIn, if_neg different]
      have still : number ≠ (putIn older number changed).length := by rwa [length_putIn]
      refine ⟨.older still again, fun other name => ?_⟩
      rw [has_cons, has_cons, length_putIn]
      split
      · rename_i here
        have elsewhere : other ≠ number := fun same => different (same.symm.trans here)
        simp [elsewhere]
      · exact names other name

/-- What is there already is put back as it is. -/
theorem Begins.putIn_self (begins : Begins frames number environment) :
    putIn frames number environment = frames := by
  induction begins with
  | alone chain => rw [putIn_alone chain, Environment.innermost]
  | inside begins ih => rw [putIn_inside, Environment.innermost, Environment.leave, ih]
  | older different begins ih => rw [putIn, if_neg different, ih]

theorem holderIn?_lt {name : String} {holder : Nat}
    (held : holderIn? name frames number = some holder) : holder < frames.length := by
  induction frames generalizing number with
  | nil => cases held
  | cons frame older ih =>
      rw [List.length_cons]
      rw [holderIn?] at held
      split at held
      · split at held
        · cases held
          omega
        · obtain ⟨parent, -, held⟩ := Option.bind_eq_some_iff.1 held
          exact Nat.lt_succ_of_lt (ih held)
      · exact Nat.lt_succ_of_lt (ih held)

theorem holderIn?_of_none (missing : environmentIn? frames number = none) (name : String) :
    holderIn? name frames number = none := by
  induction frames with
  | nil => rfl
  | cons frame older ih =>
      rw [environmentIn?] at missing
      rw [holderIn?]
      split at missing
      · cases missing
      · rename_i different
        rw [if_neg different, ih missing]

/-- A name is held by a scope that was there when its own was created. -/
theorem get?_older (frame : Frame) (older : List Frame) (number : Nat) (name : String) :
    ((holderIn? name older number).bind fun holder =>
        (Forest.scopes ⟨frame :: older⟩)[holder]?.bind (·.get? name)) =
      Forest.get? ⟨older⟩ number name := by
  rw [Forest.get?, holder?]
  cases held : holderIn? name older number with
  | none => rfl
  | some holder =>
      rw [Option.bind_some, scopes_cons, if_neg (Nat.ne_of_lt (holderIn?_lt held))]
      rfl

theorem get?_cons (frame : Frame) (older : List Frame) (number : Nat) (name : String) :
    Forest.get? ⟨frame :: older⟩ number name =
      if number = older.length then
        (frame.scope.get? name).or (frame.parent.bind (Forest.get? ⟨older⟩ · name))
      else Forest.get? ⟨older⟩ number name := by
  change (holderIn? name (frame :: older) number).bind _ = _
  rw [holderIn?]
  split
  · rename_i same
    split
    · rename_i has
      obtain ⟨value, got⟩ := Scope.get?_of_has has
      rw [Option.bind_some, scopes_cons, if_pos same]
      change frame.scope.get? name = _
      rw [got, Option.some_or]
    · rename_i without
      rw [Scope.get?_of_not_has without, Option.none_or, Option.bind_assoc]
      congr 1
      funext parent
      exact get?_older frame older parent name
  · exact get?_older frame older number name

theorem get?_of_none (missing : environmentIn? frames number = none) (name : String) :
    Forest.get? ⟨frames⟩ number name = none := by
  rw [Forest.get?, holder?, holderIn?_of_none missing]
  rfl

theorem Begins.get? (begins : Begins frames number environment) (name : String) :
    Forest.get? ⟨frames⟩ number name = environment.get? name := by
  induction begins with
  | @alone scope parent older chain =>
      rw [get?_cons, if_pos rfl, Environment.get?]
      cases parent with
      | none => rw [Option.bind_none, Option.or_none]
      | some parent => rw [Option.bind_some, get?_of_none chain, Option.or_none]
  | inside begins ih => rw [get?_cons, if_pos rfl, Option.bind_some, ih, Environment.get?]
  | older different begins ih => rw [get?_cons, if_neg different, ih]

theorem Begins.define (begins : Begins frames number environment) (name : String) (value : Value) :
    modify (·.set name value) frames number =
      putIn frames number (environment.define name value) := by
  induction begins with
  | alone chain =>
      rw [modify, if_pos rfl, Environment.define, putIn_alone chain, Environment.innermost]
  | inside begins ih =>
      rw [modify, if_pos rfl, Environment.define, putIn_inside, Environment.innermost,
        Environment.leave, begins.putIn_self]
  | older different begins ih => rw [modify, if_neg different, putIn, if_neg different, ih]

theorem assign?_older (frame : Frame) (older : List Frame) (number : Nat) (name : String)
    (value : Value) :
    (holderIn? name older number).map (Forest.define ⟨frame :: older⟩ · name value) =
      (Forest.assign? ⟨older⟩ number name value).map (⟨frame :: ·.frames⟩) := by
  rw [Forest.assign?, holder?]
  cases held : holderIn? name older number with
  | none => rfl
  | some holder =>
      rw [Option.map_some, Option.map_some, Option.map_some, Forest.define, modify,
        if_neg (Nat.ne_of_lt (holderIn?_lt held))]
      rfl

theorem assign?_cons (frame : Frame) (older : List Frame) (number : Nat) (name : String)
    (value : Value) :
    Forest.assign? ⟨frame :: older⟩ number name value =
      if number = older.length then
        if frame.scope.has name then
          some ⟨{ frame with scope := frame.scope.set name value } :: older⟩
        else (frame.parent.bind (Forest.assign? ⟨older⟩ · name value)).map (⟨frame :: ·.frames⟩)
      else (Forest.assign? ⟨older⟩ number name value).map (⟨frame :: ·.frames⟩) := by
  change (holderIn? name (frame :: older) number).map _ = _
  rw [holderIn?]
  split
  · rename_i same
    split
    · rw [Option.map_some, Forest.define, modify, if_pos same]
    · rw [Option.map_bind, Option.map_bind]
      congr 1
      funext parent
      exact assign?_older frame older parent name value
  · exact assign?_older frame older number name value

theorem Begins.assign? (begins : Begins frames number environment) (name : String)
    (value : Value) :
    Forest.assign? ⟨frames⟩ number name value =
      (environment.assign? name value).map fun changed => ⟨putIn frames number changed⟩ := by
  induction begins with
  | @alone scope parent older chain =>
      rw [assign?_cons, if_pos rfl, Environment.assign?]
      split
      · rw [Option.map_some, putIn_alone chain, Environment.innermost]
      · cases parent with
        | none => rfl
        | some parent =>
            rw [Option.bind_some, Forest.assign?, holder?, holderIn?_of_none chain]
            rfl
  | @inside scope parent older outer begins ih =>
      rw [assign?_cons, if_pos rfl, Environment.assign?]
      split
      · rw [Option.map_some, putIn_inside, Environment.innermost, Environment.leave,
          begins.putIn_self]
      · rw [Option.bind_some, ih, Option.map_map, Option.map_map]
        congr 1
        funext changed
        exact congrArg Forest.mk (putIn_inside scope parent older (.inner scope changed)).symm
  | @older frame older number environment different begins ih =>
      rw [assign?_cons, if_neg different, ih, Option.map_map]
      congr 1
      funext changed
      rw [putIn, if_neg different]
      rfl

end Frames

section Whole

variable {forest : Forest} {number : Nat} {environment : Environment}

/-- A name is read through a scope as in its environment. -/
theorem get?_eq (found : forest.environment? number = some environment) (name : String) :
    forest.get? number name = environment.get? name :=
  (begins_of_found found).get? name

/-- What is declared through a scope is declared in its environment. -/
theorem define_eq (found : forest.environment? number = some environment) (name : String)
    (value : Value) :
    forest.define number name value = forest.put number (environment.define name value) :=
  congrArg Forest.mk ((begins_of_found found).define name value)

/-- What is assigned through a scope is assigned in its environment. -/
theorem assign?_eq (found : forest.environment? number = some environment) (name : String)
    (value : Value) :
    forest.assign? number name value = (environment.assign? name value).map (forest.put number) :=
  (begins_of_found found).assign? name value

/-- An environment with the same scopes open can be put back. Its innermost scope has then the names
that it has more, and no other scope has other names. -/
theorem put_spec {changed : Environment} {later added : List String}
    (found : forest.environment? number = some environment)
    (declares : changed.Declares (later :: environment.names.tail))
    (members : ∀ name, name ∈ later ↔ environment.innermost.has name ∨ name ∈ added) :
    (forest.put number changed).environment? number = some changed ∧
      ∀ other name, (forest.put number changed).has other name ↔
        forest.has other name ∨ other = number ∧ name ∈ added := by
  obtain ⟨begins, names⟩ := (begins_of_found found).put declares members
  exact ⟨begins.found, names⟩

end Whole

end Forest

end Lox
