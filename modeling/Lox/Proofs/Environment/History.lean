import Mathlib.Data.List.Find
import Lox.Proofs.Environment.Chain

/-!
What has been asked of scopes decides all that they hold. A name that is read means its variable in
the nearest scope that has one, and has the value that was written to that variable last, through
whichever scope: `Forest.performAll_lastWrite`.
-/

set_option autoImplicit false

namespace Lox

namespace Forest

/-- A value given to a variable of a scope. -/
structure Write where
  scope : Nat
  name : String
  value : Value

/-- What was done to scopes, the latest first: for each one, the scope that it was created in, and
the values given to variables. -/
structure History where
  parents : List (Option Nat)
  writes : List Write

/-- A scope and those that it is inside, from the inside outwards. -/
def chainIn : List (Option Nat) → Nat → List Nat
  | [], _ => []
  | parent :: older, number =>
    if number = older.length then number :: parent.elim [] (chainIn older)
    else chainIn older number

theorem mem_chainIn_lt {parents : List (Option Nat)} {number scope : Nat}
    (member : scope ∈ chainIn parents number) : scope < parents.length := by
  induction parents generalizing number with
  | nil => cases member
  | cons parent older ih =>
      rw [List.length_cons]
      rw [chainIn] at member
      split at member
      · rename_i newest
        rcases List.mem_cons.1 member with rfl | further
        · omega
        · cases parent with
          | none => cases further
          | some parent => exact Nat.lt_succ_of_lt (ih further)
      · exact Nat.lt_succ_of_lt (ih member)

namespace History

def start : History :=
  ⟨[], []⟩

def chain (history : History) (number : Nat) : List Nat :=
  chainIn history.parents number

/-- The value written last to a variable of a scope, if there is such a variable. -/
def lastWritten? (history : History) (scope : Nat) (name : String) : Option Value :=
  (history.writes.find? fun write => write.scope = scope ∧ write.name = name).map (·.value)

/-- The nearest scope with a variable of a name, from a scope outwards. -/
def nearest? (history : History) (number : Nat) (name : String) : Option Nat :=
  (history.chain number).find? fun scope => (history.lastWritten? scope name).isSome

def write (history : History) (scope : Nat) (name : String) (value : Value) : History :=
  { history with writes := ⟨scope, name, value⟩ :: history.writes }

/-- What was done when a request has been carried out. -/
def after (history : History) : Request → History
  | .new parent => { history with parents := parent :: history.parents }
  | .define number name value => history.write number name value
  | .get _ _ => history
  | .assign number name value =>
    (history.nearest? number name.lexeme).elim history fun scope =>
      history.write scope name.lexeme value

def afterAll (history : History) (requests : List Request) : History :=
  requests.foldl after history

/-- A scope has been created. -/
def IsMade (history : History) (number : Nat) : Prop :=
  number < history.parents.length

/-- The scopes that a request is about have been created. -/
def Allows (history : History) : Request → Prop
  | .new parent => ∀ number ∈ parent, history.IsMade number
  | .define number _ _ | .get number _ | .assign number _ _ => history.IsMade number

/-- Requests that are each about scopes that have been created by then. -/
def AllowsAll (history : History) : List Request → Prop
  | [] => True
  | request :: rest => history.Allows request ∧ (history.after request).AllowsAll rest

instance (history : History) (number : Nat) : Decidable (history.IsMade number) :=
  inferInstanceAs (Decidable (number < _))

instance (history : History) : (request : Request) → Decidable (history.Allows request)
  | .new parent => inferInstanceAs (Decidable (∀ number ∈ parent, history.IsMade number))
  | .define number _ _ | .get number _ | .assign number _ _ =>
    inferInstanceAs (Decidable (history.IsMade number))

instance decidableAllowsAll (history : History) :
    (requests : List Request) → Decidable (history.AllowsAll requests)
  | [] => inferInstanceAs (Decidable True)
  | request :: rest =>
    have := decidableAllowsAll (history.after request) rest
    inferInstanceAs (Decidable (history.Allows request ∧ (history.after request).AllowsAll rest))

theorem lastWritten?_write (history : History) (scope : Nat) (name : String) (value : Value)
    (other : Nat) (otherName : String) :
    (history.write scope name value).lastWritten? other otherName =
      if other = scope ∧ otherName = name then some value
      else history.lastWritten? other otherName := by
  unfold lastWritten? write
  by_cases same : other = scope ∧ otherName = name
  · obtain ⟨rfl, rfl⟩ := same
    simp
  · have different : ¬(scope = other ∧ name = otherName) := by
      rintro ⟨rfl, rfl⟩
      exact same ⟨rfl, rfl⟩
    simp [same, different]

theorem isMade_of_nearest {history : History} {number scope : Nat} {name : String}
    (nearest : history.nearest? number name = some scope) : history.IsMade scope :=
  mem_chainIn_lt (List.mem_of_find?_eq_some nearest)

theorem nearest?_eq_none_iff (history : History) (number : Nat) (name : String) :
    history.nearest? number name = none ↔
      ∀ scope ∈ history.chain number, history.lastWritten? scope name = none := by
  simp [nearest?, List.find?_eq_none]

end History

/-- The value of the variable that a scope itself has of a name, if it has one. -/
def valueIn? (forest : Forest) (number : Nat) (name : String) : Option Value :=
  forest.scopes[number]?.bind (·.get? name)

section Frames

variable (frame : Frame) (older frames : List Frame) (number : Nat) (name : String)

theorem valueIn?_cons :
    valueIn? ⟨frame :: older⟩ number name =
      if number = older.length then frame.scope.get? name else valueIn? ⟨older⟩ number name := by
  rw [valueIn?, scopes_cons]
  split
  · rfl
  · rfl

theorem valueIn?_of_length_le {frames : List Frame} {number : Nat}
    (beyond : frames.length ≤ number) : valueIn? ⟨frames⟩ number name = none := by
  have outside : (Forest.scopes ⟨frames⟩).length ≤ number := by simpa [scopes] using beyond
  rw [valueIn?, List.getElem?_eq_none outside]
  rfl

/-- A name is held by the first scope of the chain that has it. -/
theorem holderIn?_eq_find? :
    holderIn? name frames number =
      (chainIn (frames.map (·.parent)) number).find? fun scope =>
        (valueIn? ⟨frames⟩ scope name).isSome := by
  induction frames generalizing number with
  | nil => rfl
  | cons frame older ih =>
      -- The scopes of an older chain are not the newest one, so they have the variables they had.
      have further (number : Nat) :
          (chainIn (older.map (·.parent)) number).find? (fun scope =>
            (valueIn? ⟨frame :: older⟩ scope name).isSome) = holderIn? name older number := by
        rw [ih]
        apply List.find?_congr
        intro scope member
        have below := mem_chainIn_lt member
        rw [List.length_map] at below
        rw [valueIn?_cons, if_neg (Nat.ne_of_lt below)]
      rw [holderIn?, List.map_cons, chainIn, List.length_map]
      split
      · rename_i newest
        rw [List.find?_cons, valueIn?_cons, if_pos newest]
        change (if (frame.scope.get? name).isSome = true then _ else _) = _
        cases (frame.scope.get? name).isSome with
        | true => rfl
        | false =>
            cases frame.parent with
            | none => rfl
            | some parent => exact (further parent).symm
      · exact (further number).symm

theorem parents_modify (change : Scope → Scope) :
    (modify change frames number).map (·.parent) = frames.map (·.parent) := by
  induction frames with
  | nil => rfl
  | cons frame older ih =>
      rw [modify]
      split
      · rfl
      · rw [List.map_cons, ih, List.map_cons]

theorem valueIn?_modify {frames : List Frame} {number : Nat} (made : number < frames.length)
    (name : String) (value : Value) (other : Nat) (otherName : String) :
    valueIn? ⟨modify (·.set name value) frames number⟩ other otherName =
      if other = number ∧ otherName = name then some value
      else valueIn? ⟨frames⟩ other otherName := by
  induction frames with
  | nil => exact absurd made (Nat.not_lt_zero number)
  | cons frame older ih =>
      rw [List.length_cons] at made
      rw [modify]
      split
      · rename_i newest
        rw [valueIn?_cons, valueIn?_cons, newest]
        by_cases here : other = older.length
        · simp [here, Scope.get?_set]
        · simp [here]
      · rename_i different
        have size : (modify (·.set name value) older number).length = older.length := by
          simpa using congrArg List.length (parents_modify older number (·.set name value))
        rw [valueIn?_cons, valueIn?_cons, size, ih (by omega)]
        by_cases here : other = older.length
        · simp [here, Ne.symm different]
        · simp [here]

end Frames

/-- One variable has a value after, whether there was such a variable before or not, and all else is
as it was. -/
structure Sets (before after : Forest) (scope : Nat) (name : String) (value : Value) : Prop where
  parents : after.parents = before.parents
  written : after.valueIn? scope name = some value
  others : ∀ other otherName, ¬(other = scope ∧ otherName = name) →
    after.valueIn? other otherName = before.valueIn? other otherName

/-- The scopes are as what was done to them leaves them. -/
structure Records (forest : Forest) (history : History) : Prop where
  parents : forest.parents = history.parents
  values : ∀ scope name, forest.valueIn? scope name = history.lastWritten? scope name

section

variable {forest : Forest} {history : History} (records : forest.Records history)

include records

theorem Records.sets_define {number : Nat} (isMade : history.IsMade number) (name : String)
    (value : Value) : forest.Sets (forest.define number name value) number name value := by
  have inside : number < forest.frames.length := by
    rwa [History.IsMade, ← records.parents, Forest.parents, List.length_map] at isMade
  constructor
  case parents => exact parents_modify _ _ _
  case written =>
      exact (valueIn?_modify inside name value number name).trans (if_pos ⟨rfl, rfl⟩)
  case others =>
      intro other otherName different
      exact (valueIn?_modify inside name value other otherName).trans (if_neg different)

theorem Records.holder? (number : Nat) (name : String) :
    forest.holder? number name = history.nearest? number name := by
  have values : (fun scope => (forest.valueIn? scope name).isSome) =
      fun scope => (history.lastWritten? scope name).isSome := by
    funext scope
    rw [records.values]
  rw [Forest.holder?, holderIn?_eq_find?, History.nearest?, History.chain, ← values,
    ← records.parents]
  rfl

theorem Records.get? (number : Nat) (name : String) :
    forest.get? number name =
      (history.nearest? number name).bind (history.lastWritten? · name) := by
  have values : (forest.valueIn? · name) = (history.lastWritten? · name) := by
    funext scope
    rw [records.values]
  rw [← records.holder?, ← values]
  rfl

theorem Records.assign? (number : Nat) (name : String) (value : Value) :
    forest.assign? number name value =
      (history.nearest? number name).map (forest.define · name value) := by
  rw [← records.holder?]
  rfl

theorem Records.write {after : Forest} {scope : Nat} {name : String} {value : Value}
    (sets : forest.Sets after scope name value) :
    after.Records (history.write scope name value) where
  parents := sets.parents.trans records.parents
  values := by
    intro other otherName
    rw [History.lastWritten?_write]
    split
    · rename_i same
      obtain ⟨rfl, rfl⟩ := same
      exact sets.written
    · rename_i different
      rw [sets.others other otherName different, records.values]

theorem Records.new (parent : Option Nat) :
    (forest.new parent).Records { history with parents := parent :: history.parents } where
  parents := congrArg (parent :: ·) records.parents
  values := by
    intro scope name
    change valueIn? ⟨⟨.empty, parent⟩ :: forest.frames⟩ scope name = _
    rw [valueIn?_cons]
    split
    · rename_i newest
      -- Nothing was written to a scope before it was created.
      have unwritten : history.lastWritten? scope name = none := by
        rw [← records.values]
        exact valueIn?_of_length_le name (Nat.le_of_eq newest.symm)
      exact unwritten.symm
    · exact records.values scope name

/-- A name that no scope has is an error, and nothing is changed. -/
theorem Records.perform_undefined {number : Nat} {name : Token}
    (nowhere : history.nearest? number name.lexeme = none) :
    forest.perform (.get number name) = (forest, .error (.undefinedVariable name)) ∧
      ∀ value, forest.perform (.assign number name value) =
        (forest, .error (.undefinedVariable name)) := by
  constructor
  · rw [perform, records.get?, nowhere]
    rfl
  · intro value
    rw [perform, records.assign?, nowhere]
    rfl

/-- A name is read and assigned in the nearest scope that has it. -/
theorem Records.perform_found {number scope : Nat} {name : Token}
    (nearest : history.nearest? number name.lexeme = some scope) :
    (∃ value, history.lastWritten? scope name.lexeme = some value ∧
      forest.perform (.get number name) = (forest, .ok (some value))) ∧
      ∀ value, forest.perform (.assign number name value) =
        (forest.define scope name.lexeme value, .ok none) := by
  constructor
  · have has : (history.lastWritten? scope name.lexeme).isSome := by
      simpa using List.find?_some nearest
    obtain ⟨value, written⟩ := Option.isSome_iff_exists.1 has
    refine ⟨value, written, ?_⟩
    rw [perform, records.get?, nearest, Option.bind_some, written]
  · intro value
    rw [perform, records.assign?, nearest]
    rfl

/-- One request. -/
theorem Records.perform {request : Request} (allowed : history.Allows request) :
    (forest.perform request).1.Records (history.after request) := by
  cases request with
  | new parent => exact records.new parent
  | define number name value =>
      exact records.write (records.sets_define allowed name value)
  | get number name =>
      rw [Forest.perform]
      cases forest.get? number name.lexeme with
      | none => exact records
      | some value => exact records
  | assign number name value =>
      rw [History.after]
      cases nearest : history.nearest? number name.lexeme with
      | none =>
          rw [(records.perform_undefined nearest).2]
          exact records
      | some scope =>
          have made : history.IsMade scope := History.isMade_of_nearest nearest
          rw [(records.perform_found nearest).2]
          exact records.write (records.sets_define made name.lexeme value)

end

theorem Records.performAll {forest : Forest} {history : History}
    (records : forest.Records history) {requests : List Request}
    (allowed : history.AllowsAll requests) :
    (forest.performAll requests).Records (history.afterAll requests) := by
  induction requests generalizing forest history with
  | nil => exact records
  | cons request rest ih => exact ih (records.perform allowed.1) allowed.2

theorem records_start : empty.Records .start :=
  ⟨rfl, fun _ _ => rfl⟩

/-- After any requests, each about scopes that are there by then, a scope has a variable of a name
if one was written to it, with the value that was written to it last. A declaration writes to its
own scope, and nothing else is changed by it. A name means the variable in the nearest scope that
has one, which is read and written; reading changes nothing, and an assignment nothing else. Both
are errors just if there is no such scope, and then nothing is changed either. -/
theorem performAll_lastWrite {requests : List Request}
    (allowed : History.start.AllowsAll requests) :
    let forest := empty.performAll requests
    let history := History.start.afterAll requests
    (∀ scope name, forest.valueIn? scope name = history.lastWritten? scope name) ∧
      ∀ number, history.IsMade number →
        (∀ name value, ∃ after, forest.perform (.define number name value) = (after, .ok none) ∧
          forest.Sets after number name value) ∧
        ∀ name : Token,
          let fails (request : Request) : Prop :=
            forest.perform request = (forest, .error (.undefinedVariable name))
          let nowhere : Prop :=
            ∀ scope ∈ history.chain number, history.lastWritten? scope name.lexeme = none
          (fails (.get number name) ↔ nowhere) ∧
          (∀ value, fails (.assign number name value) ↔ nowhere) ∧
          (¬nowhere → ∃ scope written, history.nearest? number name.lexeme = some scope ∧
            history.lastWritten? scope name.lexeme = some written ∧
            forest.perform (.get number name) = (forest, .ok (some written)) ∧
            ∀ value, ∃ after, forest.perform (.assign number name value) = (after, .ok none) ∧
              forest.Sets after scope name.lexeme value) := by
  intro forest history
  have records : forest.Records history := records_start.performAll allowed
  refine ⟨records.values, ?_⟩
  intro number isMade
  constructor
  · intro name value
    exact ⟨_, rfl, records.sets_define isMade name value⟩
  · intro name fails nowhere
    have isNowhere : history.nearest? number name.lexeme = none ↔ nowhere :=
      history.nearest?_eq_none_iff number name.lexeme
    cases nearest : history.nearest? number name.lexeme with
    | none =>
        obtain ⟨reads, assigns⟩ := records.perform_undefined nearest
        have missing : nowhere := isNowhere.1 nearest
        exact ⟨iff_of_true reads missing, fun value => iff_of_true (assigns value) missing,
          fun somewhere => absurd missing somewhere⟩
    | some scope =>
        obtain ⟨⟨written, last, reads⟩, assigns⟩ := records.perform_found nearest
        have found : ¬nowhere := fun missing => by simp [isNowhere.2 missing] at nearest
        have made : history.IsMade scope := History.isMade_of_nearest nearest
        refine ⟨iff_of_false ?_ found, fun value => iff_of_false ?_ found, fun _ => ?_⟩
        · intro failed
          cases congrArg Prod.snd (reads.symm.trans failed)
        · intro failed
          cases congrArg Prod.snd ((assigns value).symm.trans failed)
        · exact ⟨scope, written, rfl, last, reads, fun value =>
            ⟨_, assigns value, records.sets_define made name.lexeme value⟩⟩

/-- In scope 0 are the scopes 1 and 2. A nil assigned through 1 is read through both, until 2
declares the name for itself; what is assigned through 2 is then not seen in 0. -/
theorem performAll_lastWrite_siblings :
    let name : Token := ⟨.identifier, "a", .nil, 1⟩
    let shared : List Request :=
      [.new none, .define 0 "a" (.boolean true), .new (some 0), .new (some 0), .assign 1 name .nil]
    let hidden := shared ++ [.define 2 "a" (.boolean false)]
    let before := empty.performAll shared
    let forest := empty.performAll hidden
    History.start.AllowsAll hidden ∧
      before.perform (.get 2 name) = (before, .ok (some .nil)) ∧
      forest.perform (.get 1 name) = (forest, .ok (some .nil)) ∧
      ∃ after, forest.perform (.assign 2 name (.text "b")) = (after, .ok none) ∧
        after.valueIn? 2 "a" = some (.text "b") ∧ after.valueIn? 0 "a" = some .nil := by
  intro name shared hidden before forest
  have allowedBefore : History.start.AllowsAll shared := by decide +kernel
  have allowed : History.start.AllowsAll hidden := by decide +kernel
  obtain ⟨-, atBefore⟩ := performAll_lastWrite allowedBefore
  obtain ⟨-, atForest⟩ := performAll_lastWrite allowed
  obtain ⟨-, -, seen⟩ := (atBefore 2 (by decide +kernel)).2 name
  obtain ⟨-, -, shown⟩ := (atForest 1 (by decide +kernel)).2 name
  obtain ⟨-, -, own⟩ := (atForest 2 (by decide +kernel)).2 name
  obtain ⟨_, _, ⟨⟩, ⟨⟩, readsBefore, -⟩ := seen (by decide +kernel)
  obtain ⟨_, _, ⟨⟩, ⟨⟩, reads, -⟩ := shown (by decide +kernel)
  obtain ⟨_, _, ⟨⟩, -, -, assigns⟩ := own (by decide +kernel)
  obtain ⟨after, assigned, sets⟩ := assigns (.text "b")
  refine ⟨allowed, readsBefore, reads, after, assigned, sets.written, ?_⟩
  rw [sets.others 0 "a" (by decide)]
  rfl

end Forest

end Lox
