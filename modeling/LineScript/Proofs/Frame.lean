/-
This file says what a run leaves alone. An environment can only be changed at the targets of the
statements that run, so every variable, data record and entity that no statement of a program names
as its target is after the run what it was before. Nothing is ever taken away either: whatever had
a value still has one. And since an entity is only ever given an empty record, entities that start
out empty stay empty.

None of this depends on how the run ends. It holds after a failure in the middle of a loop, between
two frames or while a record is read, and whatever the sink refuses.
-/

import LineScript.Proofs.Coincidence
import LineScript.Proofs.Effect

namespace LineScript

/-! ### What a change leaves alone -/

/-- A target has a value in an environment. -/
def Target.IsBound : Target → Environment → Prop
  | .value name, environment => (environment.values.get? name).isSome
  | .record name, environment => (environment.records.get? name).isSome
  | .entity name, environment => (environment.entities.get? name).isSome

/-- All entities of an environment have an empty record. -/
def Environment.EntitiesEmpty (environment : Environment) : Prop :=
  ∀ name record, environment.entities.get? name = some record → record = .empty

theorem Target.Agree.isBound {target : Target} {first second : Environment}
    (agree : target.Agree first second) (bound : target.IsBound first) : target.IsBound second := by
  cases target <;> exact (congrArg Option.isSome agree).symm.trans bound

theorem Target.Agree.trans {target : Target} {first second third : Environment}
    (early : target.Agree first second) (late : target.Agree second third) :
    target.Agree first third := by
  cases target <;> exact Eq.trans early late

/-- A change leaves every other target as it is. -/
theorem Change.agree_of_ne {change : Change} {target : Target} (other : target ≠ change.target)
    (environment : Environment) : target.Agree environment (change.apply environment) := by
  have kept {α : Type} (table : Table α) {key name : String} (different : name ≠ key) (given : α) :
      table.get? name = (table.insert key given).get? name :=
    (table.get?_insert_of_ne different given).symm
  cases change with
  | value key given =>
    cases target with
    | value name => exact kept _ (fun same => other (congrArg Target.value same)) _
    | record name => rfl
    | entity name => rfl
  | record key fields =>
    cases target with
    | value name => rfl
    | record name => exact kept _ (fun same => other (congrArg Target.record same)) _
    | entity name => rfl
  | entity key =>
    cases target with
    | value name => rfl
    | record name => rfl
    | entity name => exact kept _ (fun same => other (congrArg Target.entity same)) _

theorem Change.isBound_target (change : Change) (environment : Environment) :
    change.target.IsBound (change.apply environment) := by
  cases change with
  | value key given => exact Option.isSome_of_eq_some (Table.get?_insert_self _ _ _)
  | record key fields => exact Option.isSome_of_eq_some (Table.get?_insert_self _ _ _)
  | entity key => exact Option.isSome_of_eq_some (Table.get?_insert_self _ _ _)

theorem Environment.EntitiesEmpty.apply {environment : Environment}
    (empty : environment.EntitiesEmpty) (change : Change) :
    (change.apply environment).EntitiesEmpty := by
  cases change with
  | value key given => exact empty
  | record key fields => exact empty
  | entity key =>
    intro name record found
    change (environment.entities.insert key .empty).get? name = some record at found
    by_cases same : name = key
    · rw [same, Table.get?_insert_self, Option.some.injEq] at found
      exact found.symm
    · rw [Table.get?_insert_of_ne _ same] at found
      exact empty name record found

theorem Target.Changes.exists_change {target : Target} {before after : Environment}
    (changed : target.Changes before after) :
    ∃ change : Change, change.target = target ∧ after = change.apply before := by
  cases target with
  | value name =>
    obtain ⟨given, same⟩ := changed
    exact ⟨.value name given, rfl, same⟩
  | record name =>
    obtain ⟨fields, same⟩ := changed
    exact ⟨.record name fields, rfl, same⟩
  | entity name => exact ⟨.entity name, rfl, changed⟩

/-! ### What a run leaves alone -/

/-- One environment comes from another by changes at some targets alone: all others agree, nothing
loses its value, and empty entities stay empty. -/
structure Framed (targets : List Target) (before after : Environment) : Prop where
  agree : ∀ target, target ∉ targets → target.Agree before after
  bound : ∀ target : Target, target.IsBound before → target.IsBound after
  entities : before.EntitiesEmpty → after.EntitiesEmpty

theorem Framed.refl (targets : List Target) (environment : Environment) :
    Framed targets environment environment where
  agree target _ := by cases target <;> rfl
  bound _ isBound := isBound
  entities empty := empty

theorem Framed.trans {targets : List Target} {first second third : Environment}
    (early : Framed targets first second) (late : Framed targets second third) :
    Framed targets first third where
  agree target outside := (early.agree target outside).trans (late.agree target outside)
  bound target isBound := late.bound target (early.bound target isBound)
  entities empty := late.entities (early.entities empty)

/-- One change at one of the targets. -/
theorem Framed.change {targets : List Target} {change : Change} (member : change.target ∈ targets)
    (environment : Environment) : Framed targets environment (change.apply environment) where
  agree target outside := by
    have other : target ≠ change.target := fun same => outside (same ▸ member)
    exact Change.agree_of_ne other environment
  bound target isBound := by
    by_cases same : target = change.target
    · exact same ▸ change.isBound_target environment
    · exact (Change.agree_of_ne same environment).isBound isBound
  entities empty := empty.apply change

theorem framed_allows (targets : List Target) : Allows (Framed targets) targets where
  reflexive := Framed.refl targets
  transitive _ _ _ := Framed.trans
  changes target member before after changed := by
    obtain ⟨change, rfl, rfl⟩ := changed.exists_change
    exact Framed.change member before

/-- Whatever the program, the environment and the sink, and however the run ends: afterwards every
variable, data record and entity that no statement of the program has as its target, at any depth,
is what it was before. All that was bound before is still bound, and if all entities had an empty
record before, they all have one afterwards. -/
theorem runTree_framed (sink : Sink) (program : Program) (environment : Environment)
    (events : List Event) (notices : List Notice) :
    let after := (endState (runTree sink program ⟨environment, events, notices⟩)).names
    (∀ target, target ∉ Stmt.allTargets program → target.Agree environment after) ∧
      (∀ target : Target, target.IsBound environment → target.IsBound after) ∧
      (environment.EntitiesEmpty → after.EntitiesEmpty) := by
  intro after
  have kept : Keeps (Framed (Stmt.allTargets program)) (Stmt.runAll sink program) := by
    rw [← runAll_environments]
    exact (framed_allows _).compositional.runAll program (fun _ _ => trivial) fun _ member => member
  have framed : Framed (Stmt.allTargets program) environment after := by
    have ended :
        after = (endState (Stmt.runAll sink program ⟨environment, events, notices⟩)).names :=
      names_thenFlush sink (Stmt.runAll sink program) ⟨environment, events, notices⟩
    rw [ended]
    exact kept ⟨environment, events, notices⟩
  exact ⟨framed.agree, framed.bound, framed.entities⟩

/-- A program that makes an entity and then fails in the second frame of a tick, while it declares
the record `hall` again. -/
def failingFrames : Program :=
  [.block 1 (.entity "door") [.assign 2 "key" "7"],
    .block 4 .tick
      [.record 5 "hall" (Table.empty.insert "width" "12 // (1 - floor)"),
        .assign 8 "floor" "floor + 1"]]

/-- An environment with a variable, a record and an entity that the program does not name. -/
def furnished : Environment where
  values := .ofList [("floor", .int 0), ("name", .string "keep")]
  records := .ofList [("hall", .empty), ("yard", .ofList [("width", .int 9)])]
  entities := .ofList [("guard", .empty)]

theorem runTree_framed_failingFrames :
    let result := runTree .unlimited failingFrames ⟨furnished, [], []⟩
    endError? result =
        some (.eval ⟨.fault .divisionByZero, "12 // (1 - floor)", some 5⟩) ∧
      (Target.value "name").Agree furnished (endState result).names ∧
      (Target.record "yard").Agree furnished (endState result).names ∧
      (Target.record "hall").IsBound (endState result).names ∧
      furnished.EntitiesEmpty ∧ (endState result).names.EntitiesEmpty := by
  have failed : endError? (runTree .unlimited failingFrames ⟨furnished, [], []⟩) =
      some (.eval ⟨.fault .divisionByZero, "12 // (1 - floor)", some 5⟩) := by decide +kernel
  have nobody : ({ furnished with entities := .empty }).EntitiesEmpty := fun _ _ found => by
    cases found
  have empty : furnished.EntitiesEmpty := nobody.apply (.entity "guard")
  have noName : Target.value "name" ∉ Stmt.allTargets failingFrames := by decide
  have noYard : Target.record "yard" ∉ Stmt.allTargets failingFrames := by decide
  have hall : (Target.record "hall").IsBound furnished := rfl
  obtain ⟨agree, bound, entities⟩ := runTree_framed .unlimited failingFrames furnished [] []
  exact ⟨failed, agree _ noName, agree _ noYard, bound _ hall, empty, entities empty⟩

end LineScript
