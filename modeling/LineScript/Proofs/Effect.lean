/-
This file says once what running a statement can do to an environment. A statement has targets: the
variable it sets, the record it declares, the entity it makes, and those of the statements inside
it. Whatever runs, in whatever order and however often, an environment is only ever changed at one
of these. So a relation between environments that goes through sequences and allows a change at
each target relates the environment before a run to the one after it.
-/

import LineScript.Proofs.Store

namespace LineScript

/-! ### Changes at a target -/

/-- One environment comes from another by a change at a target. -/
def Target.Changes : Target → Environment → Environment → Prop
  | .value name, before, after => ∃ value, after = before.define name value
  | .record name, before, after => ∃ fields, after = before.defineRecord name fields
  | .entity name, before, after => after = before.defineEntity name

theorem Change.changes_target (change : Change) (environment : Environment) :
    change.target.Changes environment (change.apply environment) := by
  cases change with
  | value name given => exact ⟨given, rfl⟩
  | record name fields => exact ⟨fields, rfl⟩
  | entity name => exact rfl

theorem Header.value_not_mem_targets (header : Header) (name : String) :
    .value name ∉ header.targets := by
  cases header <;> simp [Header.targets]

/-! ### Relations that allow a change at every target -/

/-- A relation between environments that allows changes at targets: it goes through sequences, and
it relates an environment to every one that comes from it by a change at one of them. -/
structure Allows (relation : Environment → Environment → Prop) (targets : List Target) : Prop
    extends Sequential relation where
  changes : ∀ target ∈ targets, ∀ before after, target.Changes before after →
    relation before after

section Running

variable {relation : Environment → Environment → Prop} {targets : List Target} {sink : Sink}

/-- Keeping a relation passes from parts to the whole, where all changes are at the targets. -/
theorem Allows.compositional (allows : Allows relation targets) :
    Compositional .environments .environments sink sink (fun _ => True)
      (fun change => change.target ∈ targets) fun _ action _ => Keeps relation action where
  pure value := Keeps.pure allows.toSequential value
  throw error := Keeps.throw allows.toSequential error
  bind first rest := Keeps.bind allows.toSequential first rest
  note notice := Keeps.note allows.toSequential notice
  evaluateAt line expr _ := Keeps.evaluateAt allows.toSequential _ line expr
  writeLine text := Keeps.writeLine allows.toSequential sink text
  pauseBetween := Keeps.bind allows.toSequential (Keeps.flushSink allows.toSequential sink)
    fun _ => Keeps.emit allows.toSequential _
  changeNames change member := Keeps.changeNames fun environment =>
    allows.changes change.target member environment _ (change.changes_target environment)

/-- Running a statement keeps every relation that allows changes at its targets. -/
theorem Stmt.run_keeps (stmt : Stmt) (allows : Allows relation stmt.targets) :
    Keeps relation (stmt.run sink) := by
  rw [← run_environments]
  exact allows.compositional.run stmt (fun _ _ => trivial) fun _ member => member

end Running

end LineScript
