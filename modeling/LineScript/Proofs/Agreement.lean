/-
This file proves that the machine and the run statement by statement agree on the statements that
show or set. The chunk of a program holds these and nothing else, so running the chunk is compared
with running the program that is left when all other statements are taken out.

The two runs keep their variables in different places. The machine has a table of variables and
knows no records; the other run has an environment, whose records stay empty as long as no
statement declares one. While that is so, an expression finds the same bindings on both sides. This
is the relation that is carried through the two runs, whatever the sink answers.
-/

import LineScript.Machine.Chunk
import LineScript.Proofs.Action
import LineScript.Run.Tree

namespace LineScript

/-! ### The statements of a chunk -/

/-- Whether a statement shows or sets. -/
def Stmt.isPlain : Stmt → Bool
  | .print _ _ => true
  | .assign _ _ _ => true
  | .record _ _ _ => false
  | .block _ _ _ => false

theorem Stmt.isPlain_eq (stmt : Stmt) : stmt.isPlain = stmt.instruction?.isSome := by
  cases stmt <;> rfl

theorem steps_chunkOf (program : Program) :
    (chunkOf program).steps =
      program.filterMap fun stmt => stmt.instruction?.map fun code => (code, stmt.line) := by
  unfold chunkOf Chunk.steps
  exact (List.zip_of_prod rfl rfl).symm

theorem steps_chunkOf_cons_some {stmt : Stmt} {instruction : Instruction}
    (compiled : stmt.instruction? = some instruction) (rest : Program) :
    (chunkOf (stmt :: rest)).steps = (instruction, stmt.line) :: (chunkOf rest).steps := by
  rw [steps_chunkOf, steps_chunkOf, List.filterMap_cons, compiled]
  rfl

theorem steps_chunkOf_cons_none {stmt : Stmt} (omitted : stmt.instruction? = none)
    (rest : Program) : (chunkOf (stmt :: rest)).steps = (chunkOf rest).steps := by
  rw [steps_chunkOf, steps_chunkOf, List.filterMap_cons, omitted]
  rfl

/-! ### Variables on both sides -/

/-- The variables of a machine are those of an environment that has no records. -/
structure Mirrors (globals : Globals) (environment : Environment) : Prop where
  values : globals = environment.values
  records : environment.records = .empty

theorem Mirrors.bindings {globals : Globals} {environment : Environment}
    (mirrors : Mirrors globals environment) :
    globalBindings globals = environment.bindings := by
  obtain ⟨values, records, entities⟩ := environment
  obtain ⟨rfl, rfl⟩ := mirrors
  rfl

theorem Mirrors.define {globals : Globals} {environment : Environment}
    (mirrors : Mirrors globals environment) (name : String) (value : Value) :
    Mirrors (globals.insert name value) (environment.define name value) :=
  ⟨congrArg (Table.insert · name value) mirrors.values, mirrors.records⟩

/-! ### Single steps and whole runs -/

theorem Instruction.run_lockstep (sink : Sink) {stmt : Stmt} {instruction : Instruction}
    (compiled : stmt.instruction? = some instruction) :
    Lockstep Mirrors (instruction.run sink stmt.line) (stmt.run sink) := by
  cases stmt with
  | print line expr =>
    cases compiled
    refine Lockstep.bind (Lockstep.evaluateAt fun _ _ mirrors => ?_) fun value =>
      Lockstep.writeLine sink value.text
    rw [mirrors.bindings]
  | assign line name expr =>
    cases compiled
    refine Lockstep.bind (Lockstep.evaluateAt fun _ _ mirrors => ?_) fun value =>
      Lockstep.changeNames fun _ _ mirrors => mirrors.define name value
    rw [mirrors.bindings]
  | record line name fields => cases compiled
  | block line header body => cases compiled

theorem runSteps_lockstep (sink : Sink) (program : Program) (offset : Nat) :
    Lockstep Mirrors (runSteps sink offset (chunkOf program).steps)
      (Stmt.runAll sink (program.filter Stmt.isPlain)) := by
  induction program generalizing offset with
  | nil => exact fun _ _ alike => .ok ⟨alike.events, alike.names⟩
  | cons stmt rest inductionHypothesis =>
    cases compiled : stmt.instruction? with
    | some instruction =>
      have plain : stmt.isPlain = true := by rw [stmt.isPlain_eq, compiled]; rfl
      rw [steps_chunkOf_cons_some compiled, List.filter_cons_of_pos plain]
      exact Lockstep.note_left _ (Lockstep.bind (Instruction.run_lockstep sink compiled)
        fun _ => inductionHypothesis (offset + 1))
    | none =>
      have notPlain : ¬ stmt.isPlain = true := by rw [stmt.isPlain_eq, compiled]; decide
      rw [steps_chunkOf_cons_none compiled, List.filter_cons_of_neg notPlain]
      exact inductionHypothesis offset

/-- Running the chunk of a program and running its statements that show or set, from an empty
environment, end in the same way: with the same error or with none, after the same events, and
with the same variables. This holds for every sink, so also where it refuses a write or fails a
flush in the middle. -/
theorem runChunk_agrees_with_runTree (sink : Sink) (program : Program) (globals : Globals)
    (events : List Event) (notices otherNotices : List Notice) :
    let machine := runChunk sink (compile program).value ⟨globals, events, notices⟩
    let tree := runTree sink (program.filter Stmt.isPlain) ⟨.empty, events, otherNotices⟩
    endError? machine = endError? tree ∧
      (endState machine).events = (endState tree).events ∧
      (endState machine).names = (endState tree).names.values := by
  intro machine tree
  have matched : Matched Mirrors machine tree :=
    Lockstep.thenFlush sink (runSteps_lockstep sink program 0) ⟨.empty, events, notices⟩
      ⟨.empty, events, otherNotices⟩ ⟨rfl, rfl, rfl⟩
  exact ⟨matched.endError?_eq, matched.alike.events, matched.alike.names.values⟩

end LineScript
