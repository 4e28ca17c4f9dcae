/-
This file proves that a run does nothing with line numbers but name them in errors. A program with
other line numbers does the same to the sink, and where it stops with an error, it is the same error
about the line with the other number. The notices of a compilation name lines too, but a notice
changes nothing in a run. Only a listing shows the numbers, so it is left out here.
-/

import LineScript.Proofs.Agreement
import LineScript.Proofs.Renumbered
import LineScript.Proofs.Store
import LineScript.Script.Run

namespace LineScript

variable {names α β : Type}

/-! ### Errors about other lines -/

/-- An error of a run about another line. -/
def RunError.renumbered (place : Nat → Nat) : RunError → RunError
  | .eval error => .eval { error with line := error.line.map place }
  | .output message => .output message

/-- An action whose errors are about other lines. -/
def renumberErrors (place : Nat → Nat) (action : Action names α) : Action names α := fun state =>
  match action state with
  | .ok value final => .ok value final
  | .error error final => .error (error.renumbered place) final

variable (place : Nat → Nat)

theorem events_renumberErrors (action : Action names α) (state : RunState names) :
    (endState (renumberErrors place action state)).events = (endState (action state)).events := by
  unfold renumberErrors
  cases action state <;> rfl

theorem endError?_renumberErrors (action : Action names α) (state : RunState names) :
    endError? (renumberErrors place action state) =
      (endError? (action state)).map (RunError.renumbered place) := by
  unfold renumberErrors
  cases action state <;> rfl

theorem renumberErrors_note (notice : Notice) :
    renumberErrors place (note notice : Action names Unit) = note notice := rfl

theorem renumberErrors_changeNames (change : names → names) :
    renumberErrors place (changeNames change) = changeNames change := rfl

theorem renumberErrors_bind (action : Action names α) (next : α → Action names β) :
    renumberErrors place (action >>= next) =
      renumberErrors place action >>= fun value => renumberErrors place (next value) := by
  funext state
  rw [bind_apply, renumberErrors, bind_apply, renumberErrors]
  cases action state <;> rfl

theorem renumberErrors_writeLine (sink : Sink) (text : String) :
    renumberErrors place (writeLine sink text : Action names Unit) = writeLine sink text := by
  funext state
  unfold writeLine writeText
  rw [renumberErrors, writeBytes_apply]
  by_cases empty : (text ++ "\n").toUTF8.isEmpty
  · rw [if_pos empty]
  · rw [if_neg empty]
    cases sink.write state.events (text ++ "\n").toUTF8 <;> rfl

theorem renumberErrors_flushSink (sink : Sink) :
    renumberErrors place (flushSink sink : Action names Unit) = flushSink sink := by
  funext state
  rw [renumberErrors, flushSink_apply]
  cases sink.flush state.events <;> rfl

/-- The errors of an evaluation are about no line until they get one. -/
theorem line_of_evaluate_eq_error {bindings : Bindings} {text : String} {error : EvalError}
    (failed : evaluate bindings text = .error error) : error.line = none := by
  unfold evaluate at failed
  split at failed <;> cases failed
  rfl

theorem renumberErrors_evaluateAt (bindings : names → Bindings) (line : Nat) (expr : String) :
    renumberErrors place (evaluateAt bindings line expr) =
      evaluateAt bindings (place line) expr := by
  funext state
  rw [renumberErrors, evaluateAt_apply, evaluateAt_apply]
  cases evaluated : evaluate (bindings state.names) expr with
  | ok value => rfl
  | error error =>
    simp only [RunError.renumbered, EvalError.atLine, line_of_evaluate_eq_error evaluated]
    rfl

theorem renumberErrors_thenFlush (sink : Sink) (action : Action names Unit) :
    renumberErrors place (thenFlush sink action) =
      thenFlush sink (renumberErrors place action) := by
  funext state
  simp only [renumberErrors, thenFlush, flushSink_apply]
  cases action state with
  | ok value final =>
    simp only
    cases sink.flush final.events <;> rfl
  | error error final =>
    simp only
    cases sink.flush final.events <;> rfl

theorem renumberErrors_onOwnNames {others : Type} (initial : names) (action : Action names Unit) :
    renumberErrors place (onOwnNames initial action : Action others Unit) =
      onOwnNames initial (renumberErrors place action) := by
  funext state
  simp only [renumberErrors, onOwnNames]
  cases action ⟨initial, state.events, state.notices⟩ <;> rfl

/-! ### Statement by statement -/

theorem renumberErrors_times (action : Action names Unit) (count : Nat) :
    renumberErrors place (times action count) = times (renumberErrors place action) count := by
  induction count with
  | zero => rfl
  | succ count inductionHypothesis =>
    rw [times, times, renumberErrors_bind, inductionHypothesis]

theorem renumberErrors_evaluateFields (line : Nat) (fields : Record)
    (entries : List (String × String)) :
    renumberErrors place (evaluateFields line fields entries) =
      evaluateFields (place line) fields entries := by
  induction entries generalizing fields with
  | nil => rfl
  | cons entry rest inductionHypothesis =>
    rw [evaluateFields, evaluateFields, renumberErrors_bind, renumberErrors_evaluateAt]
    simp only [inductionHypothesis]

theorem renumberErrors_loopCount (line : Nat) (count : String) :
    renumberErrors place (loopCount line count) = loopCount (place line) count := by
  rw [loopCount, loopCount, renumberErrors_bind, renumberErrors_evaluateAt]
  refine congrArg _ (funext fun value => ?_)
  cases value.count <;> rfl

theorem renumberErrors_runFrames (sink : Sink) (body : TreeAction Unit) (count frame : Nat) :
    renumberErrors place (runFrames sink body count frame) =
      runFrames sink (renumberErrors place body) count frame := by
  induction count generalizing frame with
  | zero => rfl
  | succ count inductionHypothesis =>
    have pauses : renumberErrors place (emit (.pause tickInterval) : TreeAction Unit) =
        emit (.pause tickInterval) := rfl
    rw [runFrames, runFrames]
    split <;>
      simp only [renumberErrors_bind, renumberErrors_flushSink, pauses, renumberErrors_note,
        inductionHypothesis]

theorem Header.run_renumbered (sink : Sink) (line : Nat) (body : TreeAction Unit)
    (header : Header) :
    header.run sink (place line) (renumberErrors place body) =
      renumberErrors place (header.run sink line body) := by
  cases header with
  | branch condition =>
    rw [Header.run, Header.run, renumberErrors_bind, renumberErrors_evaluateAt]
    refine congrArg _ (funext fun value => ?_)
    cases value.isTruthy <;> rfl
  | loop count =>
    simp only [Header.run, renumberErrors_bind, renumberErrors_loopCount, renumberErrors_times]
  | entity name =>
    simp only [Header.run, renumberErrors_bind, renumberErrors_changeNames,
      renumberErrors_writeLine]
  | tick =>
    simp only [Header.run, renumberErrors_bind, renumberErrors_writeLine,
      renumberErrors_runFrames]
  | _ => simp only [Header.run, renumberErrors_bind, renumberErrors_writeLine]

mutual

/-- A statement with other line numbers runs as before, with errors about the other lines. -/
theorem Stmt.run_renumbered (sink : Sink) (stmt : Stmt) :
    (stmt.renumbered place).run sink = renumberErrors place (stmt.run sink) := by
  match stmt with
  | .print line expr =>
    simp only [Stmt.renumbered, Stmt.run, renumberErrors_bind, renumberErrors_evaluateAt,
      renumberErrors_writeLine]
  | .assign line name expr =>
    simp only [Stmt.renumbered, Stmt.run, renumberErrors_bind, renumberErrors_evaluateAt,
      renumberErrors_changeNames]
  | .record line name fields =>
    simp only [Stmt.renumbered, Stmt.run, renumberErrors_bind, renumberErrors_evaluateFields,
      renumberErrors_changeNames]
  | .block line header body =>
    rw [Stmt.renumbered, Stmt.run, Stmt.run, Stmt.runAll_renumbered sink body,
      Header.run_renumbered]

theorem Stmt.runAll_renumbered (sink : Sink) (statements : List Stmt) :
    Stmt.runAll sink (Stmt.allRenumbered place statements) =
      renumberErrors place (Stmt.runAll sink statements) := by
  match statements with
  | [] => rfl
  | first :: rest =>
    rw [Stmt.allRenumbered, Stmt.runAll, Stmt.runAll, renumberErrors_bind,
      Stmt.run_renumbered sink first, Stmt.runAll_renumbered sink rest]

end

theorem treePart_renumbered (sink : Sink) (program : Program) :
    treePart sink (Stmt.allRenumbered place program) =
      renumberErrors place (treePart sink program) := by
  rw [treePart, treePart, renumberErrors_onOwnNames, runTree, runTree, renumberErrors_thenFlush,
    Stmt.runAll_renumbered]

/-- The notices that are there at the start make no difference to a run. -/
theorem treePart_lockstep_self (sink : Sink) (program : Program) :
    Lockstep Eq (treePart sink program) (treePart sink program) := by
  have compositional : Compositional .environments .environments sink sink (fun _ => True)
      (fun _ => True) fun _ left right => Lockstep Eq left right :=
    Lockstep.compositional sink (fun _ _ same _ _ => by rw [same])
      fun change _ _ same => congrArg change.apply same
  have body := compositional.runAll program (fun _ _ => trivial) fun _ _ => trivial
  rw [runAll_environments] at body
  exact (Lockstep.thenFlush sink body).onOwnNames rfl

/-! ### As instructions -/

theorem steps_chunkOf_renumbered (program : Program) :
    (chunkOf (Stmt.allRenumbered place program)).steps =
      (chunkOf program).steps.map (Prod.map id place) := by
  rw [steps_chunkOf, steps_chunkOf, Stmt.allRenumbered_eq_map, List.filterMap_map,
    List.map_filterMap]
  refine congrArg (List.filterMap · program) (funext fun stmt => ?_)
  cases stmt <;> rfl

theorem Instruction.run_renumbered (sink : Sink) (line : Nat) (instruction : Instruction) :
    instruction.run sink (place line) = renumberErrors place (instruction.run sink line) := by
  cases instruction with
  | print expr =>
    simp only [Instruction.run, renumberErrors_bind, renumberErrors_evaluateAt,
      renumberErrors_writeLine]
  | assign name expr =>
    simp only [Instruction.run, renumberErrors_bind, renumberErrors_evaluateAt,
      renumberErrors_changeNames]

theorem Instruction.run_lockstep_self (sink : Sink) (line : Nat) (instruction : Instruction) :
    Lockstep Eq (instruction.run sink line) (instruction.run sink line) := by
  have evaluated (expr : String) : Lockstep Eq (evaluateAt globalBindings line expr)
      (evaluateAt globalBindings line expr) :=
    Lockstep.evaluateAt fun _ _ same => by rw [same]
  cases instruction with
  | print expr => exact (evaluated expr).bind fun value => Lockstep.writeLine sink value.text
  | assign name expr =>
    exact (evaluated expr).bind fun value =>
      Lockstep.changeNames fun _ _ same => congrArg (Table.insert · name value) same

/-- Instructions with other line numbers run as before, with errors about the other lines. -/
theorem runSteps_renumbered (sink : Sink) (offset : Nat) (steps : List (Instruction × Nat)) :
    Lockstep Eq (renumberErrors place (runSteps sink offset steps))
      (runSteps sink offset (steps.map (Prod.map id place))) := by
  induction steps generalizing offset with
  | nil => exact fun _ _ alike => .ok ⟨alike.events, alike.names⟩
  | cons step rest inductionHypothesis =>
    obtain ⟨instruction, line⟩ := step
    rw [runSteps, renumberErrors_bind]
    refine Lockstep.bind (Lockstep.note _) fun _ => ?_
    rw [renumberErrors_bind, ← Instruction.run_renumbered]
    exact (instruction.run_lockstep_self sink (place line)).bind fun _ =>
      inductionHypothesis (offset + 1)

theorem machinePart_renumbered (sink : Sink) (program : Program) :
    Lockstep Eq (renumberErrors place (machinePart sink false program))
      (machinePart sink false (Stmt.allRenumbered place program)) := by
  have notes (notices : List Notice) :
      renumberErrors place (notices.forM note : Action Unit Unit) = notices.forM note := by
    funext state
    rw [renumberErrors, forM_note_apply]
  have steps := runSteps_renumbered place sink 0 (chunkOf program).steps
  rw [← steps_chunkOf_renumbered] at steps
  have chunk : Lockstep Eq (renumberErrors place (runChunk sink (chunkOf program)))
      (runChunk sink (chunkOf (Stmt.allRenumbered place program))) := by
    rw [runChunk, runChunk, renumberErrors_bind, renumberErrors_thenFlush]
    exact Lockstep.bind (Lockstep.changeNames fun _ _ _ => rfl) fun _ =>
      Lockstep.thenFlush sink steps
  rw [machinePart, machinePart, renumberErrors_bind, notes]
  refine Lockstep.bind (Lockstep.forM_note _ _) fun _ => ?_
  show Lockstep Eq
    (renumberErrors place (onOwnNames Table.empty (runChunk sink (chunkOf program))))
    (onOwnNames Table.empty (runChunk sink (chunkOf (Stmt.allRenumbered place program))))
  rw [renumberErrors_onOwnNames]
  exact chunk.onOwnNames rfl

/-! ### Programs -/

/-- In every mode, a program with other line numbers runs as before, with errors about the other
lines, if no listing shows the numbers. -/
theorem runProgram_renumbered (sink : Sink) (program : Program) (mode : Mode) :
    Lockstep Eq (renumberErrors place (runProgram sink false program mode))
      (runProgram sink false (Stmt.allRenumbered place program) mode) := by
  have tree : Lockstep Eq (renumberErrors place (treePart sink program))
      (treePart sink (Stmt.allRenumbered place program)) := by
    rw [← treePart_renumbered]
    exact treePart_lockstep_self sink _
  have machine := machinePart_renumbered place sink program
  cases mode with
  | tree => exact tree
  | machine => exact machine
  | both =>
    simp only [runProgram, renumberErrors_bind, renumberErrors_writeLine]
    exact Lockstep.bind (Lockstep.writeLine sink _) fun _ => Lockstep.bind tree fun _ =>
      Lockstep.bind (Lockstep.writeLine sink _) fun _ => machine

/-- Programs that differ in their line numbers alone do the same to the sink, and end with the same
error up to its line number, or without one. -/
theorem runProgram_of_renumbered_eq {place otherPlace : Nat → Nat} {program other : Program}
    (same : Stmt.allRenumbered place program = Stmt.allRenumbered otherPlace other) (sink : Sink)
    (mode : Mode) (events : List Event) (notices otherNotices : List Notice) :
    let run := runProgram sink false program mode ⟨(), events, notices⟩
    let otherRun := runProgram sink false other mode ⟨(), events, otherNotices⟩
    (endState run).events = (endState otherRun).events ∧
      (endError? run).map (RunError.renumbered place) =
        (endError? otherRun).map (RunError.renumbered otherPlace) := by
  intro run otherRun
  have left := runProgram_renumbered place sink program mode ⟨(), events, notices⟩
    ⟨(), events, []⟩ ⟨rfl, rfl⟩
  have right := runProgram_renumbered otherPlace sink other mode ⟨(), events, otherNotices⟩
    ⟨(), events, []⟩ ⟨rfl, rfl⟩
  rw [← same] at right
  constructor
  · exact (events_renumberErrors place _ _).symm.trans (left.alike.events.trans
      (right.alike.events.symm.trans (events_renumberErrors otherPlace _ _)))
  · exact (endError?_renumberErrors place _ _).symm.trans (left.endError?_eq.trans
      (right.endError?_eq.symm.trans (endError?_renumberErrors otherPlace _ _)))

end LineScript
