/-
This file shows that an evaluation error can be looked into after the run. Such an error names a
line and the text of an expression. The line is that of a statement of the program, the text is that
of an expression of this very statement, and the environment that the run leaves is the one in which
the expression failed: evaluated there again, it fails in the same way. The count of a loop may also
have a value that is no number of times, and it still has this value.

What carries the argument is that a failure ends everything around it at once. An action fails only
for a reason that holds of the names it leaves; this passes on to sequences, repetitions and blocks,
since nothing runs after the failure but the last flush, which does not touch the names. The
instructions of a chunk are followed one by one instead, and those before the failing one run to
their end and leave the same names.
-/

import LineScript.Proofs.Retrieval
import LineScript.Proofs.Store

namespace LineScript

open Text

variable {names α β : Type}

/-! ### Errors that recur -/

/-- An error about an expression of the statement on a line that is raised again, but for the line,
wherever its text is evaluated under some bindings. -/
structure EvalError.Recurs (error : EvalError) (bindings : Bindings) (line : Nat)
    (expr : String) : Prop where
  line : error.line = some line
  text : error.expression = trim expr
  fails : evaluate bindings error.expression = .error { error with line := none }

theorem evaluate_trim (bindings : Bindings) (text : String) :
    evaluate bindings (trim text) = evaluate bindings text := by
  rw [evaluate, evaluate, trim_trim]

theorem recurs_of_evaluate {bindings : Bindings} {expr : String} {error : EvalError}
    (failed : evaluate bindings expr = .error error) (line : Nat) :
    (error.atLine line).Recurs bindings line expr := by
  have again := failed
  unfold evaluate at failed
  split at failed
  · cases failed
  · cases failed
    refine ⟨rfl, rfl, ?_⟩
    rw [EvalError.atLine, evaluate_trim]
    exact again

/-! ### Actions that fail for a reason -/

/-- An action raises evaluation errors only for a reason, which holds of the names it leaves. -/
def FailsFor (reason : names → EvalError → Prop) (action : Action names α) : Prop :=
  ∀ state error final, action state = .error (.eval error) final → reason final.names error

namespace FailsFor

variable {reason : names → EvalError → Prop}

theorem pure (value : α) : FailsFor reason (Pure.pure value : Action names α) :=
  fun _ _ _ failed => by cases failed

theorem note (notice : Notice) : FailsFor reason (LineScript.note notice) :=
  fun _ _ _ failed => by cases failed

theorem emit (event : Event) : FailsFor reason (LineScript.emit event) :=
  fun _ _ _ failed => by cases failed

theorem changeNames (change : names → names) : FailsFor reason (LineScript.changeNames change) :=
  fun _ _ _ failed => by cases failed

theorem writeLine (sink : Sink) (text : String) :
    FailsFor reason (LineScript.writeLine sink text) := by
  intro state error final failed
  rw [LineScript.writeLine, writeText, writeBytes_apply] at failed
  split at failed
  · cases failed
  · split at failed <;> cases failed

theorem flushSink (sink : Sink) : FailsFor reason (LineScript.flushSink sink) := by
  intro state error final failed
  rw [flushSink_apply] at failed
  split at failed <;> cases failed

theorem evaluateAt {bindings : names → Bindings} {line : Nat} {expr : String}
    (raised : ∀ found error, error.Recurs (bindings found) line expr → reason found error) :
    FailsFor reason (LineScript.evaluateAt bindings line expr) := by
  intro state error final failed
  obtain ⟨first, evaluated, same, rfl⟩ := evaluateAt_eq_error.mp failed
  cases same
  exact raised _ _ (recurs_of_evaluate evaluated line)

theorem bind {action : Action names α} {next : α → Action names β} (first : FailsFor reason action)
    (rest : ∀ value, FailsFor reason (next value)) : FailsFor reason (action >>= next) := by
  intro state error final failed
  rcases bind_eq_error.mp failed with early | ⟨value, middle, -, late⟩
  · exact first state error final early
  · exact rest value middle error final late

theorem times {action : Action names Unit} (each : FailsFor reason action) (count : Nat) :
    FailsFor reason (LineScript.times action count) := by
  induction count with
  | zero => exact pure ()
  | succ count inductionHypothesis => exact each.bind fun _ => inductionHypothesis

theorem mono {action : Action names α} (fails : FailsFor reason action)
    {other : names → EvalError → Prop} (weaker : ∀ found error, reason found error →
      other found error) : FailsFor other action :=
  fun state error final failed => weaker _ _ (fails state error final failed)

end FailsFor

/-- An evaluation error before the last flush is the result, if the flush succeeds. -/
theorem thenFlush_eq_eval_error {sink : Sink} {action : Action names Unit}
    {state final : RunState names} {error : EvalError}
    (failed : thenFlush sink action state = .error (.eval error) final) :
    ∃ middle, action state = .error (.eval error) middle ∧ sink.flush middle.events = none ∧
      final = { middle with events := .flush :: middle.events } := by
  unfold thenFlush at failed
  cases ran : action state with
  | ok value middle =>
    rw [ran] at failed
    simp only [flushSink_apply] at failed
    split at failed <;> cases failed
  | error early middle =>
    rw [ran] at failed
    simp only [flushSink_apply] at failed
    cases flushed : sink.flush middle.events with
    | some message =>
      rw [flushed] at failed
      cases failed
    | none =>
      rw [flushed] at failed
      cases failed
      exact ⟨middle, rfl, flushed, rfl⟩

theorem thenFlush_eq_ok {sink : Sink} {action : Action names Unit} {state middle : RunState names}
    (ran : action state = .ok () middle) (flushed : sink.flush middle.events = none) :
    thenFlush sink action state = .ok () { middle with events := .flush :: middle.events } := by
  unfold thenFlush
  rw [ran]
  simp only [flushSink_apply, flushed]

/-! ### Statements -/

/-- The expressions of a statement itself, without those of the statements inside it. -/
def Stmt.ownExpressions : Stmt → List String
  | .print _ expr => [expr]
  | .assign _ _ expr => [expr]
  | .record _ _ fields => fields.entries.map Prod.snd
  | .block _ header _ => header.expressions

/-- The expression that says how often a statement runs what is inside it. -/
def Stmt.count? : Stmt → Option String
  | .block _ (.loop count) _ => some count
  | _ => none

/-- A statement raises an error under some bindings: an expression of its own fails so, or it is a
loop and the value of its count is no number of times. -/
inductive Stmt.Raises (stmt : Stmt) (bindings : Bindings) (error : EvalError) : Prop
  | evaluation {expr : String} (own : expr ∈ stmt.ownExpressions)
      (recurs : error.Recurs bindings stmt.line expr)
  | count {count : String} {value : Value} {fault : Fault} (own : stmt.count? = some count)
      (line : error.line = some stmt.line) (text : error.expression = trim count)
      (evaluates : evaluate bindings error.expression = .ok value)
      (fails : value.count = .error fault) (cause : error.cause = .fault fault)

/-- One of some statements raises an error. -/
def RaisedWithin (statements : List Stmt) (environment : Environment) (error : EvalError) : Prop :=
  ∃ stmt ∈ statements, stmt.Raises environment.bindings error

theorem raisedWithin_self (stmt : Stmt) (environment : Environment) (error : EvalError)
    (raises : stmt.Raises environment.bindings error) :
    RaisedWithin stmt.preorder environment error :=
  ⟨stmt, stmt.mem_preorder_self, raises⟩

section Statement

variable {reason : Environment → EvalError → Prop} {stmt : Stmt}
  (raised : ∀ environment error, stmt.Raises environment.bindings error → reason environment error)

include raised

theorem failsFor_evaluateAt {expr : String} (own : expr ∈ stmt.ownExpressions) :
    FailsFor reason (evaluateAt Environment.bindings stmt.line expr) :=
  .evaluateAt fun environment error recurs => raised environment error (.evaluation own recurs)

theorem failsFor_evaluateFields (fields : Record) {entries : List (String × String)}
    (own : ∀ expr ∈ entries.map Prod.snd, expr ∈ stmt.ownExpressions) :
    FailsFor reason (evaluateFields stmt.line fields entries) := by
  induction entries generalizing fields with
  | nil => exact .pure fields
  | cons entry rest inductionHypothesis =>
    obtain ⟨field, expr⟩ := entry
    obtain ⟨first, later⟩ := List.forall_mem_cons.mp own
    exact (failsFor_evaluateAt raised first).bind fun value =>
      inductionHypothesis (fields.insert field value) later

theorem failsFor_loopCount {count : String} (own : stmt.count? = some count)
    (expression : count ∈ stmt.ownExpressions) :
    FailsFor reason (loopCount stmt.line count) := by
  intro state error final failed
  rcases bind_eq_error.mp failed with early | ⟨value, middle, evaluated, late⟩
  · exact failsFor_evaluateAt raised expression state error final early
  · obtain ⟨known, rfl⟩ := evaluateAt_eq_ok.mp evaluated
    cases counted : value.count with
    | ok n =>
      rw [counted] at late
      cases late
    | error fault =>
      rw [counted] at late
      cases late
      rw [← evaluate_trim] at known
      exact raised _ _ (.count own rfl rfl known counted rfl)

end Statement

theorem failsFor_runFrames {reason : Environment → EvalError → Prop} (sink : Sink)
    {body : TreeAction Unit} (inside : FailsFor reason body) (count frame : Nat) :
    FailsFor reason (runFrames sink body count frame) := by
  induction count generalizing frame with
  | zero => exact .pure ()
  | succ count inductionHypothesis =>
    have frames : FailsFor reason (note (.frame (frame + 1)) >>= fun _ => body >>= fun _ =>
        runFrames sink body count (frame + 1)) :=
      (FailsFor.note _).bind fun _ => inside.bind fun _ => inductionHypothesis (frame + 1)
    rw [runFrames]
    by_cases later : 0 < frame
    · rw [if_pos later]
      exact (FailsFor.flushSink sink).bind fun _ => (FailsFor.emit _).bind fun _ => frames
    · rw [if_neg later]
      exact frames

/-- A block fails for a reason of its own, or for one of its body. -/
theorem Header.failsFor_run {reason : Environment → EvalError → Prop} (sink : Sink) {line : Nat}
    {header : Header} (statements : List Stmt)
    (raised : ∀ environment error,
      (Stmt.block line header statements).Raises environment.bindings error →
        reason environment error)
    {body : TreeAction Unit} (inside : FailsFor reason body) :
    FailsFor reason (header.run sink line body) := by
  have afterLine (text : String) : FailsFor reason (writeLine sink text >>= fun _ => body) :=
    (FailsFor.writeLine sink text).bind fun _ => inside
  cases header with
  | branch condition =>
    refine (failsFor_evaluateAt raised (List.mem_singleton_self condition)).bind fun value => ?_
    cases value.isTruthy with
    | true => exact inside
    | false => exact .pure ()
  | loop count =>
    exact (failsFor_loopCount raised rfl (List.mem_singleton_self count)).bind fun repetitions =>
      inside.times repetitions
  | game => exact afterLine _
  | scene name => exact afterLine _
  | entity name => exact (FailsFor.changeNames _).bind fun _ => afterLine _
  | tick =>
    exact (FailsFor.writeLine sink _).bind fun _ => failsFor_runFrames sink inside tickFrames 0
  | page name => exact afterLine _
  | route path => exact afterLine _

mutual

/-- A statement fails for a reason that lies in itself or in a statement inside it. -/
theorem Stmt.failsFor_run (sink : Sink) (stmt : Stmt) :
    FailsFor (RaisedWithin stmt.preorder) (stmt.run sink) := by
  match stmt with
  | .print line expr =>
    exact (failsFor_evaluateAt (raisedWithin_self _) (List.mem_singleton_self expr)).bind
      fun value => FailsFor.writeLine sink value.text
  | .assign line name expr =>
    exact (failsFor_evaluateAt (raisedWithin_self _) (List.mem_singleton_self expr)).bind
      fun value => FailsFor.changeNames _
  | .record line name fields =>
    have evaluated := failsFor_evaluateFields (raisedWithin_self (.record line name fields)) .empty
      fun _ member => member
    exact evaluated.bind fun values => FailsFor.changeNames _
  | .block line header body =>
    refine Header.failsFor_run sink body (raisedWithin_self _) ?_
    refine (Stmt.failsFor_runAll sink body).mono ?_
    rintro environment error ⟨inner, member, raises⟩
    exact ⟨inner, List.mem_cons_of_mem _ member, raises⟩

theorem Stmt.failsFor_runAll (sink : Sink) (statements : List Stmt) :
    FailsFor (RaisedWithin (Stmt.allPreorder statements)) (Stmt.runAll sink statements) := by
  match statements with
  | [] => exact .pure ()
  | first :: rest =>
    refine FailsFor.bind ((Stmt.failsFor_run sink first).mono ?_) fun _ =>
      (Stmt.failsFor_runAll sink rest).mono ?_
    · rintro environment error ⟨stmt, member, raises⟩
      exact ⟨stmt, List.mem_append_left _ member, raises⟩
    · rintro environment error ⟨stmt, member, raises⟩
      exact ⟨stmt, List.mem_append_right _ member, raises⟩

end

/-! ### Instructions -/

/-- The expression of an instruction. -/
def Instruction.expr : Instruction → String
  | .print expr => expr
  | .assign _ expr => expr

/-- The first instructions of a chunk, with their lines. -/
def Chunk.take (chunk : Chunk) (count : Nat) : Chunk :=
  ⟨chunk.code.take count, chunk.lines.take count⟩

theorem Chunk.steps_take (chunk : Chunk) (count : Nat) :
    (chunk.take count).steps = chunk.steps.take count := by
  rw [steps, steps, take, List.zip_eq_zipWith, List.zip_eq_zipWith, List.take_zipWith]

/-- An instruction raises an error before it does anything else. -/
theorem Instruction.run_eq_eval_error {sink : Sink} {line : Nat} {instruction : Instruction}
    {state final : RunState Globals} {error : EvalError}
    (failed : instruction.run sink line state = .error (.eval error) final) :
    final = state ∧ error.Recurs (globalBindings state.names) line instruction.expr := by
  have early : evaluateAt globalBindings line instruction.expr state =
      .error (.eval error) final := by
    cases instruction with
    | print expr =>
      refine (bind_eq_error.mp failed).resolve_right ?_
      rintro ⟨value, middle, -, late⟩
      have never : FailsFor (fun _ _ => False) (writeLine sink value.text : MachineAction Unit) :=
        .writeLine sink value.text
      exact never middle error final late
    | assign name expr =>
      refine (bind_eq_error.mp failed).resolve_right ?_
      rintro ⟨value, middle, -, late⟩
      cases late
  obtain ⟨first, evaluated, same, rfl⟩ := evaluateAt_eq_error.mp early
  cases same
  exact ⟨rfl, recurs_of_evaluate evaluated line⟩

/-- Where a row of instructions stops with an error, one of them raises it. The instructions before
it run to their end, and the names and the events are what they leave. -/
theorem runSteps_eq_eval_error {sink : Sink} {offset : Nat} {steps : List (Instruction × Nat)}
    {state final : RunState Globals} {error : EvalError}
    (failed : runSteps sink offset steps state = .error (.eval error) final) :
    ∃ before instruction line after, steps = before ++ (instruction, line) :: after ∧
      error.Recurs (globalBindings final.names) line instruction.expr ∧
      ∃ middle, runSteps sink offset before state = .ok () middle ∧
        middle.names = final.names ∧ middle.events = final.events := by
  induction steps generalizing offset state with
  | nil => cases failed
  | cons step rest inductionHypothesis =>
    obtain ⟨instruction, line⟩ := step
    -- The notice only tells which instruction comes next.
    let noted : RunState Globals :=
      { state with notices := .executing offset instruction.operation :: state.notices }
    have executed : (instruction.run sink line >>= fun _ => runSteps sink (offset + 1) rest) noted =
        .error (.eval error) final := failed
    rcases bind_eq_error.mp executed with early | ⟨⟨⟩, middle, ran, late⟩
    · obtain ⟨rfl, recurs⟩ := Instruction.run_eq_eval_error early
      exact ⟨[], instruction, line, rest, rfl, recurs, _, rfl, rfl, rfl⟩
    · obtain ⟨before, raising, number, after, same, recurs, last, others, kept⟩ :=
        inductionHypothesis late
      have first : runSteps sink offset ((instruction, line) :: before) state = .ok () last :=
        bind_eq_ok.mpr ⟨(), noted, rfl, bind_eq_ok.mpr ⟨(), middle, ran, others⟩⟩
      exact ⟨(instruction, line) :: before, raising, number, after,
        congrArg ((instruction, line) :: ·) same, recurs, last, first, kept⟩

/-! ### Runs -/

/-- An evaluation error tells where it comes from and can be had again. If a program stops with one,
its line is that of a statement of the program, at whatever depth; its text is that of an expression
of this statement; and in the environment that the run leaves the text fails in the same way, or has
a value that is no number of times if it is the count of a loop. If a chunk stops with one, the line
and the text are those of one of its instructions, and under the variables that the run leaves the
text fails in the same way. The instructions before this one run without an error and leave these
variables, so it is the one at which the run stopped. -/
theorem eval_errors_recur :
    (∀ (sink : Sink) (program : Program) (state final : RunState Environment) (error : EvalError),
      runTree sink program state = .error (.eval error) final →
        ∃ stmt ∈ Stmt.allPreorder program, stmt.Raises final.names.bindings error) ∧
    ∀ (sink : Sink) (chunk : Chunk) (state final : RunState Globals) (error : EvalError),
      runChunk sink chunk state = .error (.eval error) final →
        ∃ offset instruction line, chunk.code[offset]? = some instruction ∧
          chunk.lines[offset]? = some line ∧
          error.Recurs (globalBindings final.names) line instruction.expr ∧
          ∃ before, runChunk sink (chunk.take offset) state = .ok () before ∧
            before.names = final.names ∧ before.events = final.events := by
  constructor
  · intro sink program state final error failed
    obtain ⟨middle, ran, -, rfl⟩ := thenFlush_eq_eval_error failed
    exact Stmt.failsFor_runAll sink program state error middle ran
  · intro sink chunk state final error failed
    have flushed : thenFlush sink (runSteps sink 0 chunk.steps) { state with names := .empty } =
        .error (.eval error) final := failed
    obtain ⟨middle, ran, quiet, rfl⟩ := thenFlush_eq_eval_error flushed
    obtain ⟨before, instruction, line, after, whole, recurs, last, first, names, events⟩ :=
      runSteps_eq_eval_error ran
    have here : chunk.steps[before.length]? = some (instruction, line) := by
      rw [whole, List.getElem?_append_right (Nat.le_refl _), Nat.sub_self]
      rfl
    obtain ⟨inCode, inLines⟩ := List.getElem?_zip_eq_some.mp here
    have cut : (chunk.take before.length).steps = before := by
      rw [Chunk.steps_take, whole, List.take_left]
    refine ⟨before.length, instruction, line, inCode, inLines, recurs,
      { last with events := .flush :: last.events }, ?_, names, congrArg (.flush :: ·) events⟩
    show thenFlush sink (runSteps sink 0 (chunk.take before.length).steps)
      { state with names := .empty } = _
    rw [cut]
    exact thenFlush_eq_ok first (by rw [events]; exact quiet)

/-- A loop whose count becomes a text in the first frame, so that the second frame stops at it. -/
def spoiledCount : Program :=
  [.assign 1 "n" "1", .block 2 .tick
    [.block 3 (.loop " n ") [.assign 4 "n" "'many'"], .print 6 "n"]]

/-- Instructions of which the third divides by zero, with the fourth on the same line. -/
def failingChunk : Chunk :=
  ⟨[.assign "x" "2", .print "x", .assign "y" "x // (x - 2) ", .print "y"], [1, 4, 7, 7]⟩

theorem eval_errors_recur_spoiledCount :
    let run := runTree .unlimited spoiledCount ⟨.empty, [], []⟩
    let execution := runChunk .unlimited failingChunk ⟨.empty, [], []⟩
    endError? run = some (.eval ⟨.fault (.invalidCount "many"), "n", some 3⟩) ∧
      (∃ stmt ∈ Stmt.allPreorder spoiledCount, stmt.Raises (endState run).names.bindings
        ⟨.fault (.invalidCount "many"), "n", some 3⟩) ∧
      endError? execution = some (.eval ⟨.fault .divisionByZero, "x // (x - 2)", some 7⟩) ∧
      ∃ (offset : Nat) (instruction : Instruction) (line : Nat),
        failingChunk.code[offset]? = some instruction ∧
        failingChunk.lines[offset]? = some line ∧
        EvalError.Recurs ⟨.fault .divisionByZero, "x // (x - 2)", some 7⟩
          (globalBindings (endState execution).names) line instruction.expr := by
  intro run execution
  have stopped : endError? run = some (.eval ⟨.fault (.invalidCount "many"), "n", some 3⟩) := by
    decide +kernel
  have halted : endError? execution =
      some (.eval ⟨.fault .divisionByZero, "x // (x - 2)", some 7⟩) := by decide +kernel
  obtain ⟨final, ran⟩ := endError?_eq_some stopped
  obtain ⟨last, executed⟩ := endError?_eq_some halted
  obtain ⟨offset, instruction, line, inCode, inLines, recurs, -⟩ :=
    eval_errors_recur.2 _ _ _ _ _ executed
  refine ⟨stopped, ?_, halted, offset, instruction, line, inCode, inLines, ?_⟩
  · rw [ran]
    exact eval_errors_recur.1 _ _ _ _ _ ran
  · rw [executed]
    exact recurs

end LineScript
