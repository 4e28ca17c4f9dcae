/-
This file proves that programs can be put together from programs. Lines that are a program by
themselves are read the same way in front of other lines, and between an opener and an `end` they
are the body of that block.

The pass over the lines looks at nothing below the blocks that it opened itself. So a pass that
starts from nothing can be stood on the stack of another one: each step it takes is taken there
too, on top of what was open before. Only an `end` that closes nothing is different, since below
there may be something to close.
-/

import LineScript.Proofs.OnePass

namespace LineScript

open Text

namespace Pass

/-! ### A pass on top of another -/

/-- Open blocks, the outermost of which comes after some more statements. -/
def raise (below : List Stmt) : List OpenBlock → List OpenBlock
  | [] => []
  | [outermost] => [{ outermost with before := below ++ outermost.before }]
  | block :: outer :: rest => block :: raise below (outer :: rest)

/-- The statements of the innermost block. Where no block is open they come after some more. -/
def raiseStatements (below : List Stmt) : List OpenBlock → List Stmt → List Stmt
  | [], statements => below ++ statements
  | _ :: _, statements => statements

/-- A pass that goes on where a lower one stopped. -/
def above (lower upper : Pass) : Pass where
  blocks := raise lower.statements upper.blocks ++ lower.blocks
  statements := raiseStatements lower.statements upper.blocks upper.statements
  record? := upper.record?
  skipped := upper.skipped ++ lower.skipped

theorem above_start {lower : Pass} (outside : lower.record? = none) :
    lower.above start = lower := by
  obtain ⟨blocks, statements, record?, skipped⟩ := lower
  cases outside
  simp [above, start, raise, raiseStatements]

theorem above_add (lower upper : Pass) (stmt : Stmt) :
    lower.above (upper.add stmt) = (lower.above upper).add stmt := by
  obtain ⟨blocks, statements, record?, skipped⟩ := upper
  cases blocks <;> simp [above, add, raiseStatements]

theorem above_push (lower upper : Pass) (line : Nat) (header : Header) :
    lower.above (upper.push line header) = (lower.above upper).push line header := by
  obtain ⟨blocks, statements, record?, skipped⟩ := upper
  cases blocks <;> simp [above, push, raise, raiseStatements]

/-- An `end` that closes a block of the upper pass closes it also on top of the lower one. -/
theorem pop_above (lower : Pass) {upper next : Pass} {line : Nat}
    (popped : upper.pop line = .ok next) :
    (lower.above upper).pop line = .ok (lower.above next) := by
  obtain ⟨blocks, statements, record?, skipped⟩ := upper
  cases blocks with
  | nil => cases popped
  | cons block outer =>
    cases popped
    cases outer <;> simp [above, pop, raise, raiseStatements]

/-! ### Steps -/

theorem step_above_ok {strict : Bool} (lower : Pass) {upper next : Pass} {line : Line}
    (taken : upper.step strict line = .ok next) :
    (lower.above upper).step strict line = .ok (lower.above next) := by
  refine step_eq_iff.mpr ?_
  cases step_eq_iff.mp taken with
  | field inside goes read => exact .field inside goes read
  | @endRecord record inside ends =>
    have added := lower.above_add upper (.record record.line record.name record.fields)
    have closed : Takes strict (lower.above upper) line _ := .endRecord inside ends
    rw [← added] at closed
    exact closed
  | statement outside read =>
    rw [above_add]
    exact .statement outside read
  | opener outside read =>
    rw [above_push]
    exact .opener outside read
  | recordOpener outside read => exact .recordOpener outside read
  | closing outside read popped => exact .closing outside read (pop_above lower popped)
  | skipped outside read permissive => exact .skipped outside read permissive

/-- Where the lower pass has no open block, the upper one also fails as it does alone. -/
theorem step_above_error {strict : Bool} {lower : Pass} (closed : lower.blocks = [])
    {upper : Pass} {line : Line} {error : StmtError}
    (failed : upper.step strict line = .error error) :
    (lower.above upper).step strict line = .error error := by
  refine step_eq_iff.mpr ?_
  cases step_eq_iff.mp failed with
  | badField inside goes read => exact .badField inside goes read
  | malformed outside read => exact .malformed outside read
  | closing outside read popped =>
    refine .closing outside read ?_
    obtain ⟨blocks, statements, record?, skipped⟩ := upper
    cases blocks with
    | nil =>
      cases popped
      simp [above, raise, closed, pop]
    | cons block outer => cases popped
  | refused outside read isStrict => exact .refused outside read isStrict

theorem finish_above {lower : Pass} (closed : lower.blocks = []) (upper : Pass) :
    (lower.above upper).finish = upper.finish.map (lower.statements ++ ·) := by
  obtain ⟨blocks, statements, record?, skipped⟩ := upper
  cases record? with
  | some record => rfl
  | none =>
    match blocks with
    | [] => simp [above, finish, raise, raiseStatements, closed, Except.map]
    | [outermost] => simp [above, finish, raise, Except.map]
    | block :: outer :: rest => simp [above, finish, raise, Except.map]

/-! ### Rows of lines -/

theorem read_append {strict : Bool} {pass middle : Pass} {lines : List Line}
    (taken : lines.foldlM (step strict) pass = .ok middle) (more : List Line) :
    (pass.read strict (lines ++ more)).1 = (middle.read strict more).1 := by
  rw [read_fst, read_fst, List.foldlM_append, taken]
  rfl

/-- Lines that are a program by themselves lead any pass that is not inside a record to the
statements of the program, on top of what it holds. -/
theorem foldlM_of_read {strict : Bool} {lines : List Line} {program : Program}
    (whole : (start.read strict lines).1 = .ok program) {lower : Pass}
    (outside : lower.record? = none) :
    ∃ middle : Pass, lines.foldlM (step strict) lower = .ok middle ∧ middle.record? = none ∧
      middle.blocks = lower.blocks ∧ middle.statements = lower.statements ++ program := by
  rw [read_fst] at whole
  obtain ⟨final, taken, finished⟩ := except_bind_eq_ok.mp whole
  obtain ⟨finalOutside, finalClosed, rfl⟩ := finish_eq_ok.mp finished
  have raised := foldlM_eq_ok_of_steps (fun _ _ _ => step_above_ok lower) taken
  rw [above_start outside] at raised
  refine ⟨lower.above final, raised, finalOutside, ?_, ?_⟩
  · simp [above, finalClosed, raise]
  · simp [above, finalClosed, raiseStatements]

/-- Where no block is open, further lines are read as they are by themselves, after the statements
that were read before. -/
theorem read_of_closed {strict : Bool} {pass : Pass} (outside : pass.record? = none)
    (closed : pass.blocks = []) (lines : List Line) :
    (pass.read strict lines).1 = (start.read strict lines).1.map (pass.statements ++ ·) := by
  have steps : ∀ upper line next, step strict upper line = .ok next →
      step strict (pass.above upper) line = .ok (pass.above next) :=
    fun _ _ _ => step_above_ok pass
  have failures : ∀ upper line error, step strict upper line = .error error →
      step strict (pass.above upper) line = .error (id error) :=
    fun _ _ _ => step_above_error closed
  rw [read_fst, read_fst]
  cases taken : lines.foldlM (step strict) start with
  | error error =>
    have failed := foldlM_eq_error_of_steps steps failures taken
    rw [above_start outside] at failed
    rw [failed]
    rfl
  | ok final =>
    have raised := foldlM_eq_ok_of_steps steps taken
    rw [above_start outside] at raised
    rw [raised]
    exact finish_above closed final

end Pass

/-! ### Programs -/

/-- Programs can be put together. Lines that are a program are read as its statements in front of
any other lines, and between an opener and an `end` they are read as the body of that block. What
comes after is read as by itself, and an error in it is the error of the whole. -/
theorem parseProgram_compositional {strict : Bool} {lines : List Line} {program : Program}
    (whole : (parseProgram strict lines).value = .ok program) (rest : List Line) :
    (parseProgram strict (lines ++ rest)).value =
        (parseProgram strict rest).value.map (program ++ ·) ∧
      ∀ (opener closer : Line) (header : Header), opener.classify = .ok (.opener header) →
        trim closer.text = "end" →
        (parseProgram strict ([opener] ++ lines ++ [closer] ++ rest)).value =
          (parseProgram strict rest).value.map (.block opener.number header program :: ·) := by
  rw [value_parseProgram] at whole
  simp only [value_parseProgram]
  constructor
  · obtain ⟨middle, taken, outside, closed, statements⟩ :=
      Pass.foldlM_of_read whole (rfl : Pass.start.record? = none)
    rw [Pass.read_append taken, Pass.read_of_closed outside closed, statements]
    rfl
  · intro opener closer header opens ends
    have pushed : Pass.start.step strict opener = .ok (Pass.start.push opener.number header) :=
      Pass.step_eq_iff.mpr (.opener rfl opens)
    obtain ⟨middle, taken, outside, blocks, statements⟩ := Pass.foldlM_of_read whole
      (rfl : (Pass.start.push opener.number header).record? = none)
    have closes := Line.classify_eq_closing_iff.mpr (Line.isEnd_iff.mpr ends)
    have popped : middle.step strict closer = .ok { middle with
        blocks := [], statements := [.block opener.number header program] } := by
      refine Pass.step_eq_iff.mpr (.closing outside closes ?_)
      simp [Pass.pop, blocks, statements, Pass.push, Pass.start]
    rw [List.append_assoc, List.append_assoc, List.singleton_append, Pass.read_cons_ok pushed,
      Pass.read_append taken, List.singleton_append, Pass.read_cons_ok popped]
    refine (Pass.read_of_closed ?_ ?_ rest).trans rfl
    · exact outside
    · rfl

/-- Lines with a record that has a field named `end`, and with a line that is no statement. -/
def recordLines : List Line :=
  [⟨1, "data point"⟩, ⟨2, "  end = 1"⟩, ⟨3, "end"⟩, ⟨4, "end of data"⟩, ⟨5, "show point.end"⟩]

/-- The program of these lines. -/
def recordProgram : Program :=
  [.record 1 "point" (Table.empty.insert "end" "1"), .print 5 "point.end"]

/-- The lines as they are, in front of a stray `end`, and as the body of a loop. -/
theorem parseProgram_recordLines :
    (parseProgram false recordLines).value = .ok recordProgram ∧
      (parseProgram false (recordLines ++ [⟨6, "end"⟩])).value = .error (.unexpectedEnd 6) ∧
      (parseProgram false ([⟨0, "loop 2"⟩] ++ recordLines ++ [⟨6, "\tend"⟩] ++
        [⟨7, "show 3"⟩])).value = .ok [.block 0 (.loop "2") recordProgram, .print 7 "3"] := by
  have whole : (parseProgram false recordLines).value = .ok recordProgram := rfl
  have opens : (⟨0, "loop 2"⟩ : Line).classify = .ok (.opener (.loop "2")) := rfl
  have ends : trim (⟨6, "\tend"⟩ : Line).text = "end" := by decide
  refine ⟨whole, (parseProgram_compositional whole _).1, ?_⟩
  exact (parseProgram_compositional whole [⟨7, "show 3"⟩]).2 _ _ _ opens ends

end LineScript
