/-
This file proves that the reader of programs does nothing with line numbers but copy them. If the
lines of a source get other numbers, and the blanks around them are taken away, then the program
that is read has the same statements in the same blocks with the other numbers in them, and an error
is the same error with another number in it.

It is enough to follow one line through the pass with the stack: a number goes from a line into a
statement, an open block or an error, and no step looks at it on the way.
-/

import LineScript.Proofs.OnePass

namespace LineScript

open Text

/-! ### Other numbers -/

/-- A line with another number and without the blanks around it. -/
def Line.placed (place : Nat → Nat) (line : Line) : Line :=
  ⟨place line.number, trim line.text⟩

mutual

/-- A statement with other line numbers, at any depth. -/
def Stmt.renumbered (place : Nat → Nat) : Stmt → Stmt
  | .print line expr => .print (place line) expr
  | .assign line name expr => .assign (place line) name expr
  | .record line name fields => .record (place line) name fields
  | .block line header body => .block (place line) header (Stmt.allRenumbered place body)

/-- Statements with other line numbers, at any depth. -/
def Stmt.allRenumbered (place : Nat → Nat) : List Stmt → List Stmt
  | [] => []
  | first :: rest => first.renumbered place :: Stmt.allRenumbered place rest

end

/-- An error about another line. -/
def StmtError.renumbered (place : Nat → Nat) : StmtError → StmtError
  | .unterminatedBlock keyword line => .unterminatedBlock keyword (place line)
  | .missingSeparator construct text line => .missingSeparator construct text (place line)
  | .missingOperand keyword expected line => .missingOperand keyword expected (place line)
  | .invalidName name line => .invalidName name (place line)
  | .trailingInput keyword text line => .trailingInput keyword text (place line)
  | .unexpectedEnd line => .unexpectedEnd (place line)
  | .unknownStatement text line => .unknownStatement text (place line)

/-- What is read from a line with another number. -/
def Reading.renumbered (place : Nat → Nat) : Reading → Reading
  | .statement stmt => .statement (stmt.renumbered place)
  | .opener header => .opener header
  | .recordOpener name => .recordOpener name
  | .closing => .closing
  | .unknown => .unknown

/-- A result with other numbers, where `change` gives a value its other numbers. -/
def renumberedResult {α : Type} (place : Nat → Nat) (change : α → α) :
    Except StmtError α → Except StmtError α
  | .ok value => .ok (change value)
  | .error error => .error (error.renumbered place)

theorem Stmt.allRenumbered_eq_map (place : Nat → Nat) (statements : List Stmt) :
    Stmt.allRenumbered place statements = statements.map (Stmt.renumbered place) := by
  induction statements with
  | nil => rfl
  | cons first rest inductionHypothesis =>
    exact congrArg (first.renumbered place :: ·) inductionHypothesis

theorem Stmt.allRenumbered_append (place : Nat → Nat) (first second : List Stmt) :
    Stmt.allRenumbered place (first ++ second) =
      Stmt.allRenumbered place first ++ Stmt.allRenumbered place second := by
  simp only [Stmt.allRenumbered_eq_map, List.map_append]

/-! ### Single lines -/

section Parts

variable (place : Nat → Nat) (number : Nat)

theorem renumberedResult_bind {α β : Type} (change : β → β) (first : Except StmtError α)
    (next : α → Except StmtError β) :
    renumberedResult place change (first >>= next) =
      renumberedResult place id first >>= fun value =>
        renumberedResult place change (next value) := by
  cases first <;> rfl

theorem required_renumbered (keyword expected text : String) :
    renumberedResult place id (required number keyword expected text) =
      required (place number) keyword expected text := by
  unfold required
  split <;> rfl

theorem noTrailing_renumbered (keyword text : String) :
    renumberedResult place id (noTrailing number keyword text) =
      noTrailing (place number) keyword text := by
  unfold noTrailing
  split <;> rfl

theorem validName_renumbered (name : String) :
    renumberedResult place id (validName number name) = validName (place number) name := by
  unfold validName
  split <;> rfl

theorem singleOperand_renumbered (keyword expected rest : String) :
    renumberedResult place id (singleOperand number keyword expected rest) =
      singleOperand (place number) keyword expected rest := by
  simp only [singleOperand, renumberedResult_bind, required_renumbered, noTrailing_renumbered]
  rfl

theorem binding_renumbered (construct whole text : String) (keyword? : Option String) :
    renumberedResult place id (binding number construct whole text keyword?) =
      binding (place number) construct whole text keyword? := by
  unfold binding
  cases splitAtEquals? text with
  | none => rfl
  | some parts =>
    simp only [renumberedResult_bind, validName_renumbered, required_renumbered]
    rfl

end Parts

theorem Line.trim_placed (place : Nat → Nat) (line : Line) :
    trim (line.placed place).text = trim line.text :=
  trim_trim line.text

theorem Line.isEnd_placed (place : Nat → Nat) (line : Line) :
    (line.placed place).isEnd = line.isEnd := by
  rw [Line.isEnd, Line.isEnd, Line.trim_placed]

/-- A line is read as the same thing whatever its number. -/
theorem Line.classify_placed (place : Nat → Nat) (line : Line) :
    (line.placed place).classify =
      renumberedResult place (Reading.renumbered place) line.classify := by
  unfold Line.classify
  rw [Line.trim_placed]
  rcases words : firstWord (trim line.text) with ⟨keyword, rest⟩
  rcases more : firstWord rest with ⟨second, others⟩
  simp only [words, more]
  -- One case for each keyword, in the order of the classification. The parts of a line keep only
  -- the number of the line for their errors.
  split
  · rw [renumberedResult_bind, required_renumbered]
    rfl
  · rw [renumberedResult_bind, binding_renumbered]
    rfl
  · rw [renumberedResult_bind, required_renumbered]
    rfl
  · rw [renumberedResult_bind, singleOperand_renumbered]
    rfl
  · simp only [renumberedResult_bind, singleOperand_renumbered, validName_renumbered]
    rfl
  · split
    · rw [renumberedResult_bind, noTrailing_renumbered]
      rfl
    · rfl
  · rw [renumberedResult_bind, singleOperand_renumbered]
    rfl
  · rw [renumberedResult_bind, singleOperand_renumbered]
    rfl
  · rw [renumberedResult_bind, noTrailing_renumbered]
    rfl
  · split
    · rw [renumberedResult_bind, singleOperand_renumbered]
      rfl
    · rfl
  · rw [renumberedResult_bind, singleOperand_renumbered]
    rfl
  · split <;> rfl
  · rfl

/-! ### The pass -/

namespace Pass

/-- A pass over lines with other numbers. -/
def renumbered (place : Nat → Nat) (pass : Pass) : Pass where
  blocks := pass.blocks.map fun block =>
    ⟨place block.line, block.header, Stmt.allRenumbered place block.before⟩
  statements := Stmt.allRenumbered place pass.statements
  record? := pass.record?.map fun record => { record with line := place record.line }
  skipped := pass.skipped.map (Line.placed place)

variable (place : Nat → Nat)

theorem add_renumbered (pass : Pass) (stmt : Stmt) :
    (pass.add stmt).renumbered place = (pass.renumbered place).add (stmt.renumbered place) := by
  unfold renumbered add
  rw [Stmt.allRenumbered_append]
  rfl

theorem pop_renumbered (pass : Pass) (line : Nat) :
    (pass.renumbered place).pop (place line) =
      renumberedResult place (renumbered place) (pass.pop line) := by
  obtain ⟨blocks, statements, record?, skipped⟩ := pass
  cases blocks with
  | nil => rfl
  | cons block outer =>
    simp only [pop, renumbered, renumberedResult, List.map_cons, Stmt.allRenumbered_append]
    rfl

theorem finish_renumbered (pass : Pass) :
    (pass.renumbered place).finish =
      renumberedResult place (Stmt.allRenumbered place) pass.finish := by
  obtain ⟨blocks, statements, record?, skipped⟩ := pass
  cases record? <;> cases blocks <;> rfl

/-- A line with another number does to a pass over other numbers what the line does to the pass. -/
theorem step_renumbered (strict : Bool) (pass : Pass) (line : Line) :
    (pass.renumbered place).step strict (line.placed place) =
      renumberedResult place (renumbered place) (pass.step strict line) := by
  obtain ⟨result, takes⟩ := exists_takes strict pass line
  rw [takes.step_eq]
  have outside (found : pass.record? = none) : (pass.renumbered place).record? = none := by
    rw [renumbered, found]
    rfl
  have inside {record : OpenRecord} (found : pass.record? = some record) :
      (pass.renumbered place).record? = some { record with line := place record.line } := by
    rw [renumbered, found]
    rfl
  have goes := line.isEnd_placed place
  have reads {reading : Except StmtError Reading} (read : line.classify = reading) :
      (line.placed place).classify = renumberedResult place (Reading.renumbered place) reading := by
    rw [← read, Line.classify_placed]
  have binds {result : Except StmtError (String × String)}
      (read : binding line.number "data field" (trim line.text) (trim line.text) none = result) :
      binding (line.placed place).number "data field" (trim (line.placed place).text)
        (trim (line.placed place).text) none = renumberedResult place id result := by
    rw [← read, Line.trim_placed, binding_renumbered]
    rfl
  refine step_eq_iff.mpr ?_
  cases takes with
  | field record more read => exact .field (inside record) (goes.trans more) (binds read)
  | badField record more read => exact .badField (inside record) (goes.trans more) (binds read)
  | @endRecord record found ends =>
    have closed : Takes strict (pass.renumbered place) (line.placed place) _ :=
      .endRecord (inside found) (goes.trans ends)
    have added := pass.add_renumbered place (.record record.line record.name record.fields)
    rw [Stmt.renumbered] at added
    rw [← added] at closed
    exact closed
  | malformed found read => exact .malformed (outside found) (reads read)
  | @statement stmt found read =>
    have taken : Takes strict (pass.renumbered place) (line.placed place) _ :=
      .statement (outside found) (reads read)
    rw [← add_renumbered] at taken
    exact taken
  | opener found read => exact .opener (outside found) (reads read)
  | recordOpener found read => exact .recordOpener (outside found) (reads read)
  | closing found read popped =>
    refine .closing (outside found) (reads read) ?_
    rw [← popped, ← pop_renumbered]
    rfl
  | refused found read isStrict =>
    have refuses : Takes strict (pass.renumbered place) (line.placed place) _ :=
      .refused (outside found) (reads read) isStrict
    rw [Line.trim_placed] at refuses
    exact refuses
  | skipped found read permissive => exact .skipped (outside found) (reads read) permissive

end Pass

/-! ### Programs -/

/-- Lines with other numbers, and with no blanks around them, are the same program or the same
error with the other numbers. -/
theorem parseProgram_placed (place : Nat → Nat) (strict : Bool) (lines : List Line) :
    (parseProgram strict (lines.map (Line.placed place))).value =
      renumberedResult place (Stmt.allRenumbered place) (parseProgram strict lines).value := by
  have start : Pass.start = Pass.start.renumbered place := rfl
  rw [value_parseProgram, value_parseProgram, Pass.read_fst, Pass.read_fst, List.foldlM_map]
  have steps : ∀ (pass : Pass) (line : Line) (next : Pass), pass.step strict line = .ok next →
      (pass.renumbered place).step strict (line.placed place) = .ok (next.renumbered place) := by
    intro pass line next taken
    rw [Pass.step_renumbered, taken]
    rfl
  have failures : ∀ (pass : Pass) (line : Line) (error : StmtError),
      pass.step strict line = .error error →
      (pass.renumbered place).step strict (line.placed place) =
        .error (error.renumbered place) := by
    intro pass line error failed
    rw [Pass.step_renumbered, failed]
    rfl
  cases ran : lines.foldlM (Pass.step strict) Pass.start with
  | ok final =>
    rw [start, foldlM_eq_ok_of_steps steps ran]
    exact Pass.finish_renumbered place final
  | error error =>
    rw [start, foldlM_eq_error_of_steps steps failures ran]
    rfl

end LineScript
