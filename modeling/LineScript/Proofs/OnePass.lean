/-
This file proves that reading blocks by recursion is the same as one pass over the lines with a
stack. The reader of a program takes the statements of a block up to its `end` and calls itself for
every block inside. The pass looks at each line once, from the first to the last, and keeps the
blocks that are still open: an opener is put on the stack, an `end` takes the top of the stack off
and makes a statement of it, and whatever is left open when the lines run out is an error that
names the innermost block.

A record is no block like the others. Between its opener and its `end` every line is a field, so
nothing can be open inside it, and the pass keeps it apart from the stack.
-/

import LineScript.Proofs.Spelling

namespace LineScript

open Text

/-! ### The pass -/

/-- A block whose `end` is still to come, with the statements that stand before it in the block
around it. -/
structure OpenBlock where
  line : Nat
  header : Header
  before : List Stmt

/-- A record whose `end` is still to come. -/
structure OpenRecord where
  line : Nat
  name : String
  fields : Table String

/-- How far a pass has come: the open blocks, the innermost first, the statements of the innermost
one so far, the record that is open inside it, if one is, and the skipped lines, the latest
first. -/
structure Pass where
  blocks : List OpenBlock
  statements : List Stmt
  record? : Option OpenRecord
  skipped : List Line

namespace Pass

/-- The pass before the first line. -/
def start : Pass :=
  ⟨[], [], none, []⟩

/-- Adds a statement to the innermost block. -/
def add (pass : Pass) (stmt : Stmt) : Pass :=
  { pass with statements := pass.statements ++ [stmt] }

/-- Opens a block inside the innermost one. -/
def push (pass : Pass) (line : Nat) (header : Header) : Pass :=
  { pass with blocks := ⟨line, header, pass.statements⟩ :: pass.blocks, statements := [] }

/-- Closes the innermost block and gives its statements to its opener. -/
def pop (pass : Pass) (line : Nat) : Except StmtError Pass :=
  match pass.blocks with
  | [] => .error (.unexpectedEnd line)
  | block :: outer =>
    .ok { pass with
      blocks := outer
      statements := block.before ++ [.block block.line block.header pass.statements] }

/-- Takes a line inside a record: an `end` closes the record, any other line is a field. -/
def fieldStep (pass : Pass) (record : OpenRecord) (line : Line) : Except StmtError Pass :=
  if line.isEnd then
    .ok { pass.add (.record record.line record.name record.fields) with record? := none }
  else
    match binding line.number "data field" (trim line.text) (trim line.text) none with
    | .error error => .error error
    | .ok (field, expr) =>
      .ok { pass with record? := some { record with fields := record.fields.insert field expr } }

/-- Takes a line outside all records, by what it is read as. -/
def lineStep (strict : Bool) (pass : Pass) (line : Line) : Except StmtError Pass :=
  match line.classify with
  | .error error => .error error
  | .ok (.statement stmt) => .ok (pass.add stmt)
  | .ok (.opener header) => .ok (pass.push line.number header)
  | .ok (.recordOpener name) => .ok { pass with record? := some ⟨line.number, name, .empty⟩ }
  | .ok .closing => pass.pop line.number
  | .ok .unknown =>
    if strict then .error (.unknownStatement (trim line.text) line.number)
    else .ok { pass with skipped := line :: pass.skipped }

/-- Takes the next line. -/
def step (strict : Bool) (pass : Pass) (line : Line) : Except StmtError Pass :=
  match pass.record? with
  | some record => pass.fieldStep record line
  | none => pass.lineStep strict line

/-- The program, when no line is left. Whatever is still open is an error about the innermost. -/
def finish (pass : Pass) : Except StmtError Program :=
  match pass.record?, pass.blocks with
  | some record, _ => .error (.unterminatedBlock "data" record.line)
  | none, block :: _ => .error (.unterminatedBlock block.header.keyword block.line)
  | none, [] => .ok pass.statements

/-- Takes all lines. The result comes with the lines that were skipped before it was known, the
latest first. -/
def read (strict : Bool) : Pass → List Line → Except StmtError Program × List Line
  | pass, [] => (pass.finish, pass.skipped)
  | pass, line :: rest =>
    match pass.step strict line with
    | .error error => (.error error, pass.skipped)
    | .ok next => next.read strict rest

theorem read_cons_error {strict : Bool} {pass : Pass} {line : Line} {error : StmtError}
    (failed : pass.step strict line = .error error) (rest : List Line) :
    pass.read strict (line :: rest) = (.error error, pass.skipped) := by
  rw [read, failed]

theorem read_cons_ok {strict : Bool} {pass next : Pass} {line : Line}
    (taken : pass.step strict line = .ok next) (rest : List Line) :
    pass.read strict (line :: rest) = next.read strict rest := by
  rw [read, taken]

/-- The result of taking all lines is that of taking them one by one from left to right. -/
theorem read_fst (strict : Bool) (pass : Pass) (lines : List Line) :
    (pass.read strict lines).1 = lines.foldlM (step strict) pass >>= finish := by
  induction lines generalizing pass with
  | nil => rfl
  | cons line rest inductionHypothesis =>
    rw [List.foldlM_cons]
    cases taken : pass.step strict line with
    | error error =>
      rw [read_cons_error taken]
      rfl
    | ok next =>
      rw [read_cons_ok taken, inductionHypothesis]
      rfl

theorem finish_eq_ok {pass : Pass} {program : Program} :
    pass.finish = .ok program ↔
      pass.record? = none ∧ pass.blocks = [] ∧ pass.statements = program := by
  obtain ⟨blocks, statements, record?, skipped⟩ := pass
  cases record? with
  | some record => simp [finish]
  | none => cases blocks <;> simp [finish]

/-- What holds of a pass and is kept by every line holds of the pass that ends with the program. -/
theorem exists_of_read {holds : Pass → Prop} {strict : Bool} {lines : List Line}
    (steps : ∀ line ∈ lines, ∀ ⦃pass next⦄, holds pass → pass.step strict line = .ok next →
      holds next)
    {pass : Pass} (initial : holds pass) {program : Program}
    (finished : (pass.read strict lines).1 = .ok program) :
    ∃ final, holds final ∧ final.statements = program := by
  induction lines generalizing pass with
  | nil =>
    obtain ⟨-, -, same⟩ := finish_eq_ok.mp finished
    exact ⟨pass, initial, same⟩
  | cons line rest inductionHypothesis =>
    obtain ⟨first, others⟩ := List.forall_mem_cons.mp steps
    cases taken : pass.step strict line with
    | error error =>
      rw [read_cons_error taken] at finished
      cases finished
    | ok next =>
      rw [read_cons_ok taken] at finished
      exact inductionHypothesis others (first initial taken) finished

/-- All that a line can do to a pass. -/
inductive Takes (strict : Bool) (pass : Pass) (line : Line) : Except StmtError Pass → Prop
  | field {record : OpenRecord} {field expr : String} (inside : pass.record? = some record)
      (goes : line.isEnd = false)
      (read : binding line.number "data field" (trim line.text) (trim line.text) none =
        .ok (field, expr)) :
      Takes strict pass line (.ok { pass with
        record? := some { record with fields := record.fields.insert field expr } })
  | badField {record : OpenRecord} {error : StmtError} (inside : pass.record? = some record)
      (goes : line.isEnd = false)
      (read : binding line.number "data field" (trim line.text) (trim line.text) none =
        .error error) :
      Takes strict pass line (.error error)
  | endRecord {record : OpenRecord} (inside : pass.record? = some record)
      (ends : line.isEnd = true) :
      Takes strict pass line
        (.ok { pass.add (.record record.line record.name record.fields) with record? := none })
  | malformed {error : StmtError} (outside : pass.record? = none)
      (read : line.classify = .error error) : Takes strict pass line (.error error)
  | statement {stmt : Stmt} (outside : pass.record? = none)
      (read : line.classify = .ok (.statement stmt)) : Takes strict pass line (.ok (pass.add stmt))
  | opener {header : Header} (outside : pass.record? = none)
      (read : line.classify = .ok (.opener header)) :
      Takes strict pass line (.ok (pass.push line.number header))
  | recordOpener {name : String} (outside : pass.record? = none)
      (read : line.classify = .ok (.recordOpener name)) :
      Takes strict pass line (.ok { pass with record? := some ⟨line.number, name, .empty⟩ })
  | closing {result : Except StmtError Pass} (outside : pass.record? = none)
      (read : line.classify = .ok .closing) (popped : pass.pop line.number = result) :
      Takes strict pass line result
  | refused (outside : pass.record? = none) (read : line.classify = .ok .unknown)
      (isStrict : strict = true) :
      Takes strict pass line (.error (.unknownStatement (trim line.text) line.number))
  | skipped (outside : pass.record? = none) (read : line.classify = .ok .unknown)
      (permissive : strict = false) :
      Takes strict pass line (.ok { pass with skipped := line :: pass.skipped })

theorem Takes.step_eq {strict : Bool} {pass : Pass} {line : Line} {result : Except StmtError Pass}
    (takes : Takes strict pass line result) : pass.step strict line = result := by
  cases takes with
  | field inside goes read => simp [step, inside, fieldStep, goes, read]
  | badField inside goes read => simp [step, inside, fieldStep, goes, read]
  | endRecord inside ends => simp [step, inside, fieldStep, ends]
  | malformed outside read => simp [step, outside, lineStep, read]
  | statement outside read => simp [step, outside, lineStep, read]
  | opener outside read => simp [step, outside, lineStep, read]
  | recordOpener outside read => simp [step, outside, lineStep, read]
  | closing outside read popped => simp [step, outside, lineStep, read, popped]
  | refused outside read isStrict => simp [step, outside, lineStep, read, isStrict]
  | skipped outside read permissive => simp [step, outside, lineStep, read, permissive]

theorem exists_takes (strict : Bool) (pass : Pass) (line : Line) :
    ∃ result, Takes strict pass line result := by
  cases record : pass.record? with
  | some record =>
    cases ends : line.isEnd with
    | true => exact ⟨_, .endRecord record ends⟩
    | false =>
      cases read : binding line.number "data field" (trim line.text) (trim line.text) none with
      | error error => exact ⟨_, .badField record ends read⟩
      | ok parts => exact ⟨_, .field record ends read⟩
  | none =>
    cases read : line.classify with
    | error error => exact ⟨_, .malformed record read⟩
    | ok kind =>
      cases kind with
      | statement stmt => exact ⟨_, .statement record read⟩
      | opener header => exact ⟨_, .opener record read⟩
      | recordOpener name => exact ⟨_, .recordOpener record read⟩
      | closing => exact ⟨_, .closing record read rfl⟩
      | unknown =>
        cases strict with
        | true => exact ⟨_, .refused record read rfl⟩
        | false => exact ⟨_, .skipped record read rfl⟩

/-- A step does what a line can do, and nothing else. -/
theorem step_eq_iff {strict : Bool} {pass : Pass} {line : Line} {result : Except StmtError Pass} :
    pass.step strict line = result ↔ Takes strict pass line result := by
  constructor
  · rintro rfl
    obtain ⟨result, takes⟩ := exists_takes strict pass line
    rw [takes.step_eq]
    exact takes
  · exact Takes.step_eq

/-- The pass with statements added to the innermost block, and other lines skipped. -/
def extend (pass : Pass) (statements : List Stmt) (skipped : List Line) : Pass :=
  { pass with statements := pass.statements ++ statements, skipped := skipped }

theorem extend_extend (pass : Pass) (first second : List Stmt) (skipped later : List Line) :
    (pass.extend first skipped).extend second later = pass.extend (first ++ second) later := by
  unfold extend
  rw [List.append_assoc]

theorem extend_nil (pass : Pass) : pass.extend [] pass.skipped = pass := by
  unfold extend
  rw [List.append_nil]

end Pass

/-! ### The reader of blocks, step by step -/

section Reader

variable {strict : Bool} {fuel : Nat} {line : Line} {rest skipped : List Line}

theorem blockOf_nil : blockOf strict fuel ⟨[], skipped⟩ = .ok [] ⟨[], skipped⟩ := by
  cases fuel <;> rfl

theorem blockOf_end (ends : line.isEnd = true) :
    blockOf strict (fuel + 1) ⟨line :: rest, skipped⟩ = .ok [] ⟨line :: rest, skipped⟩ := by
  have stops : goesOn ⟨line :: rest, skipped⟩ = .ok false ⟨line :: rest, skipped⟩ := by
    show EStateM.Result.ok (!line.isEnd) _ = _
    rw [ends]
    rfl
  rw [blockOf, bind_apply, stops]
  rfl

theorem blockOf_cons (goes : line.isEnd = false) :
    blockOf strict (fuel + 1) ⟨line :: rest, skipped⟩ =
      (statementAt strict (blockOf strict fuel) line >>= fun first =>
        blockOf strict fuel >>= fun others => pure (first.toList ++ others)) ⟨rest, skipped⟩ := by
  have continues : goesOn ⟨line :: rest, skipped⟩ = .ok true ⟨line :: rest, skipped⟩ := by
    show EStateM.Result.ok (!line.isEnd) _ = _
    rw [goes]
    rfl
  have taken : takeLine ⟨line :: rest, skipped⟩ = .ok (some line) ⟨rest, skipped⟩ := rfl
  rw [blockOf, bind_apply, continues]
  simp only [if_true]
  rw [bind_apply, taken]

section Statement

variable {body : LineReader (List Stmt)} {progress : Progress}

theorem statementAt_error {error : StmtError} (read : line.classify = .error error) :
    statementAt strict body line progress = .error error progress := by
  unfold statementAt
  rw [read]
  rfl

theorem statementAt_statement {stmt : Stmt} (read : line.classify = .ok (.statement stmt)) :
    statementAt strict body line progress = .ok (some stmt) progress := by
  unfold statementAt
  rw [read]
  rfl

theorem statementAt_opener {header : Header} (read : line.classify = .ok (.opener header)) :
    statementAt strict body line progress =
      (body >>= fun statements => takeEnd header.keyword line.number >>= fun _ =>
        pure (some (.block line.number header statements))) progress := by
  unfold statementAt
  rw [read]

theorem statementAt_recordOpener {name : String} (read : line.classify = .ok (.recordOpener name)) :
    statementAt strict body line progress =
      (takeFields line.number >>= fun fields =>
        pure (some (.record line.number name fields))) progress := by
  unfold statementAt
  rw [read]

theorem statementAt_closing (read : line.classify = .ok .closing) :
    statementAt strict body line progress = .error (.unexpectedEnd line.number) progress := by
  unfold statementAt
  rw [read]
  rfl

theorem statementAt_unknown (read : line.classify = .ok .unknown) :
    statementAt strict body line progress =
      (skipLine strict line >>= fun _ => pure none) progress := by
  unfold statementAt
  rw [read]

end Statement

theorem takeFields_apply (opener : Nat) :
    takeFields opener ⟨rest, skipped⟩ =
      match recordFields opener .empty rest with
      | .error error => .error error ⟨rest, skipped⟩
      | .ok (fields, after) => .ok fields ⟨after, skipped⟩ := by
  rw [takeFields, bind_apply, get_apply]
  simp only
  cases recordFields opener .empty rest <;> rfl

theorem skipLine_apply :
    skipLine strict line ⟨rest, skipped⟩ =
      if strict then .error (.unknownStatement (trim line.text) line.number) ⟨rest, skipped⟩
      else .ok () ⟨rest, line :: skipped⟩ := by
  cases strict <;> rfl

end Reader

/-! ### Where the reader stops -/

theorem recordFields_suffix {opener : Nat} {fields taken : Table String} {lines after : List Line}
    (read : recordFields opener fields lines = .ok (taken, after)) : after <:+ lines := by
  induction lines generalizing fields with
  | nil => cases read
  | cons line rest inductionHypothesis =>
    rw [recordFields] at read
    split at read
    · cases read
      exact List.suffix_cons line _
    · simp only at read
      split at read
      · cases read
      · exact (inductionHypothesis read).trans (List.suffix_cons line rest)

theorem statementAt_suffix {strict : Bool} {body : LineReader (List Stmt)} {line : Line}
    {progress last : Progress} {first : Option Stmt}
    (inside : ∀ {statements middle}, body progress = .ok statements middle →
      middle.ahead <:+ progress.ahead)
    (read : statementAt strict body line progress = .ok first last) :
    last.ahead <:+ progress.ahead := by
  obtain ⟨ahead, skipped⟩ := progress
  cases reading : line.classify with
  | error error =>
    rw [statementAt_error reading] at read
    cases read
  | ok kind =>
    cases kind with
    | statement stmt =>
      rw [statementAt_statement reading] at read
      cases read
      exact List.suffix_rfl
    | opener header =>
      rw [statementAt_opener reading] at read
      obtain ⟨statements, ⟨middle, passed⟩, bodyRead, others⟩ := bind_eq_ok.mp read
      obtain ⟨_, after, ended, same⟩ := bind_eq_ok.mp others
      cases middle with
      | nil => cases ended
      | cons closer rest =>
        cases ended
        cases same
        exact (List.suffix_cons closer rest).trans (inside bodyRead)
    | recordOpener name =>
      rw [statementAt_recordOpener reading] at read
      obtain ⟨fields, after, fieldsRead, same⟩ := bind_eq_ok.mp read
      cases same
      rw [takeFields_apply] at fieldsRead
      split at fieldsRead
      · cases fieldsRead
      · rename_i taken
        cases fieldsRead
        exact recordFields_suffix taken
    | closing =>
      rw [statementAt_closing reading] at read
      cases read
    | unknown =>
      rw [statementAt_unknown reading] at read
      obtain ⟨_, after, skip, same⟩ := bind_eq_ok.mp read
      cases same
      rw [skipLine_apply] at skip
      split at skip
      · cases skip
      · cases skip
        exact List.suffix_rfl

/-- With fuel for all lines, the statements of a block end before an `end` or at the last line. -/
theorem blockOf_stops {strict : Bool} {fuel : Nat} {progress last : Progress}
    {statements : List Stmt} (enough : progress.ahead.length ≤ fuel)
    (read : blockOf strict fuel progress = .ok statements last) :
    last.ahead <:+ progress.ahead ∧ ∀ line ∈ last.ahead.head?, line.isEnd = true := by
  induction fuel generalizing progress last statements with
  | zero =>
    obtain ⟨ahead, skipped⟩ := progress
    obtain rfl : ahead = [] := List.eq_nil_of_length_eq_zero (Nat.le_zero.mp enough)
    cases read
    exact ⟨List.suffix_rfl, by simp⟩
  | succ fuel inductionHypothesis =>
    obtain ⟨ahead, skipped⟩ := progress
    cases ahead with
    | nil =>
      rw [blockOf_nil] at read
      cases read
      exact ⟨List.suffix_rfl, by simp⟩
    | cons line rest =>
      have shorter : rest.length ≤ fuel := Nat.le_of_succ_le_succ enough
      cases ends : line.isEnd with
      | true =>
        rw [blockOf_end ends] at read
        cases read
        exact ⟨List.suffix_rfl, by simpa using ends⟩
      | false =>
        rw [blockOf_cons ends] at read
        obtain ⟨first, middle, firstRead, others⟩ := bind_eq_ok.mp read
        obtain ⟨more, after, moreRead, same⟩ := bind_eq_ok.mp others
        cases same
        have firstSuffix : middle.ahead <:+ rest :=
          statementAt_suffix (fun inner => (inductionHypothesis shorter inner).1) firstRead
        obtain ⟨moreSuffix, stops⟩ :=
          inductionHypothesis (firstSuffix.length_le.trans shorter) moreRead
        exact ⟨(moreSuffix.trans firstSuffix).trans (List.suffix_cons line rest), stops⟩

/-! ### The pass follows the reader -/

/-- Where the pass goes when a reader came to a result: it fails with the same error, or it goes on
after the lines that were taken, with the statements that were read. -/
def Pass.resume {α : Type} (strict : Bool) (pass : Pass) (statements : α → List Stmt) :
    EStateM.Result StmtError Progress α → Except StmtError Program × List Line
  | .error error last => (.error error, last.skipped)
  | .ok value last => (pass.extend (statements value) last.skipped).read strict last.ahead

/-- Inside a record the pass takes the fields that the reader of records takes. -/
theorem Pass.read_record (strict : Bool) (pass : Pass) (record : OpenRecord) (lines : List Line) :
    ({ pass with record? := some record }).read strict lines =
      match recordFields record.line record.fields lines with
      | .error error => (.error error, pass.skipped)
      | .ok (fields, after) =>
        ({ pass.add (.record record.line record.name fields) with record? := none }).read
          strict after := by
  induction lines generalizing record with
  | nil => rfl
  | cons line rest inductionHypothesis =>
    rw [recordFields]
    cases ends : line.isEnd with
    | true =>
      rw [if_pos rfl]
      refine Pass.read_cons_ok ?_ rest
      simp only [Pass.step, Pass.fieldStep, ends, if_true]
      rfl
    | false =>
      rw [if_neg Bool.false_ne_true]
      simp only
      cases field : binding line.number "data field" (trim line.text) (trim line.text) none with
      | error error =>
        refine Pass.read_cons_error ?_ rest
        simp only [Pass.step, Pass.fieldStep, ends, field, Bool.false_eq_true, if_false]
      | ok parts =>
        rw [← inductionHypothesis { record with fields := record.fields.insert parts.1 parts.2 }]
        refine Pass.read_cons_ok ?_ rest
        simp only [Pass.step, Pass.fieldStep, ends, field, Bool.false_eq_true, if_false]

/-- The pass follows the reader through one statement, if it follows it through the blocks inside.
The `end` of a block makes the pass take it off the stack; where there is none, the block is the
innermost that is open. -/
theorem Pass.read_statementAt {strict : Bool} {fuel : Nat} {line : Line} {rest : List Line}
    (enough : rest.length ≤ fuel) (goes : line.isEnd = false) (pass : Pass)
    (outside : pass.record? = none)
    (inside : ∀ inner : Pass, inner.record? = none →
      inner.read strict rest = inner.resume strict id (blockOf strict fuel ⟨rest, inner.skipped⟩)) :
    pass.read strict (line :: rest) = pass.resume strict Option.toList
      (statementAt strict (blockOf strict fuel) line ⟨rest, pass.skipped⟩) := by
  have stepped : pass.step strict line = pass.lineStep strict line := by
    rw [Pass.step, outside]
  cases reading : line.classify with
  | error error =>
    rw [statementAt_error reading]
    refine Pass.read_cons_error ?_ rest
    rw [stepped, Pass.lineStep, reading]
  | ok kind =>
    cases kind with
    | statement stmt =>
      rw [statementAt_statement reading]
      refine Pass.read_cons_ok ?_ rest
      rw [stepped, Pass.lineStep, reading]
      rfl
    | opener header =>
      rw [statementAt_opener reading, bind_apply]
      have pushed : pass.read strict (line :: rest) =
          (pass.push line.number header).read strict rest := by
        refine Pass.read_cons_ok ?_ rest
        rw [stepped, Pass.lineStep, reading]
      have follows : (pass.push line.number header).read strict rest =
          (pass.push line.number header).resume strict id
            (blockOf strict fuel ⟨rest, pass.skipped⟩) := inside _ outside
      cases bodyRead : blockOf strict fuel ⟨rest, pass.skipped⟩ with
      | error error middle =>
        rw [bodyRead] at follows
        exact pushed.trans follows
      | ok statements middle =>
        rw [bodyRead] at follows
        obtain ⟨-, stops⟩ := blockOf_stops enough bodyRead
        obtain ⟨ahead, skipped⟩ := middle
        cases ahead with
        | nil =>
          refine (pushed.trans follows).trans ?_
          rw [Pass.resume, Pass.read, Pass.finish]
          simp only [Pass.extend, Pass.push, outside]
          rfl
        | cons closer after =>
          have closes := Line.classify_eq_closing_iff.mpr (stops closer rfl)
          refine (pushed.trans follows).trans (Pass.read_cons_ok ?_ after)
          simp only [Pass.step, Pass.lineStep, Pass.extend, Pass.push, outside, closes, Pass.pop]
          rfl
    | recordOpener name =>
      rw [statementAt_recordOpener reading, bind_apply, takeFields_apply]
      have opened : pass.read strict (line :: rest) =
          ({ pass with record? := some ⟨line.number, name, .empty⟩ }).read strict rest := by
        refine Pass.read_cons_ok ?_ rest
        rw [stepped, Pass.lineStep, reading]
      rw [Pass.read_record] at opened
      cases fieldsRead : recordFields line.number .empty rest with
      | error error =>
        simp only [fieldsRead] at opened
        exact opened
      | ok taken =>
        simp only [fieldsRead] at opened
        refine opened.trans ?_
        rw [← outside]
        rfl
    | closing =>
      have ends := Line.classify_eq_closing_iff.mp reading
      rw [goes] at ends
      cases ends
    | unknown =>
      rw [statementAt_unknown reading, bind_apply, skipLine_apply]
      cases strict with
      | true =>
        refine Pass.read_cons_error ?_ rest
        rw [stepped, Pass.lineStep, reading]
        rfl
      | false =>
        refine Pass.read_cons_ok ?_ rest
        rw [stepped, Pass.lineStep, reading]
        simp only [Bool.false_eq_true, if_false, Pass.extend, Option.toList, List.append_nil]

/-- The pass follows the reader of blocks, whatever is open around the block. -/
theorem Pass.read_blockOf (strict : Bool) {fuel : Nat} {lines : List Line}
    (enough : lines.length ≤ fuel) (pass : Pass) (outside : pass.record? = none) :
    pass.read strict lines = pass.resume strict id (blockOf strict fuel ⟨lines, pass.skipped⟩) := by
  induction fuel generalizing lines pass with
  | zero =>
    obtain rfl : lines = [] := List.eq_nil_of_length_eq_zero (Nat.le_zero.mp enough)
    exact congrArg (Pass.read strict · []) pass.extend_nil.symm
  | succ fuel inductionHypothesis =>
    cases lines with
    | nil =>
      rw [blockOf_nil]
      exact congrArg (Pass.read strict · []) pass.extend_nil.symm
    | cons line rest =>
      have shorter : rest.length ≤ fuel := Nat.le_of_succ_le_succ enough
      cases ends : line.isEnd with
      | true =>
        rw [blockOf_end ends]
        exact congrArg (Pass.read strict · (line :: rest)) pass.extend_nil.symm
      | false =>
        rw [blockOf_cons ends, bind_apply]
        have follows :=
          Pass.read_statementAt shorter ends pass outside (inductionHypothesis shorter)
        cases firstRead : statementAt strict (blockOf strict fuel) line ⟨rest, pass.skipped⟩ with
        | error error middle =>
          rw [firstRead] at follows
          exact follows
        | ok first middle =>
          rw [firstRead] at follows
          have suffix : middle.ahead <:+ rest :=
            statementAt_suffix (fun inner => (blockOf_stops shorter inner).1) firstRead
          have others : (pass.extend first.toList middle.skipped).read strict middle.ahead =
              (pass.extend first.toList middle.skipped).resume strict id
                (blockOf strict fuel middle) :=
            inductionHypothesis (suffix.length_le.trans shorter) _ outside
          simp only
          rw [bind_apply]
          cases moreRead : blockOf strict fuel middle with
          | error error last =>
            rw [moreRead] at others
            exact follows.trans others
          | ok more last =>
            rw [moreRead] at others
            refine (follows.trans others).trans ?_
            rw [Pass.resume, Pass.extend_extend]
            rfl

/-! ### Programs -/

/-- The notices about the result of a pass and the lines it skipped. -/
def passNotices (result : Except StmtError Program) (skipped : List Line) : List Notice :=
  skipped.reverse.map Line.skipNotice ++
    match result with
    | .error _ => []
    | .ok program => [.parsed program.length]

/-- Reading a program by blocks gives the result of one pass over its lines, and tells of the lines
that the pass skips. -/
theorem parseProgram_eq_read (strict : Bool) (lines : List Line) :
    parseProgram strict lines =
      ⟨(Pass.start.read strict lines).1,
        passNotices (Pass.start.read strict lines).1 (Pass.start.read strict lines).2⟩ := by
  have follows : Pass.start.read strict lines =
      Pass.start.resume strict id (blockOf strict lines.length ⟨lines, []⟩) :=
    Pass.read_blockOf strict (Nat.le_refl lines.length) Pass.start rfl
  unfold parseProgram blockAt readAt
  rw [List.drop_zero, Nat.sub_zero]
  simp only [EStateM.run]
  cases blockRead : blockOf strict lines.length ⟨lines, []⟩ with
  | error error last =>
    rw [blockRead] at follows
    simp only [Pass.resume] at follows
    simp only [follows, passNotices, List.append_nil]
  | ok statements last =>
    rw [blockRead] at follows
    simp only [Pass.resume] at follows
    have enough : (⟨lines, []⟩ : Progress).ahead.length ≤ lines.length := Nat.le_refl _
    obtain ⟨⟨front, whole⟩, stops⟩ := blockOf_stops enough blockRead
    obtain ⟨ahead, skipped⟩ := last
    have next : lines[0 + (lines.length - ahead.length)]? = ahead.head? := by
      simp only at whole
      rw [← whole, List.length_append, Nat.add_sub_cancel, Nat.zero_add,
        List.getElem?_append_right (Nat.le_refl _), Nat.sub_self, List.head?_eq_getElem?]
    simp only [next, follows]
    cases ahead with
    | nil => rfl
    | cons stray after =>
      have closes := Line.classify_eq_closing_iff.mpr (stops stray rfl)
      have failed : (Pass.start.extend statements skipped).step strict stray =
          .error (.unexpectedEnd stray.number) := by
        simp only [Pass.step, Pass.lineStep, Pass.extend, Pass.start, closes, Pass.pop]
      simp only [id, Pass.read_cons_error failed, passNotices, List.append_nil]
      rfl

theorem value_parseProgram (strict : Bool) (lines : List Line) :
    (parseProgram strict lines).value = (Pass.start.read strict lines).1 := by
  rw [parseProgram_eq_read]

/-- Reading a program by blocks, each up to its own `end`, gives exactly the program or the error
of a single pass over the lines from left to right that keeps a stack of the open blocks: `step`
says what one line does to the stack, and `finish` what is left open at the end. -/
theorem parseProgram_one_pass (strict : Bool) (lines : List Line) :
    (parseProgram strict lines).value =
      lines.foldlM (Pass.step strict) Pass.start >>= Pass.finish := by
  rw [parseProgram_eq_read, Pass.read_fst]

end LineScript
