/-
This file says how far the reading of statements reaches. The statements of a block are read from an
index on, and each statement says at which index the next one starts; a statement that opens a block
reads that block in turn, from the index after its own. `Returns` gives the rules of this recursion,
one call by another, with nothing that bounds its depth. Every call has exactly one result by these
rules, which is the result of the readers, so the recursion ends on all lines and from every index,
also from one in the middle of a block.

By induction on the rules, a statement ends after the index it starts at and a block not before it,
and neither passes the last line. A block stops at an `end` or after the last line. Which `end` that
is can be told from the statements on the way: `Visits` reaches the statements of the block and
those inside them, each `end` before the stop closes one of them, and none of them is closed at the
stop or after it.
-/

import LineScript.Proofs.OnePass

namespace LineScript

open Text

/-! ### The recursion by its calls -/

/-- A call of the reader: for the statements of a block from an index on, or for the statement at
an index. -/
inductive Call where
  | block (start : Nat)
  | statement (index : Nat)

/-- The statements a call has found, with those of the call that goes on where it ended. -/
def ReadAt.before (first others : ReadAt (List Stmt)) : ReadAt (List Stmt) :=
  ⟨first.value ++ others.value, others.next⟩

/-- A statement, or the lack of one, as a list. -/
def ReadAt.listed (read : ReadAt (Option Stmt)) : ReadAt (List Stmt) :=
  ⟨read.value.toList, read.next⟩

/-- What the line at an index gives without a further call: `none` if it opens a block. -/
def standalone? (strict : Bool) (lines : List Line) (index : Nat) (line : Line) :
    Option (Except StmtError (ReadAt (List Stmt))) :=
  match line.classify with
  | .error error => some (.error error)
  | .ok (.statement stmt) => some (.ok ⟨[stmt], index + 1⟩)
  | .ok (.opener _) => none
  | .ok (.recordOpener name) =>
    some ((recordFields line.number .empty (lines.drop (index + 1))).map fun taken =>
      ⟨[.record line.number name taken.1], lines.length - taken.2.length⟩)
  | .ok .closing => some (.error (.unexpectedEnd line.number))
  | .ok .unknown =>
    some (if strict then .error (.unknownStatement (trim line.text) line.number)
      else .ok ⟨[], index + 1⟩)

/-- Closes a block whose statements have been read: there has to be a line where they stopped. -/
def closeBlock (lines : List Line) (line : Line) (header : Header) (body : ReadAt (List Stmt)) :
    Except StmtError (ReadAt (List Stmt)) :=
  if body.next < lines.length then
    .ok ⟨[.block line.number header body.value], body.next + 1⟩
  else .error (.unterminatedBlock header.keyword line.number)

/-- What a call returns, by the results of the calls it makes. -/
inductive Returns (strict : Bool) (lines : List Line) :
    Call → Except StmtError (ReadAt (List Stmt)) → Prop
  | stop {start : Nat} (stops : ∀ line, lines[start]? = some line → line.isEnd = true) :
      Returns strict lines (.block start) (.ok ⟨[], start⟩)
  | failed {start : Nat} {line : Line} {error : StmtError} (here : lines[start]? = some line)
      (goes : line.isEnd = false) (head : Returns strict lines (.statement start) (.error error)) :
      Returns strict lines (.block start) (.error error)
  | further {start : Nat} {line : Line} {first : ReadAt (List Stmt)}
      {result : Except StmtError (ReadAt (List Stmt))} (here : lines[start]? = some line)
      (goes : line.isEnd = false) (head : Returns strict lines (.statement start) (.ok first))
      (tail : Returns strict lines (.block first.next) result) :
      Returns strict lines (.block start) (result.map first.before)
  | alone {index : Nat} {line : Line} {result : Except StmtError (ReadAt (List Stmt))}
      (here : lines[index]? = some line)
      (reading : standalone? strict lines index line = some result) :
      Returns strict lines (.statement index) result
  | opened {index : Nat} {line : Line} {header : Header}
      {result : Except StmtError (ReadAt (List Stmt))} (here : lines[index]? = some line)
      (reading : line.classify = .ok (.opener header))
      (body : Returns strict lines (.block (index + 1)) result) :
      Returns strict lines (.statement index) (result.bind (closeBlock lines line header))

section

variable {strict : Bool} {lines : List Line}

theorem standalone?_of_opener {line : Line} {header : Header} (index : Nat)
    (reading : line.classify = .ok (.opener header)) :
    standalone? strict lines index line = none := by
  rw [standalone?, reading]

/-- A call has one result. -/
theorem Returns.unique {call : Call} {one other : Except StmtError (ReadAt (List Stmt))}
    (first : Returns strict lines call one) (second : Returns strict lines call other) :
    one = other := by
  induction first generalizing other with
  | stop stops =>
    cases second with
    | stop _ => rfl
    | failed here goes _ => cases goes.symm.trans (stops _ here)
    | further here goes _ _ => cases goes.symm.trans (stops _ here)
  | failed here goes _ inductionHypothesis =>
    cases second with
    | stop stops => cases goes.symm.trans (stops _ here)
    | failed _ _ head => exact inductionHypothesis head
    | further _ _ head _ => cases inductionHypothesis head
  | further here goes _ _ headHypothesis tailHypothesis =>
    cases second with
    | stop stops => cases goes.symm.trans (stops _ here)
    | failed _ _ head => cases headHypothesis head
    | further _ _ head tail =>
      cases headHypothesis head
      rw [tailHypothesis tail]
  | alone here reading =>
    cases second with
    | alone here' reading' =>
      cases here.symm.trans here'
      exact Option.some.inj (reading.symm.trans reading')
    | opened here' reading' _ =>
      cases here.symm.trans here'
      cases (standalone?_of_opener _ reading').symm.trans reading
  | opened here reading _ inductionHypothesis =>
    cases second with
    | alone here' reading' =>
      cases here.symm.trans here'
      cases (standalone?_of_opener _ reading).symm.trans reading'
    | opened here' reading' body =>
      cases here.symm.trans here'
      cases reading.symm.trans reading'
      rw [inductionHypothesis body]

/-! ### The readers follow the rules -/

/-- What a reading has found, and the index it has come to. -/
def located {α : Type} (lines : List Line) (statements : α → List Stmt) :
    EStateM.Result StmtError Progress α → Except StmtError (ReadAt (List Stmt))
  | .error error _ => .error error
  | .ok value last => .ok ⟨statements value, lines.length - last.ahead.length⟩

theorem drop_of_getElem? {index : Nat} {line : Line} (here : lines[index]? = some line) :
    lines.drop index = line :: lines.drop (index + 1) := by
  obtain ⟨inRange, rfl⟩ := List.getElem?_eq_some_iff.mp here
  exact List.drop_eq_getElem_cons inRange

theorem length_sub_drop {index : Nat} (inRange : index ≤ lines.length) :
    lines.length - (lines.drop index).length = index := by
  rw [List.length_drop]
  omega

/-- The lines ahead that are a suffix of the lines from an index on are those from the index that
was come to. -/
theorem drop_of_suffix {index : Nat} {ahead : List Line} (inRange : index ≤ lines.length)
    (suffix : ahead <:+ lines.drop index) :
    index ≤ lines.length - ahead.length ∧ lines.drop (lines.length - ahead.length) = ahead := by
  have shorter := suffix.length_le
  rw [List.length_drop] at shorter
  exact ⟨by omega, (List.suffix_iff_eq_drop.mp (suffix.trans (List.drop_suffix index lines))).symm⟩

theorem returns_statementAt {fuel index : Nat} {line : Line} {skipped : List Line}
    (here : lines[index]? = some line) (enough : (lines.drop (index + 1)).length ≤ fuel)
    (inside : Returns strict lines (.block (index + 1))
      (located lines id (blockOf strict fuel ⟨lines.drop (index + 1), skipped⟩))) :
    Returns strict lines (.statement index) (located lines Option.toList
      (statementAt strict (blockOf strict fuel) line ⟨lines.drop (index + 1), skipped⟩)) := by
  have inRange : index + 1 ≤ lines.length := (List.getElem?_eq_some_iff.mp here).1
  have next := length_sub_drop inRange
  cases reading : line.classify with
  | error error =>
    rw [statementAt_error reading]
    exact .alone here (by rw [standalone?, reading]; rfl)
  | ok kind =>
    cases kind with
    | statement stmt =>
      rw [statementAt_statement reading, located, next]
      exact .alone here (by rw [standalone?, reading]; rfl)
    | opener header =>
      have opened := Returns.opened here reading inside
      rw [statementAt_opener reading, bind_apply]
      cases body : blockOf strict fuel ⟨lines.drop (index + 1), skipped⟩ with
      | error error last =>
        rw [body] at opened
        exact opened
      | ok statements last =>
        rw [body] at opened
        obtain ⟨ahead, skippedLater⟩ := last
        have suffix := (blockOf_stops enough body).1
        have shorter := suffix.length_le
        rw [List.length_drop] at shorter
        cases ahead with
        | nil =>
          rw [located, Except.bind, closeBlock, if_neg (by simp)] at opened
          exact opened
        | cons closer after =>
          rw [List.length_cons] at shorter
          rw [located, Except.bind, closeBlock, if_pos (by simp; omega)] at opened
          have closed : lines.length - (closer :: after).length + 1 =
              lines.length - after.length := by
            rw [List.length_cons]
            omega
          rw [closed] at opened
          exact opened
    | recordOpener name =>
      rw [statementAt_recordOpener reading, bind_apply, takeFields_apply]
      refine .alone here ?_
      rw [standalone?, reading]
      cases recordFields line.number .empty (lines.drop (index + 1)) with
      | error error => rfl
      | ok taken => rfl
    | closing =>
      rw [statementAt_closing reading]
      exact .alone here (by rw [standalone?, reading]; rfl)
    | unknown =>
      rw [statementAt_unknown reading, bind_apply, skipLine_apply]
      refine .alone here ?_
      rw [standalone?, reading]
      cases strict with
      | true => rfl
      | false =>
        show _ = some (Except.ok (ReadAt.mk [] (lines.length - (lines.drop (index + 1)).length)))
        rw [next]
        rfl

/-- The reader of blocks returns what the rules say, from every index, if its fuel is the number
of lines ahead or more. -/
theorem returns_blockOf {fuel start : Nat} (inRange : start ≤ lines.length)
    (enough : (lines.drop start).length ≤ fuel) (skipped : List Line) :
    Returns strict lines (.block start)
      (located lines id (blockOf strict fuel ⟨lines.drop start, skipped⟩)) := by
  induction fuel generalizing start skipped with
  | zero =>
    have none : lines[start]? = none := by
      rw [List.length_drop] at enough
      exact List.getElem?_eq_none (by omega)
    rw [blockOf]
    show Returns strict lines (.block start)
      (.ok ⟨[], lines.length - (lines.drop start).length⟩)
    rw [length_sub_drop inRange]
    exact .stop (by simp [none])
  | succ fuel inductionHypothesis =>
    cases here : lines[start]? with
    | none =>
      have nothing : lines.drop start = [] :=
        List.drop_eq_nil_of_le (List.getElem?_eq_none_iff.mp here)
      have stops : Returns strict lines (.block start) (.ok ⟨[], start⟩) := .stop (by simp [here])
      rw [nothing, blockOf_nil, located, ← nothing, length_sub_drop inRange]
      exact stops
    | some line =>
      have cut := drop_of_getElem? here
      cases ends : line.isEnd with
      | true =>
        have stops : Returns strict lines (.block start) (.ok ⟨[], start⟩) :=
          .stop (by simp [here, ends])
        rw [cut, blockOf_end ends, located, ← cut, length_sub_drop inRange]
        exact stops
      | false =>
        have after : start + 1 ≤ lines.length := (List.getElem?_eq_some_iff.mp here).1
        have enoughInside : (lines.drop (start + 1)).length ≤ fuel := by
          rw [cut, List.length_cons] at enough
          omega
        have head := returns_statementAt here enoughInside
          (inductionHypothesis after enoughInside skipped)
        rw [cut, blockOf_cons ends, bind_apply]
        cases first : statementAt strict (blockOf strict fuel) line
            ⟨lines.drop (start + 1), skipped⟩ with
        | error error last =>
          rw [first] at head
          exact .failed here ends head
        | ok stmt? middle =>
          rw [first] at head
          -- what is still ahead after the first statement are the lines from its next index on
          have suffix : middle.ahead <:+ lines.drop (start + 1) :=
            statementAt_suffix (fun inside => (blockOf_stops enoughInside inside).1) first
          obtain ⟨ahead, skippedLater⟩ := middle
          obtain ⟨_, rest⟩ := drop_of_suffix after suffix
          have enoughAfter : (lines.drop (lines.length - ahead.length)).length ≤ fuel := by
            rw [rest]
            exact Nat.le_trans suffix.length_le enoughInside
          have tail := inductionHypothesis (Nat.sub_le _ _) enoughAfter skippedLater
          rw [rest] at tail
          have both := Returns.further here ends head tail
          simp only [bind_apply]
          cases others : blockOf strict fuel ⟨ahead, skippedLater⟩ with
          | error error last =>
            rw [others] at both
            exact both
          | ok statements last =>
            rw [others] at both
            exact both

/-- The outcome of a reading from an index on, with the index it has come to counted from the
last line. -/
theorem map_readAt {α : Type} (statements : α → List Stmt) {start : Nat} {reader : LineReader α}
    (inRange : start ≤ lines.length)
    (suffix : ∀ {value last}, reader ⟨lines.drop start, []⟩ = .ok value last →
      last.ahead <:+ lines.drop start) :
    (readAt lines start reader).1.map (fun read => ⟨statements read.value, read.next⟩) =
      located lines statements (reader ⟨lines.drop start, []⟩) := by
  rw [readAt, EStateM.run]
  cases read : reader ⟨lines.drop start, []⟩ with
  | error error last => rfl
  | ok value last =>
    have shorter := (suffix read).length_le
    have next : start + ((lines.drop start).length - last.ahead.length) =
        lines.length - last.ahead.length := by
      rw [List.length_drop] at shorter ⊢
      omega
    rw [located, ← next]
    rfl

theorem returns_blockAt {start : Nat} (inRange : start ≤ lines.length) :
    Returns strict lines (.block start) (blockAt strict lines start).value := by
  have enough : (lines.drop start).length ≤ lines.length - start := Nat.le_of_eq List.length_drop
  have returns : Returns strict lines (.block start) _ := returns_blockOf inRange enough []
  rw [← map_readAt id inRange fun read => (blockOf_stops enough read).1] at returns
  show Returns strict lines (.block start)
    (readAt lines start (blockOf strict (lines.length - start))).1
  cases read : (readAt lines start (blockOf strict (lines.length - start))).1 with
  | error error =>
    rw [read] at returns
    exact returns
  | ok read' =>
    rw [read] at returns
    exact returns

theorem returns_statementFrom {index : Nat} (inRange : index < lines.length) :
    Returns strict lines (.statement index)
      ((statementFrom strict lines index).value.map ReadAt.listed) := by
  obtain ⟨line, here⟩ : ∃ line, lines[index]? = some line :=
    ⟨_, List.getElem?_eq_getElem inRange⟩
  have cut := drop_of_getElem? here
  have enough : (lines.drop (index + 1)).length ≤ lines.length - index := by
    rw [List.length_drop]
    omega
  have returns : Returns strict lines (.statement index) _ :=
    returns_statementAt here enough (returns_blockOf inRange enough [])
  have taken : takeLine ⟨lines.drop index, []⟩ = .ok (some line) ⟨lines.drop (index + 1), []⟩ := by
    rw [cut]
    rfl
  rw [statementFrom]
  refine (map_readAt Option.toList (Nat.le_of_lt inRange) ?_).symm ▸ ?_
  · intro value last read
    rw [bind_apply, taken] at read
    have suffix := statementAt_suffix (fun inside => (blockOf_stops enough inside).1) read
    rw [cut]
    exact suffix.trans (List.suffix_cons _ _)
  · rw [bind_apply, taken]
    exact returns

theorem returns_block_iff {start : Nat} (inRange : start ≤ lines.length)
    {result : Except StmtError (ReadAt (List Stmt))} :
    Returns strict lines (.block start) result ↔ (blockAt strict lines start).value = result := by
  constructor
  · intro returns
    exact (returns_blockAt inRange).unique returns
  · rintro rfl
    exact returns_blockAt inRange

theorem returns_statement_iff {index : Nat} (inRange : index < lines.length)
    {result : Except StmtError (ReadAt (List Stmt))} :
    Returns strict lines (.statement index) result ↔
      (statementFrom strict lines index).value.map ReadAt.listed = result := by
  constructor
  · intro returns
    exact (returns_statementFrom inRange).unique returns
  · rintro rfl
    exact returns_statementFrom inRange

theorem Returns.inRange {index : Nat} {result : Except StmtError (ReadAt (List Stmt))}
    (returns : Returns strict lines (.statement index) result) : index < lines.length := by
  cases returns with
  | alone here _ => exact (List.getElem?_eq_some_iff.mp here).1
  | opened here _ _ => exact (List.getElem?_eq_some_iff.mp here).1

theorem Returns.exists_statementFrom {index : Nat} {first : ReadAt (List Stmt)}
    (returns : Returns strict lines (.statement index) (.ok first)) :
    ∃ read, (statementFrom strict lines index).value = .ok read ∧ read.listed = first := by
  have same := (returns_statement_iff returns.inRange).mp returns
  cases value : (statementFrom strict lines index).value with
  | error error =>
    rw [value] at same
    cases same
  | ok read =>
    rw [value] at same
    exact ⟨read, rfl, Except.ok.inj same⟩

end

/-! ### Which `end` closes what -/

/-- A line opens a block or a record. -/
def Line.opens (line : Line) : Bool :=
  match line.classify with
  | .ok (.opener _) => true
  | .ok (.recordOpener _) => true
  | _ => false

/-- There is a line at an index, and it is an `end`. -/
def IsEndAt (lines : List Line) (index : Nat) : Prop :=
  ∃ line, lines[index]? = some line ∧ line.isEnd = true

/-- The statement at `opener` is a block or a record, and its last line is the one at `closer`. -/
structure ClosesAt (strict : Bool) (lines : List Line) (opener closer : Nat) : Prop where
  opens : ∃ line, lines[opener]? = some line ∧ line.opens = true
  closed : ∃ read, (statementFrom strict lines opener).value = .ok read ∧ read.next = closer + 1

/-- Reading a block from `start` on comes to a statement at an index: to the one at the start, to
one inside the block that opens there, or to one that is come to from where that statement ends. -/
inductive Visits (strict : Bool) (lines : List Line) : (start : Nat) → (index : Nat) → Prop
  | here {start : Nat} {line : Line} (here : lines[start]? = some line)
      (goes : line.isEnd = false) : Visits strict lines start start
  | inside {start index : Nat} {line : Line} {header : Header} (here : lines[start]? = some line)
      (reading : line.classify = .ok (.opener header))
      (later : Visits strict lines (start + 1) index) : Visits strict lines start index
  | after {start index : Nat} {line : Line} {read : ReadAt (Option Stmt)}
      (here : lines[start]? = some line) (goes : line.isEnd = false)
      (first : (statementFrom strict lines start).value = .ok read)
      (later : Visits strict lines read.next index) : Visits strict lines start index

/-- The statement at `index` is the one at `start`, or is come to inside the block it opens. -/
def VisitsWithin (strict : Bool) (lines : List Line) (start index : Nat) : Prop :=
  index = start ∨ ∃ line header, lines[start]? = some line ∧
    line.classify = .ok (.opener header) ∧ Visits strict lines (start + 1) index

/-- Every `end` from `start` up to `stop` closes a block or a record among those visited, and none
of these is closed at `stop` or after it. -/
structure Balanced (strict : Bool) (lines : List Line) (visited : Nat → Prop)
    (start stop : Nat) : Prop where
  consumed : ∀ closer, start ≤ closer → closer < stop → IsEndAt lines closer →
    ∃ opener, visited opener ∧ ClosesAt strict lines opener closer
  within : ∀ opener closer, visited opener → ClosesAt strict lines opener closer →
    start ≤ opener ∧ closer < stop

/-- The statements are those that are read one after the other from `start` to `stop`, each from the
index at which the one before it ended. -/
inductive Consecutive (strict : Bool) (lines : List Line) : (start stop : Nat) → List Stmt → Prop
  | done (stop : Nat) : Consecutive strict lines stop stop []
  | step {start stop : Nat} {line : Line} {read : ReadAt (Option Stmt)} {others : List Stmt}
      (here : lines[start]? = some line) (goes : line.isEnd = false)
      (first : (statementFrom strict lines start).value = .ok read)
      (rest : Consecutive strict lines read.next stop others) :
      Consecutive strict lines start stop (read.value.toList ++ others)

/-- How far a statement reaches that starts at `index`. -/
structure StatementExtent (strict : Bool) (lines : List Line) (index next : Nat) : Prop where
  forward : index < next
  inRange : next ≤ lines.length
  ended : ∀ line, lines[index]? = some line → line.opens = true →
    index < next - 1 ∧ IsEndAt lines (next - 1)
  balanced : Balanced strict lines (VisitsWithin strict lines index) index next

/-- How far the statements of a block reach that are read from `start` on. They stop at the last
line or at an `end`, which is the first that closes none of the blocks opened from `start` on. -/
structure BlockExtent (strict : Bool) (lines : List Line) (start stop : Nat)
    (statements : List Stmt) : Prop where
  forward : start ≤ stop
  inRange : stop ≤ lines.length
  stops : stop = lines.length ∨ IsEndAt lines stop
  balanced : Balanced strict lines (Visits strict lines start) start stop
  consecutive : Consecutive strict lines start stop statements

section

variable {strict : Bool} {lines : List Line}

theorem Line.isEnd_eq_false_of_classify {line : Line} {kind : Reading}
    (reading : line.classify = .ok kind) (goes : kind ≠ .closing) : line.isEnd = false := by
  cases ends : line.isEnd with
  | false => rfl
  | true =>
    have closes := Line.classify_eq_closing_iff.mpr ends
    exact absurd (Except.ok.inj (reading.symm.trans closes)) goes

theorem Line.opens_of_opener {line : Line} {header : Header}
    (reading : line.classify = .ok (.opener header)) : line.opens = true := by
  rw [opens, reading]

theorem not_isEndAt {index : Nat} {line : Line} (here : lines[index]? = some line)
    (goes : line.isEnd = false) : ¬ IsEndAt lines index := by
  rintro ⟨other, there, ends⟩
  cases here.symm.trans there
  cases goes.symm.trans ends

theorem ClosesAt.next_eq {index closer : Nat} {read : ReadAt (List Stmt)}
    (closes : ClosesAt strict lines index closer)
    (returns : Returns strict lines (.statement index) (.ok read)) : read.next = closer + 1 := by
  obtain ⟨found, value, rfl⟩ := returns.exists_statementFrom
  obtain ⟨other, same, next⟩ := closes.closed
  cases value.symm.trans same
  exact next

theorem Returns.closesAt {index closer : Nat} {line : Line} {read : ReadAt (List Stmt)}
    (returns : Returns strict lines (.statement index) (.ok read))
    (here : lines[index]? = some line) (opens : line.opens = true)
    (next : read.next = closer + 1) : ClosesAt strict lines index closer := by
  obtain ⟨found, value, rfl⟩ := returns.exists_statementFrom
  exact ⟨⟨line, here, opens⟩, found, value, next⟩

/-! ### How far a statement reaches -/

/-- A line that is a statement by itself, or none, is one line long. -/
theorem StatementExtent.single {index : Nat} {line : Line} (here : lines[index]? = some line)
    (goes : line.isEnd = false) (plain : line.opens = false) :
    StatementExtent strict lines index (index + 1) where
  forward := Nat.lt_succ_self index
  inRange := (List.getElem?_eq_some_iff.mp here).1
  ended := by
    intro other there opens
    cases here.symm.trans there
    cases plain.symm.trans opens
  balanced := by
    constructor
    · intro closer lower upper ends
      obtain rfl : closer = index := by omega
      exact absurd ends (not_isEndAt here goes)
    · rintro opener closer (rfl | ⟨other, header, there, reading, _⟩) closes
      · obtain ⟨other, there, opens⟩ := closes.opens
        cases here.symm.trans there
        cases plain.symm.trans opens
      · cases here.symm.trans there
        cases plain.symm.trans (Line.opens_of_opener reading)

/-- The fields of a record are the lines up to the first `end`. -/
theorem recordFields_stops {opener : Nat} {fields taken : Table String} {ahead after : List Line}
    (read : recordFields opener fields ahead = .ok (taken, after)) :
    ∃ front closer, ahead = front ++ closer :: after ∧ closer.isEnd = true ∧
      ∀ line ∈ front, line.isEnd = false := by
  induction ahead generalizing fields with
  | nil => cases read
  | cons line rest inductionHypothesis =>
    rw [recordFields] at read
    split at read
    next ends =>
      cases read
      exact ⟨[], line, rfl, ends, fun _ member => absurd member List.not_mem_nil⟩
    next goes =>
      simp only at read
      split at read
      · cases read
      · obtain ⟨front, closer, rfl, ends, before⟩ := inductionHypothesis read
        refine ⟨line :: front, closer, rfl, ends, ?_⟩
        intro other member
        rcases List.mem_cons.mp member with rfl | later
        · exact Bool.eq_false_iff.mpr goes
        · exact before other later

/-- The index after a record is that after the first `end` behind its opener. -/
theorem exists_end_of_recordFields {index opener : Nat} {fields taken : Table String}
    {after : List Line} (inRange : index < lines.length)
    (read : recordFields opener fields (lines.drop (index + 1)) = .ok (taken, after)) :
    ∃ last, lines.length - after.length = last + 1 ∧ index < last ∧ IsEndAt lines last ∧
      ∀ place, index < place → place < last → ¬ IsEndAt lines place := by
  obtain ⟨front, closer, cut, ends, before⟩ := recordFields_stops read
  have count := congrArg List.length cut
  rw [List.length_drop, List.length_append, List.length_cons] at count
  have lineAt : ∀ offset, lines[index + 1 + offset]? = (front ++ closer :: after)[offset]? := by
    intro offset
    rw [← cut, List.getElem?_drop]
  refine ⟨index + 1 + front.length, by omega, by omega, ⟨closer, ?_, ends⟩, ?_⟩
  · rw [lineAt, List.getElem?_append_right (Nat.le_refl _), Nat.sub_self]
    rfl
  · rintro place lower upper ⟨field, there, fieldEnds⟩
    obtain ⟨offset, rfl⟩ := Nat.exists_eq_add_of_le (show index + 1 ≤ place from lower)
    rw [lineAt, List.getElem?_append_left (by omega)] at there
    cases (before field (List.mem_of_getElem? there)).symm.trans fieldEnds

/-- A record ends with the first `end` after its opener. -/
theorem StatementExtent.record {index : Nat} {line : Line} {name : String}
    {fields taken : Table String} {after : List Line} {statements : List Stmt}
    (here : lines[index]? = some line) (reading : line.classify = .ok (.recordOpener name))
    (read : recordFields line.number fields (lines.drop (index + 1)) = .ok (taken, after))
    (returns : Returns strict lines (.statement index)
      (.ok ⟨statements, lines.length - after.length⟩)) :
    StatementExtent strict lines index (lines.length - after.length) := by
  have inRange : index < lines.length := (List.getElem?_eq_some_iff.mp here).1
  obtain ⟨last, next, later, closing, before⟩ := exists_end_of_recordFields inRange read
  have opens : line.opens = true := by
    rw [Line.opens, reading]
  rw [next] at returns
  refine ⟨by omega, by omega, ?_, ?_, ?_⟩
  · intro _ _ _
    rw [next]
    exact ⟨later, closing⟩
  · intro closer lower upper ends
    by_cases same : closer = last
    · rw [same]
      exact ⟨index, .inl rfl, returns.closesAt here opens rfl⟩
    · -- a line before the `end` of the record is its opener or one of its fields
      have isOpener : closer = index := Decidable.byContradiction fun other =>
        before closer (by omega) (by omega) ends
      rw [isOpener] at ends
      exact absurd ends (not_isEndAt here (Line.isEnd_eq_false_of_classify reading nofun))
  · rintro opener closer (rfl | ⟨other, header, there, otherwise, _⟩) closes
    · have same : last + 1 = closer + 1 := closes.next_eq returns
      omega
    · cases here.symm.trans there
      cases reading.symm.trans otherwise

/-- A block ends with the line at which its statements stop. -/
theorem StatementExtent.block {index : Nat} {line : Line} {header : Header}
    {body : ReadAt (List Stmt)} {statements : List Stmt}
    (here : lines[index]? = some line) (reading : line.classify = .ok (.opener header))
    (inside : BlockExtent strict lines (index + 1) body.next body.value)
    (closes : body.next < lines.length)
    (returns : Returns strict lines (.statement index) (.ok ⟨statements, body.next + 1⟩)) :
    StatementExtent strict lines index (body.next + 1) := by
  have forward := inside.forward
  have closing : IsEndAt lines body.next := inside.stops.resolve_left (Nat.ne_of_lt closes)
  refine ⟨by omega, closes, fun _ _ _ => ⟨by omega, closing⟩, ?_, ?_⟩
  · intro closer lower upper ends
    by_cases last : closer = body.next
    · rw [last]
      exact ⟨index, .inl rfl, returns.closesAt here (Line.opens_of_opener reading) rfl⟩
    · have after : closer ≠ index := by
        rintro rfl
        exact not_isEndAt here (Line.isEnd_eq_false_of_classify reading nofun) ends
      obtain ⟨opener, visits, consumes⟩ :=
        inside.balanced.consumed closer (by omega) (by omega) ends
      exact ⟨opener, .inr ⟨line, header, here, reading, visits⟩, consumes⟩
  · rintro opener closer (rfl | ⟨_, _, _, _, visits⟩) consumes
    · have next : body.next + 1 = closer + 1 := consumes.next_eq returns
      omega
    · obtain ⟨lower, upper⟩ := inside.balanced.within opener closer visits consumes
      omega

/-! ### How far a block reaches -/

theorem BlockExtent.nil {start : Nat} (inRange : start ≤ lines.length)
    (stops : ∀ line, lines[start]? = some line → line.isEnd = true) :
    BlockExtent strict lines start start [] where
  forward := Nat.le_refl start
  inRange := inRange
  stops := by
    cases here : lines[start]? with
    | none => exact .inl (Nat.le_antisymm inRange (List.getElem?_eq_none_iff.mp here))
    | some line => exact .inr ⟨line, here, stops line here⟩
  balanced := by
    constructor
    · intro closer lower upper
      omega
    · intro opener closer visits
      -- no statement is come to from an `end`
      cases visits with
      | here here goes => cases goes.symm.trans (stops _ here)
      | inside here reading _ =>
        cases (Line.isEnd_eq_false_of_classify reading nofun).symm.trans (stops _ here)
      | after here goes _ _ => cases goes.symm.trans (stops _ here)
  consecutive := .done start

theorem BlockExtent.cons {start stop : Nat} {line : Line} {first : ReadAt (List Stmt)}
    {others : List Stmt} (here : lines[start]? = some line) (goes : line.isEnd = false)
    (head : Returns strict lines (.statement start) (.ok first))
    (extent : StatementExtent strict lines start first.next)
    (tail : BlockExtent strict lines first.next stop others) :
    BlockExtent strict lines start stop (first.value ++ others) := by
  obtain ⟨read, value, rfl⟩ := head.exists_statementFrom
  have forward := extent.forward
  have further := tail.forward
  refine ⟨by omega, tail.inRange, tail.stops, ⟨?_, ?_⟩, .step here goes value tail.consecutive⟩
  · intro closer lower upper ends
    by_cases within : closer < read.next
    · obtain ⟨opener, visits, closes⟩ := extent.balanced.consumed closer lower within ends
      refine ⟨opener, ?_, closes⟩
      obtain rfl | ⟨_, _, there, reading, later⟩ := visits
      · exact .here here goes
      · exact .inside there reading later
    · obtain ⟨opener, visits, closes⟩ :=
        tail.balanced.consumed closer (Nat.le_of_not_lt within) upper ends
      exact ⟨opener, .after here goes value visits, closes⟩
  · intro opener closer visits closes
    have within : VisitsWithin strict lines start opener → start ≤ opener ∧ closer < stop := by
      intro first
      obtain ⟨lower, upper⟩ := extent.balanced.within opener closer first closes
      exact ⟨lower, Nat.lt_of_lt_of_le upper further⟩
    cases visits with
    | here _ _ => exact within (.inl rfl)
    | inside there reading later => exact within (.inr ⟨_, _, there, reading, later⟩)
    | after _ _ same later =>
      cases value.symm.trans same
      obtain ⟨lower, upper⟩ := tail.balanced.within opener closer later closes
      exact ⟨Nat.le_trans (Nat.le_of_lt forward) lower, upper⟩

/-- What a call has to keep to, if it succeeds. -/
def Call.Meets (strict : Bool) (lines : List Line) :
    Call → Except StmtError (ReadAt (List Stmt)) → Prop
  | .block start, .ok read =>
    start ≤ lines.length → BlockExtent strict lines start read.next read.value
  | .statement index, .ok read => StatementExtent strict lines index read.next
  | _, .error _ => True

/-- A line that opens no block keeps to its extent. -/
theorem StatementExtent.alone {index : Nat} {line : Line} {read : ReadAt (List Stmt)}
    (here : lines[index]? = some line)
    (reading : standalone? strict lines index line = some (.ok read)) :
    StatementExtent strict lines index read.next := by
  have returns := Returns.alone here reading
  rw [standalone?] at reading
  cases kind : line.classify with
  | error error =>
    rw [kind] at reading
    cases reading
  | ok kind' =>
    rw [kind] at reading
    cases kind' with
    | statement stmt =>
      cases reading
      exact .single here (Line.isEnd_eq_false_of_classify kind nofun) (by rw [Line.opens, kind])
    | opener header => cases reading
    | recordOpener name =>
      cases taken : recordFields line.number .empty (lines.drop (index + 1)) with
      | error error =>
        rw [taken] at reading
        cases reading
      | ok pair =>
        rw [taken] at reading
        cases reading
        exact .record here kind taken returns
    | closing => cases reading
    | unknown =>
      cases strict with
      | true => cases reading
      | false =>
        cases reading
        exact .single here (Line.isEnd_eq_false_of_classify kind nofun) (by rw [Line.opens, kind])

/-- Every call that succeeds keeps to its extent. -/
theorem Returns.meets {call : Call} {result : Except StmtError (ReadAt (List Stmt))}
    (returns : Returns strict lines call result) : call.Meets strict lines result := by
  induction returns with
  | stop stops =>
    intro inRange
    exact .nil inRange stops
  | failed _ _ _ _ => trivial
  | @further start line first result here goes head tail headHypothesis tailHypothesis =>
    cases result with
    | error error => trivial
    | ok others =>
      intro inRange
      exact .cons here goes head headHypothesis (tailHypothesis headHypothesis.inRange)
  | @alone index line result here reading =>
    cases result with
    | error error => trivial
    | ok read => exact .alone here reading
  | @opened index line header result here reading body bodyHypothesis =>
    have inRange : index + 1 ≤ lines.length := (List.getElem?_eq_some_iff.mp here).1
    have returns := Returns.opened here reading body
    cases result with
    | error error => trivial
    | ok read =>
      rw [Except.bind, closeBlock] at returns ⊢
      split at returns
      next closes =>
        rw [if_pos closes]
        exact .block here reading (bodyHypothesis inRange) closes returns
      next unclosed =>
        rw [if_neg unclosed]
        trivial

end

/-! ### Every call ends, and where -/

/-- From every index the reading of a block and the reading of a statement have the one result that
the rules of their recursion give, so no call goes on for ever. A statement that is read ends after
its index and by the last line, with its own `end` if it opens a block. The statements of a block
are those read one after the other from its index on, and they stop after the last line or at an
`end`, the first that closes no block opened on the way. -/
theorem reading_extents (strict : Bool) (lines : List Line) (index : Nat)
    (inRange : index ≤ lines.length) :
    (∀ result, Returns strict lines (.block index) result ↔
      (blockAt strict lines index).value = result) ∧
    (∀ read, (blockAt strict lines index).value = .ok read →
      BlockExtent strict lines index read.next read.value) ∧
    (index < lines.length →
      (∀ result, Returns strict lines (.statement index) result ↔
        (statementFrom strict lines index).value.map ReadAt.listed = result) ∧
      ∀ read, (statementFrom strict lines index).value = .ok read →
        StatementExtent strict lines index read.next) := by
  refine ⟨fun _ => returns_block_iff inRange, ?_, fun before =>
    ⟨fun _ => returns_statement_iff before, ?_⟩⟩
  · intro read value
    exact ((returns_block_iff inRange).mpr value).meets inRange
  · intro read value
    have returns : Returns strict lines (.statement index) _ := returns_statementFrom before
    rw [value] at returns
    exact returns.meets

/-- A block with a record inside, and an `end` too many. The field of the record is read as an
opener if a block is read from the middle of the record. -/
def nestedLines : List Line :=
  [⟨1, "if ready"⟩, ⟨2, "data box"⟩, ⟨3, "if = 1"⟩, ⟨4, "end"⟩, ⟨5, "jump"⟩, ⟨6, "end"⟩,
    ⟨7, "show 1"⟩, ⟨8, "end"⟩, ⟨9, "show 2"⟩]

theorem extents_of_nestedLines :
    (∃ read, (blockAt false nestedLines 0).value = .ok read ∧ read.next = 7 ∧
      BlockExtent false nestedLines 0 7 read.value) ∧
    (∃ read, (blockAt false nestedLines 2).value = .ok read ∧ read.next = 5 ∧
      BlockExtent false nestedLines 2 5 read.value) ∧
    ∃ read, (statementFrom false nestedLines 0).value = .ok read ∧ read.next = 6 ∧
      StatementExtent false nestedLines 0 6 :=
  ⟨⟨_, rfl, rfl, (reading_extents false nestedLines 0 (by decide)).2.1 _ rfl⟩,
    ⟨_, rfl, rfl, (reading_extents false nestedLines 2 (by decide)).2.1 _ rfl⟩,
    ⟨_, rfl, rfl, ((reading_extents false nestedLines 0 (by decide)).2.2 (by decide)).2 _ rfl⟩⟩

end LineScript
