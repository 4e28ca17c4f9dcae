/-
This file proves that leaving out blocks does no harm where nothing outside depends on them. A chunk
holds only the statements outside all blocks that show or set; what the others do is lost. What they
do to variables is confined to the names that are set inside some block. If no statement of the
chunk mentions such a name or reads a field of a record, then a run of the whole program that ends
well is followed by the machine: it ends well too, writes what the show statements outside all
blocks wrote, and gives all other names the same values.

The two runs do not go in lockstep, since the machine stands still while a block runs. What is
carried along is that they agree on the names not set inside a block.
-/

import LineScript.Proofs.Agreement
import LineScript.Proofs.Effect
import LineScript.Proofs.Mention
import LineScript.Proofs.Table

namespace LineScript

/-! ### Runs that nothing refuses -/

section Unlimited

variable {names : Type}

theorem writeLine_unlimited (text : String) (state : RunState names) :
    writeLine .unlimited text state =
      .ok () { state with events := .write (text ++ "\n").toUTF8 :: state.events } := by
  have notEmpty : ¬ (text ++ "\n").toUTF8.isEmpty = true := by simp [ByteArray.isEmpty]
  unfold writeLine writeText
  rw [writeBytes_apply, if_neg notEmpty]
  rfl

theorem thenFlush_unlimited_eq_ok {action : Action names Unit} {state final : RunState names} :
    thenFlush .unlimited action state = .ok () final ↔
      ∃ middle, action state = .ok () middle ∧
        final = { middle with events := .flush :: middle.events } := by
  unfold thenFlush
  cases action state with
  | ok value middle =>
    constructor
    · intro flushed
      cases flushed
      exact ⟨middle, rfl, rfl⟩
    · rintro ⟨_, same, rfl⟩
      cases same
      rfl
  | error error middle =>
    constructor
    · intro flushed
      cases flushed
    · rintro ⟨_, failed, _⟩
      cases failed

end Unlimited

/-! ### Names set inside blocks -/

/-- The variable that a target is, if it is one. -/
def Target.value? : Target → Option String
  | .value name => some name
  | _ => none

/-- The names that are set inside the blocks of a program, at any depth. -/
def namesSetInside (program : Program) : List String :=
  (program.flatMap fun stmt => Stmt.allTargets stmt.body).filterMap Target.value?

theorem mem_namesSetInside {program : Program} {stmt : Stmt} (member : stmt ∈ program)
    {name : String} (inside : .value name ∈ Stmt.allTargets stmt.body) :
    name ∈ namesSetInside program :=
  List.mem_filterMap.mpr ⟨.value name, List.mem_flatMap.mpr ⟨stmt, member, inside⟩, rfl⟩

/-- Whether a mention is a variable that is none of the names. -/
def Mention.avoids (names : List String) : Mention → Bool
  | .var name => !names.contains name
  | .member _ _ => false

/-- Whether a statement that shows or sets mentions none of the names and reads no field. -/
def Stmt.avoids (names : List String) : Stmt → Bool
  | .print _ expr => (mentionsOf expr).all (Mention.avoids names)
  | .assign _ _ expr => (mentionsOf expr).all (Mention.avoids names)
  | .record _ _ _ => true
  | .block _ _ _ => true

/-! ### Agreement outside the names -/

/-- Two tables give all names the same value, but for some. -/
def SameOutside (names : List String) (first second : Table Value) : Prop :=
  ∀ name, name ∉ names → first.get? name = second.get? name

theorem SameOutside.insert {names : List String} {first second : Table Value}
    (same : SameOutside names first second) (key : String) (value : Value) :
    SameOutside names (first.insert key value) (second.insert key value) := by
  intro name outside
  by_cases equal : name = key
  · rw [equal, Table.get?_insert_self, Table.get?_insert_self]
  · rw [Table.get?_insert_of_ne _ equal, Table.get?_insert_of_ne _ equal]
    exact same name outside

/-- A statement that sets only some names keeps all others. -/
theorem sameOutside_allows {names : List String} {targets : List Target}
    (within : ∀ name, .value name ∈ targets → name ∈ names) :
    Allows (fun before after => SameOutside names before.values after.values) targets where
  reflexive _ _ _ := rfl
  transitive _ _ _ first second name outside := (first name outside).trans (second name outside)
  changes target member before after changed := by
    intro name outside
    cases target with
    | value key =>
      obtain ⟨value, rfl⟩ := changed
      have different : name ≠ key := fun equal => outside (equal ▸ within key member)
      exact (Table.get?_insert_of_ne before.values different value).symm
    | record key =>
      obtain ⟨fields, rfl⟩ := changed
      rfl
    | entity key =>
      obtain rfl := changed
      rfl

theorem evaluate_of_sameOutside {names : List String} {globals : Globals}
    {environment : Environment} (same : SameOutside names globals environment.values)
    {expr : String} (avoids : (mentionsOf expr).all (Mention.avoids names) = true) :
    evaluate (globalBindings globals) expr = evaluate environment.bindings expr := by
  refine evaluate_congr _ _ expr fun mention member => ?_
  have outside := List.all_eq_true.mp avoids mention member
  cases mention with
  | var name => exact same name (by simpa [Mention.avoids] using outside)
  | member record field => cases outside

/-! ### What the show statements write -/

/-- Whether a statement shows. -/
def Stmt.isPrint : Stmt → Bool
  | .print _ _ => true
  | _ => false

theorem Stmt.isPrint_of_omitted {stmt : Stmt} (omitted : stmt.instruction? = none) :
    stmt.isPrint = false := by
  cases stmt with
  | print line expr => cases omitted
  | assign line name expr => rfl
  | record line name fields => rfl
  | block line header body => rfl

/-- The events that came between two points of a run, the earliest first. -/
def eventsBetween (before after : List Event) : List Event :=
  (after.take (after.length - before.length)).reverse

theorem eventsBetween_append (added before : List Event) :
    eventsBetween before (added ++ before) = added.reverse := by
  unfold eventsBetween
  rw [List.length_append, Nat.add_sub_cancel, List.take_left]

/-- The events of the show statements among statements that are run in order from a state, without
those of the other statements. -/
def shownEvents (sink : Sink) : List Stmt → RunState Environment → List Event
  | [], _ => []
  | stmt :: rest, state =>
    let result := stmt.run sink state
    let own := if stmt.isPrint then eventsBetween state.events (endState result).events else []
    match result with
    | .ok _ next => own ++ shownEvents sink rest next
    | .error _ _ => own

theorem shownEvents_cons_ok {sink : Sink} {stmt : Stmt} {state next : RunState Environment}
    (ran : stmt.run sink state = .ok () next) (rest : List Stmt) :
    shownEvents sink (stmt :: rest) state =
      (if stmt.isPrint then eventsBetween state.events next.events else []) ++
        shownEvents sink rest next := by
  simp only [shownEvents, ran, endState]

/-! ### Single steps and whole runs -/

/-- A statement that is left out keeps the names that are not set inside it. -/
theorem Stmt.run_omitted {stmt : Stmt} (omitted : stmt.instruction? = none) {names : List String}
    (within : ∀ name, .value name ∈ Stmt.allTargets stmt.body → name ∈ names) (sink : Sink) :
    Keeps (fun before after => SameOutside names before.values after.values) (stmt.run sink) := by
  refine Stmt.run_keeps stmt (sameOutside_allows fun name member => ?_)
  cases stmt with
  | print line expr => cases omitted
  | assign line key expr => cases omitted
  | record line key fields => cases List.mem_singleton.mp member
  | block line header body =>
    rcases List.mem_append.mp member with own | inside
    · exact absurd own (header.value_not_mem_targets name)
    · exact within name inside

/-- A step of the machine follows a statement that shows or sets and ends well: it adds the same
events, which are none unless it shows, and the two go on agreeing. -/
theorem Instruction.run_follows {stmt : Stmt} {instruction : Instruction}
    (compiled : stmt.instruction? = some instruction) {names : List String}
    (avoids : stmt.avoids names = true) {state next : RunState Environment}
    (ran : stmt.run .unlimited state = .ok () next) {globals : Globals}
    (same : SameOutside names globals state.names.values) (events : List Event)
    (notices : List Notice) :
    ∃ (added : List Event) (after : Globals),
      instruction.run .unlimited stmt.line ⟨globals, events, notices⟩ =
        .ok () ⟨after, added ++ events, notices⟩ ∧
      next.events = added ++ state.events ∧
      (stmt.isPrint = false → added = []) ∧
      SameOutside names after next.names.values := by
  cases stmt with
  | print line expr =>
    cases compiled
    rw [Stmt.avoids] at avoids
    obtain ⟨value, middle, evaluated, written⟩ := bind_eq_ok.mp ran
    obtain ⟨found, rfl⟩ := evaluateAt_eq_ok.mp evaluated
    rw [← evaluate_of_sameOutside same avoids] at found
    rw [writeLine_unlimited] at written
    cases written
    refine ⟨[.write (value.text ++ "\n").toUTF8], globals, ?_, rfl, fun silent => ?_, same⟩
    · refine bind_eq_ok.mpr ⟨value, _, evaluateAt_eq_ok.mpr ⟨found, rfl⟩, ?_⟩
      exact writeLine_unlimited _ _
    · cases silent
  | assign line name expr =>
    cases compiled
    rw [Stmt.avoids] at avoids
    obtain ⟨value, middle, evaluated, changed⟩ := bind_eq_ok.mp ran
    obtain ⟨found, rfl⟩ := evaluateAt_eq_ok.mp evaluated
    rw [← evaluate_of_sameOutside same avoids] at found
    cases changed
    refine ⟨[], globals.insert name value, ?_, rfl, fun _ => rfl, same.insert name value⟩
    exact bind_eq_ok.mpr ⟨value, _, evaluateAt_eq_ok.mpr ⟨found, rfl⟩, rfl⟩
  | record line name fields => cases compiled
  | block line header body => cases compiled

/-- A run of the machine follows a run of statements that ends well. Its events are those of the
show statements, and the two end with the same values outside the names set inside blocks. -/
theorem runSteps_follows {names : List String} (program : List Stmt)
    (avoids : ∀ stmt ∈ program, stmt.avoids names = true)
    (within : ∀ stmt ∈ program, ∀ name, .value name ∈ Stmt.allTargets stmt.body → name ∈ names)
    {state final : RunState Environment}
    (ran : Stmt.runAll .unlimited program state = .ok () final) {globals : Globals}
    (same : SameOutside names globals state.names.values) (events : List Event)
    (notices : List Notice) (offset : Nat) :
    ∃ machine, runSteps .unlimited offset (chunkOf program).steps ⟨globals, events, notices⟩ =
        .ok () machine ∧
      machine.events = (shownEvents .unlimited program state).reverse ++ events ∧
      SameOutside names machine.names final.names.values := by
  induction program generalizing state globals events notices offset with
  | nil =>
    cases ran
    exact ⟨_, rfl, rfl, same⟩
  | cons stmt rest inductionHypothesis =>
    obtain ⟨_, next, first, others⟩ := bind_eq_ok.mp ran
    have restAvoids : ∀ later ∈ rest, later.avoids names = true :=
      fun later member => avoids later (List.mem_cons_of_mem stmt member)
    have restWithin : ∀ later ∈ rest, ∀ name, .value name ∈ Stmt.allTargets later.body →
        name ∈ names :=
      fun later member => within later (List.mem_cons_of_mem stmt member)
    rw [shownEvents_cons_ok first]
    cases compiled : stmt.instruction? with
    | some instruction =>
      obtain ⟨added, after, stepped, sameEvents, silent, agree⟩ :=
        Instruction.run_follows compiled (avoids stmt List.mem_cons_self) first same events
          (.executing offset instruction.operation :: notices)
      obtain ⟨machine, finished, allEvents, agreeAtEnd⟩ :=
        inductionHypothesis restAvoids restWithin others agree (added ++ events)
          (.executing offset instruction.operation :: notices) (offset + 1)
      have own : (if stmt.isPrint then eventsBetween state.events next.events else []) =
          added.reverse := by
        rw [sameEvents, eventsBetween_append]
        cases shows : stmt.isPrint with
        | true => rfl
        | false => rw [silent shows]; rfl
      refine ⟨machine, ?_, ?_, agreeAtEnd⟩
      · rw [steps_chunkOf_cons_some compiled]
        exact bind_eq_ok.mpr ⟨(), _, rfl, bind_eq_ok.mpr ⟨(), _, stepped, finished⟩⟩
      · rw [allEvents, own, List.reverse_append, List.reverse_reverse, List.append_assoc]
    | none =>
      have kept := Stmt.run_omitted compiled (within stmt List.mem_cons_self) .unlimited state
      rw [first] at kept
      have agree : SameOutside names globals next.names.values :=
        fun name outside => (same name outside).trans (kept name outside)
      have silent := Stmt.isPrint_of_omitted compiled
      obtain ⟨machine, finished, allEvents, agreeAtEnd⟩ :=
        inductionHypothesis restAvoids restWithin others agree events notices offset
      refine ⟨machine, ?_, ?_, agreeAtEnd⟩
      · rw [steps_chunkOf_cons_none compiled]
        exact finished
      · rw [allEvents, silent]
        rfl

theorem writtenBytes_flush (events : List Event) :
    writtenBytes (events ++ [.flush]) = writtenBytes events := by
  unfold writtenBytes
  rw [List.foldl_append]
  exact ByteArray.append_empty

/-- If no statement outside all blocks that shows or sets mentions a name set inside a block or
reads a field, and the program runs to its end from an empty environment, then its chunk runs to
its end as well. The machine writes what the show statements outside all blocks wrote, in order,
and every name not set inside a block has the same value in both runs, or in neither. -/
theorem runChunk_follows_runTree (program : Program)
    (avoids : ∀ stmt ∈ program, stmt.avoids (namesSetInside program) = true)
    (notices : List Notice) (final : RunState Environment)
    (ran : runTree .unlimited program ⟨.empty, [], notices⟩ = .ok () final) (globals : Globals)
    (machineNotices : List Notice) :
    ∃ machine, runChunk .unlimited (compile program).value ⟨globals, [], machineNotices⟩ =
        .ok () machine ∧
      writtenBytes machine.events.reverse =
        writtenBytes (shownEvents .unlimited program ⟨.empty, [], notices⟩) ∧
      ∀ name, name ∉ namesSetInside program →
        machine.names.get? name = final.names.values.get? name := by
  obtain ⟨middle, ranAll, rfl⟩ := thenFlush_unlimited_eq_ok.mp ran
  have within : ∀ stmt ∈ program, ∀ name, .value name ∈ Stmt.allTargets stmt.body →
      name ∈ namesSetInside program :=
    fun stmt member name inside => mem_namesSetInside member inside
  have start : SameOutside (namesSetInside program) .empty Environment.empty.values :=
    fun _ _ => rfl
  obtain ⟨machine, finished, events, same⟩ :=
    runSteps_follows program avoids within ranAll start [] machineNotices 0
  refine ⟨{ machine with events := .flush :: machine.events },
    thenFlush_unlimited_eq_ok.mpr ⟨machine, finished, rfl⟩, ?_, same⟩
  rw [events, List.append_nil, List.reverse_cons, List.reverse_reverse, writtenBytes_flush]

/-- A program that sets `x` outside all blocks, and `y` in a block, where a loop shows it twice. -/
def nestedProgram : Program :=
  [.assign 1 "x" "2",
    .block 2 (.branch "x > 1") [.assign 3 "y" "'in'", .block 4 (.loop "2") [.print 5 "y"]],
    .record 8 "point" (Table.empty.insert "left" "x + 1"),
    .print 11 "x * 3"]

theorem runChunk_follows_nestedProgram :
    ∃ final machine, runTree .unlimited nestedProgram ⟨.empty, [], []⟩ = .ok () final ∧
      runChunk .unlimited (compile nestedProgram).value ⟨.empty, [], []⟩ = .ok () machine ∧
      writtenBytes machine.events.reverse = "6\n".toUTF8 ∧
      machine.names.get? "x" = final.names.values.get? "x" := by
  obtain ⟨machine, ran, written, same⟩ :=
    runChunk_follows_runTree nestedProgram (by decide) [] _ rfl .empty []
  exact ⟨_, machine, rfl, ran, written, same "x" (by decide)⟩

end LineScript
