/-
This file runs statements over names that may be kept in any way. A store says what expressions see
of the names and what a change does to them. Over the store of environments this is the run of a
program. Over another store the same statements run in the same way, and the names may hold more
than an environment does.

What holds of every run is shown once. A relation between actions is compositional when it holds of
the single steps of a run and passes from two actions to the one after the other. Such a relation
holds of the runs of every statement, wherever it stands and however often it is repeated. A
property of one action is a relation that does not look at the second.

A relation that does not look at the names is pervasive when it also passes on to the parts of which
a whole run is made. It holds of the runs of every program in every mode.
-/

import LineScript.Proofs.Action
import LineScript.Script.Run

namespace LineScript

/-! ### Targets and changes -/

/-- What a statement may give a new value to. -/
inductive Target where
  | value (name : String)
  | record (name : String)
  | entity (name : String)
deriving DecidableEq

/-- A change of the names: what a target gets. An entity always gets an empty record. -/
inductive Change where
  | value (name : String) (value : Value)
  | record (name : String) (fields : Record)
  | entity (name : String)

/-- The target of a change. -/
def Change.target : Change → Target
  | .value name _ => .value name
  | .record name _ => .record name
  | .entity name => .entity name

/-- An environment after a change. -/
def Change.apply : Change → Environment → Environment
  | .value name given, environment => environment.define name given
  | .record name fields, environment => environment.defineRecord name fields
  | .entity name, environment => environment.defineEntity name

/-- The targets of a header. -/
def Header.targets : Header → List Target
  | .entity name => [.entity name]
  | _ => []

/-- The expressions of a header. -/
def Header.expressions : Header → List String
  | .branch condition => [condition]
  | .loop count => [count]
  | _ => []

mutual

/-- The targets of a statement and of all statements inside it. -/
def Stmt.targets : Stmt → List Target
  | .print _ _ => []
  | .assign _ name _ => [.value name]
  | .record _ name _ => [.record name]
  | .block _ header body => header.targets ++ Stmt.allTargets body

/-- The targets of statements and of all statements inside them. -/
def Stmt.allTargets : List Stmt → List Target
  | [] => []
  | first :: rest => first.targets ++ Stmt.allTargets rest

end

mutual

/-- The expressions of a statement and of all statements inside it. -/
def Stmt.expressions : Stmt → List String
  | .print _ expr => [expr]
  | .assign _ _ expr => [expr]
  | .record _ _ fields => fields.entries.map Prod.snd
  | .block _ header body => header.expressions ++ Stmt.allExpressions body

/-- The expressions of statements and of all statements inside them. -/
def Stmt.allExpressions : List Stmt → List String
  | [] => []
  | first :: rest => first.expressions ++ Stmt.allExpressions rest

end

/-! ### Runs over a store -/

/-- How names are kept: what expressions see of them, and what a change does to them. -/
structure Store (names : Type) where
  bindings : names → Bindings
  change : Change → names → names

/-- Environments as a store. -/
def Store.environments : Store Environment :=
  ⟨Environment.bindings, Change.apply⟩

/-- A flush and the pause between two frames. -/
def pauseBetween {names : Type} (sink : Sink) : Action names Unit := do
  flushSink sink
  emit (.pause tickInterval)

namespace Store

variable {names : Type} (store : Store names) (sink : Sink)

/-- The values of the fields of a record, in order. -/
def evaluateFields (line : Nat) : Record → List (String × String) → Action names Record
  | fields, [] => return fields
  | fields, (field, expr) :: rest => do
    let value ← evaluateAt store.bindings line expr
    evaluateFields line (fields.insert field value) rest

/-- The number of times that a loop runs. -/
def loopCount (line : Nat) (count : String) : Action names Nat := do
  let value ← evaluateAt store.bindings line count
  match value.count with
  | .ok n => return n.toInt.toNat
  | .error fault => throw (.eval ⟨.fault fault, Text.trim count, some line⟩)

/-- The frames of a tick block from a number on. -/
def runFrames (body : Action names Unit) : (count frame : Nat) → Action names Unit
  | 0, _ => return ()
  | count + 1, frame => do
    if 0 < frame then pauseBetween sink
    note (.frame (frame + 1))
    body
    runFrames body count (frame + 1)

/-- Runs a block, with the statements inside it as `body`. -/
def runBlock (line : Nat) (body : Action names Unit) : Header → Action names Unit
  | .branch condition => do
    let value ← evaluateAt store.bindings line condition
    if value.isTruthy then body
  | .loop count => do
    let repetitions ← store.loopCount line count
    times body repetitions
  | .game => do
    writeLine sink "🎮 Game engine started"
    body
  | .scene name => do
    writeLine sink ("🗺 Scene: " ++ name)
    body
  | .entity name => do
    changeNames (store.change (.entity name))
    writeLine sink ("👾 Entity: " ++ name)
    body
  | .tick => do
    writeLine sink ("⏱ Tick loop (" ++ toString tickFrames ++ " frames)")
    runFrames sink body tickFrames 0
  | .page name => do
    writeLine sink ("🖼 UI page: " ++ name)
    body
  | .route path => do
    writeLine sink ("🌐 Route: " ++ path)
    body

mutual

/-- Runs a statement. -/
def run : Stmt → Action names Unit
  | .print line expr => do
    let value ← evaluateAt store.bindings line expr
    writeLine sink value.text
  | .assign line name expr => do
    let value ← evaluateAt store.bindings line expr
    changeNames (store.change (.value name value))
  | .record line name fields => do
    let values ← store.evaluateFields line .empty fields.entries
    changeNames (store.change (.record name values))
  | .block line header body => store.runBlock sink line (runAll body) header

/-- Runs statements in order. -/
def runAll : List Stmt → Action names Unit
  | [] => return ()
  | first :: rest => do
    run first
    runAll rest

end

end Store

/-! ### Runs over environments -/

theorem evaluateFields_environments (line : Nat) (fields : Record)
    (entries : List (String × String)) :
    Store.environments.evaluateFields line fields entries = evaluateFields line fields entries := by
  induction entries generalizing fields with
  | nil => rfl
  | cons entry rest inductionHypothesis =>
    obtain ⟨field, expr⟩ := entry
    exact congrArg _ (funext fun value => inductionHypothesis (fields.insert field value))

theorem runFrames_eq (sink : Sink) (body : TreeAction Unit) (count frame : Nat) :
    Store.runFrames sink body count frame = runFrames sink body count frame := by
  induction count generalizing frame with
  | zero => rfl
  | succ count inductionHypothesis =>
    rw [Store.runFrames, runFrames, inductionHypothesis]
    by_cases later : 0 < frame
    · rw [if_pos later, if_pos later]
      exact bind_assoc _ _ _
    · rw [if_neg later, if_neg later]

theorem runBlock_environments (sink : Sink) (line : Nat) (body : TreeAction Unit)
    (header : Header) : Store.environments.runBlock sink line body header =
      header.run sink line body := by
  cases header with
  | tick => rw [Store.runBlock, Header.run, runFrames_eq]
  | _ => rfl

mutual

/-- Running a statement over environments is running it. -/
theorem run_environments (sink : Sink) (stmt : Stmt) :
    Store.environments.run sink stmt = stmt.run sink := by
  match stmt with
  | .print line expr => rfl
  | .assign line name expr => rfl
  | .record line name fields =>
    rw [Store.run, Stmt.run, evaluateFields_environments]
    rfl
  | .block line header body =>
    rw [Store.run, Stmt.run, runAll_environments sink body, runBlock_environments]

theorem runAll_environments (sink : Sink) (statements : List Stmt) :
    Store.environments.runAll sink statements = Stmt.runAll sink statements := by
  match statements with
  | [] => rfl
  | first :: rest =>
    rw [Store.runAll, Stmt.runAll, run_environments sink first, runAll_environments sink rest]

end

/-! ### Compositional relations -/

/-- A relation between actions over two stores that holds of the steps of a run and passes from
parts to the whole. Only some expressions may be evaluated, and only some changes be made. -/
structure Compositional {names others : Type} (store : Store names) (other : Store others)
    (sink otherSink : Sink) (readable : String → Prop) (allowed : Change → Prop)
    (related : (α : Type) → Action names α → Action others α → Prop) : Prop where
  pure : ∀ {α : Type} (value : α), related α (pure value) (pure value)
  throw : ∀ {α : Type} (error : RunError), related α (throw error) (throw error)
  bind : ∀ {α β : Type} {left : Action names α} {right : Action others α}
    {leftNext : α → Action names β} {rightNext : α → Action others β}, related α left right →
    (∀ value, related β (leftNext value) (rightNext value)) →
    related β (left >>= leftNext) (right >>= rightNext)
  note : ∀ notice, related Unit (note notice) (note notice)
  evaluateAt : ∀ line expr, readable expr →
    related Value (evaluateAt store.bindings line expr) (evaluateAt other.bindings line expr)
  writeLine : ∀ text, related Unit (writeLine sink text) (writeLine otherSink text)
  pauseBetween : related Unit (pauseBetween sink) (pauseBetween otherSink)
  changeNames : ∀ change, allowed change →
    related Unit (changeNames (store.change change)) (changeNames (other.change change))

namespace Compositional

variable {names others : Type} {store : Store names} {other : Store others}
  {sink otherSink : Sink} {readable : String → Prop} {allowed : Change → Prop}
  {related : (α : Type) → Action names α → Action others α → Prop}
  (compositional : Compositional store other sink otherSink readable allowed related)

include compositional

theorem times {left : Action names Unit} {right : Action others Unit}
    (each : related Unit left right) (count : Nat) :
    related Unit (LineScript.times left count) (LineScript.times right count) := by
  induction count with
  | zero => exact compositional.pure ()
  | succ count inductionHypothesis =>
    exact compositional.bind each fun _ => inductionHypothesis

theorem evaluateFields (line : Nat) (fields : Record) (entries : List (String × String))
    (read : ∀ expr ∈ entries.map Prod.snd, readable expr) :
    related Record (store.evaluateFields line fields entries)
      (other.evaluateFields line fields entries) := by
  induction entries generalizing fields with
  | nil => exact compositional.pure fields
  | cons entry rest inductionHypothesis =>
    obtain ⟨field, expr⟩ := entry
    obtain ⟨first, later⟩ := List.forall_mem_cons.mp read
    exact compositional.bind (compositional.evaluateAt line expr first) fun value =>
      inductionHypothesis (fields.insert field value) later

theorem loopCount (line : Nat) (count : String) (read : readable count) :
    related Nat (store.loopCount line count) (other.loopCount line count) := by
  refine compositional.bind (compositional.evaluateAt line count read) fun value => ?_
  cases value.count with
  | ok n => exact compositional.pure _
  | error fault => exact compositional.throw _

theorem runFrames {left : Action names Unit} {right : Action others Unit}
    (inside : related Unit left right) (count frame : Nat) :
    related Unit (Store.runFrames sink left count frame)
      (Store.runFrames otherSink right count frame) := by
  induction count generalizing frame with
  | zero => exact compositional.pure ()
  | succ count inductionHypothesis =>
    have frames := compositional.bind (compositional.note (.frame (frame + 1))) fun _ =>
      compositional.bind inside fun _ => inductionHypothesis (frame + 1)
    rw [Store.runFrames, Store.runFrames]
    by_cases later : 0 < frame
    · rw [if_pos later, if_pos later]
      exact compositional.bind compositional.pauseBetween fun _ => frames
    · rw [if_neg later, if_neg later]
      exact frames

theorem runBlock {left : Action names Unit} {right : Action others Unit}
    (inside : related Unit left right) (line : Nat) (header : Header)
    (read : ∀ expr ∈ header.expressions, readable expr)
    (made : ∀ change, change.target ∈ header.targets → allowed change) :
    related Unit (store.runBlock sink line left header)
      (other.runBlock otherSink line right header) := by
  have afterLine (text : String) :=
    compositional.bind (compositional.writeLine text) fun _ => inside
  cases header with
  | branch condition =>
    have evaluated := compositional.evaluateAt line condition (read _ (List.mem_singleton_self _))
    refine compositional.bind evaluated fun value => ?_
    cases value.isTruthy with
    | true => exact inside
    | false => exact compositional.pure ()
  | loop count =>
    have counted := compositional.loopCount line count (read _ (List.mem_singleton_self _))
    exact compositional.bind counted fun repetitions => compositional.times inside repetitions
  | game => exact afterLine _
  | scene name => exact afterLine _
  | entity name =>
    have entered := compositional.changeNames (.entity name) (made _ (List.mem_singleton_self _))
    exact compositional.bind entered fun _ => afterLine _
  | tick =>
    exact compositional.bind (compositional.writeLine _) fun _ =>
      compositional.runFrames inside tickFrames 0
  | page name => exact afterLine _
  | route path => exact afterLine _

mutual

/-- A compositional relation holds of the runs of a statement. -/
theorem run (stmt : Stmt) (read : ∀ expr ∈ stmt.expressions, readable expr)
    (made : ∀ change, change.target ∈ stmt.targets → allowed change) :
    related Unit (store.run sink stmt) (other.run otherSink stmt) := by
  match stmt with
  | .print line expr =>
    have evaluated := compositional.evaluateAt line expr (read _ (List.mem_singleton_self _))
    exact compositional.bind evaluated fun value => compositional.writeLine value.text
  | .assign line name expr =>
    have evaluated := compositional.evaluateAt line expr (read _ (List.mem_singleton_self _))
    exact compositional.bind evaluated fun value =>
      compositional.changeNames (.value name value) (made _ (List.mem_singleton_self _))
  | .record line name fields =>
    have evaluated := compositional.evaluateFields line .empty fields.entries read
    exact compositional.bind evaluated fun values =>
      compositional.changeNames (.record name values) (made _ (List.mem_singleton_self _))
  | .block line header body =>
    obtain ⟨outside, inside⟩ := List.forall_mem_append.mp read
    refine compositional.runBlock (runAll body inside fun change member => ?_) line header outside
      fun change member => ?_
    · exact made change (List.mem_append_right _ member)
    · exact made change (List.mem_append_left _ member)

/-- A compositional relation holds of the runs of statements in order. -/
theorem runAll (statements : List Stmt)
    (read : ∀ expr ∈ Stmt.allExpressions statements, readable expr)
    (made : ∀ change, change.target ∈ Stmt.allTargets statements → allowed change) :
    related Unit (store.runAll sink statements) (other.runAll otherSink statements) := by
  match statements with
  | [] => exact compositional.pure ()
  | first :: rest =>
    obtain ⟨here, later⟩ := List.forall_mem_append.mp read
    refine compositional.bind (run first here fun change member => ?_) fun _ =>
      runAll rest later fun change member => ?_
    · exact made change (List.mem_append_left _ member)
    · exact made change (List.mem_append_right _ member)

end

end Compositional

/-! ### Lockstep over two stores -/

/-- Running in lockstep passes from parts to the whole, if related names give the same value to
every expression that may be read, and a change on both sides leaves related names. -/
theorem Lockstep.compositional {names others : Type} {store : Store names} {other : Store others}
    {related : names → others → Prop} {readable : String → Prop} (sink : Sink)
    (reads : ∀ found given, related found given → ∀ expr, readable expr →
      evaluate (store.bindings found) expr = evaluate (other.bindings given) expr)
    (changes : ∀ change found given, related found given →
      related (store.change change found) (other.change change given)) :
    Compositional store other sink sink readable (fun _ => True)
      fun _ left right => Lockstep related left right where
  pure value := Lockstep.pure value
  throw error := Lockstep.throw error
  bind first rest := Lockstep.bind first rest
  note notice := Lockstep.note notice
  evaluateAt _ expr read := Lockstep.evaluateAt fun found given same =>
    reads found given same expr read
  writeLine text := Lockstep.writeLine sink text
  pauseBetween := Lockstep.bind (Lockstep.flushSink sink) fun _ => Lockstep.emit _
  changeNames change _ := Lockstep.changeNames (changes change)

/-! ### Whole programs -/

/-- A relation between actions into two sinks, whatever the names are, that holds of the steps of a
run and passes from parts to the whole. -/
structure Pervasive (sink otherSink : Sink)
    (related : (names α : Type) → Action names α → Action names α → Prop) : Prop where
  pure : ∀ {names α : Type} (value : α), related names α (pure value) (pure value)
  throw : ∀ {names α : Type} (error : RunError), related names α (throw error) (throw error)
  bind : ∀ {names α β : Type} {left right : Action names α}
    {leftNext rightNext : α → Action names β}, related names α left right →
    (∀ value, related names β (leftNext value) (rightNext value)) →
    related names β (left >>= leftNext) (right >>= rightNext)
  get : ∀ {names : Type}, related names (RunState names) get get
  note : ∀ {names : Type} (notice : Notice), related names Unit (note notice) (note notice)
  evaluateAt : ∀ {names : Type} (bindings : names → Bindings) (line : Nat) (expr : String),
    related names Value (evaluateAt bindings line expr) (evaluateAt bindings line expr)
  writeText : ∀ {names : Type} (text : String),
    related names Unit (writeText sink text) (writeText otherSink text)
  pauseBetween : ∀ {names : Type}, related names Unit (pauseBetween sink) (pauseBetween otherSink)
  changeNames : ∀ {names : Type} (change : names → names),
    related names Unit (changeNames change) (changeNames change)
  thenFlush : ∀ {names : Type} {left right : Action names Unit}, related names Unit left right →
    related names Unit (thenFlush sink left) (thenFlush otherSink right)
  onOwnNames : ∀ {names others : Type} (initial : names) {left right : Action names Unit},
    related names Unit left right →
    related others Unit (onOwnNames initial left) (onOwnNames initial right)

namespace Pervasive

variable {sink otherSink : Sink}
  {related : (names α : Type) → Action names α → Action names α → Prop}
  (pervasive : Pervasive sink otherSink related)

include pervasive

theorem compositional {names : Type} (store : Store names) :
    Compositional store store sink otherSink (fun _ => True) (fun _ => True) (related names) where
  pure := pervasive.pure
  throw := pervasive.throw
  bind := pervasive.bind
  note := pervasive.note
  evaluateAt line expr _ := pervasive.evaluateAt store.bindings line expr
  writeLine text := pervasive.writeText (text ++ "\n")
  pauseBetween := pervasive.pauseBetween
  changeNames change _ := pervasive.changeNames (store.change change)

theorem treePart (program : Program) :
    related Unit Unit (LineScript.treePart sink program)
      (LineScript.treePart otherSink program) := by
  have statements := (pervasive.compositional .environments).runAll program
    (fun _ _ => trivial) fun _ _ => trivial
  rw [runAll_environments, runAll_environments] at statements
  exact pervasive.onOwnNames _ (pervasive.thenFlush statements)

theorem runSteps (offset : Nat) (steps : List (Instruction × Nat)) :
    related Globals Unit (LineScript.runSteps sink offset steps)
      (LineScript.runSteps otherSink offset steps) := by
  induction steps generalizing offset with
  | nil => exact pervasive.bind pervasive.get fun state => pervasive.note _
  | cons step rest inductionHypothesis =>
    obtain ⟨instruction, line⟩ := step
    have executed : related Globals Unit (instruction.run sink line)
        (instruction.run otherSink line) := by
      cases instruction with
      | print expr =>
        exact pervasive.bind (pervasive.evaluateAt _ line expr) fun value => pervasive.writeText _
      | assign name expr =>
        exact pervasive.bind (pervasive.evaluateAt _ line expr) fun value =>
          pervasive.changeNames _
    exact pervasive.bind (pervasive.note _) fun _ =>
      pervasive.bind executed fun _ => inductionHypothesis (offset + 1)

theorem runChunk (chunk : Chunk) :
    related Globals Unit (LineScript.runChunk sink chunk)
      (LineScript.runChunk otherSink chunk) :=
  pervasive.bind (pervasive.changeNames _) fun _ =>
    pervasive.thenFlush (pervasive.runSteps 0 chunk.steps)

theorem forM_note {names : Type} (notices : List Notice) :
    related names Unit (notices.forM LineScript.note) (notices.forM LineScript.note) := by
  induction notices with
  | nil => exact pervasive.pure ()
  | cons notice rest inductionHypothesis =>
    exact pervasive.bind (pervasive.note notice) fun _ => inductionHypothesis

theorem machinePart (listing : Bool) (program : Program) :
    related Unit Unit (LineScript.machinePart sink listing program)
      (LineScript.machinePart otherSink listing program) := by
  have ran : related Unit Unit _ _ :=
    pervasive.onOwnNames Table.empty (pervasive.runChunk (compile program).value)
  refine pervasive.bind (pervasive.forM_note _) fun _ => ?_
  cases listing with
  | false => exact ran
  | true =>
    exact pervasive.bind (pervasive.writeText _) fun _ =>
      pervasive.bind (pervasive.writeText _) fun _ => ran

/-- A pervasive relation holds of the runs of a program in every mode. -/
theorem runProgram (listing : Bool) (program : Program) (mode : Mode) :
    related Unit Unit (LineScript.runProgram sink listing program mode)
      (LineScript.runProgram otherSink listing program mode) := by
  have tree := pervasive.treePart program
  have machine := pervasive.machinePart listing program
  cases mode with
  | tree => exact tree
  | machine => exact machine
  | both =>
    exact pervasive.bind (pervasive.writeText _) fun _ => pervasive.bind tree fun _ =>
      pervasive.bind (pervasive.writeText _) fun _ => machine

end Pervasive

theorem events_ofResult {names : Type} (result : EStateM.Result RunError (RunState names) Unit) :
    (Report.ofResult result).events = (endState result).events.reverse := by
  cases result <;> rfl

/-- The report on a source that is a program is that of the program's run. -/
theorem runSource_of_ok [PatternEngine] {settings : Settings} {source : String} {program : Program}
    (parsed : (parseSource settings source).value = .ok program) (sink : Sink) (mode : Mode)
    (listing : Bool) :
    runSource sink settings mode listing source =
      .ofResult (runProgram sink listing program mode
        ⟨(), [], (parseSource settings source).notices.reverse⟩) := by
  unfold runSource
  simp only [parsed]

theorem runSource_of_error [PatternEngine] {settings : Settings} {source : String}
    {error : StmtError} (refused : (parseSource settings source).value = .error error) (sink : Sink)
    (mode : Mode) (listing : Bool) :
    runSource sink settings mode listing source =
      ⟨[], (parseSource settings source).notices, some (.parse error)⟩ := by
  unfold runSource
  simp only [refused]

end LineScript
