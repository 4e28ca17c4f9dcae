/-
Running a program statement by statement, blocks included. The names of such a run are variables,
data records and entities. There is one scope for all blocks.
-/

import LineScript.Run.Action
import LineScript.Stmt.Basic
import LineScript.Table
import LineScript.Text.Blank

namespace LineScript

/-! ### Environments -/

/-- A record: values of fields in the order in which they were given. -/
abbrev Record := Table Value

/-- The variables, data records and entities of a program. -/
structure Environment where
  values : Table Value
  records : Table Record
  entities : Table Record

namespace Environment

/-- The environment without names. -/
def empty : Environment :=
  ⟨.empty, .empty, .empty⟩

/-- Gives a variable a value. -/
def define (environment : Environment) (name : String) (value : Value) : Environment :=
  { environment with values := environment.values.insert name value }

/-- Stores a data record. -/
def defineRecord (environment : Environment) (name : String) (fields : Record) : Environment :=
  { environment with records := environment.records.insert name fields }

/-- Makes an entity, whose record is empty. -/
def defineEntity (environment : Environment) (name : String) : Environment :=
  { environment with entities := environment.entities.insert name .empty }

/-- The value of a field of a data record. -/
def field? (environment : Environment) (name field : String) : Option Value :=
  (environment.records.get? name).bind fun fields => fields.get? field

/-- What expressions see of an environment. -/
def bindings (environment : Environment) : Bindings :=
  ⟨environment.values.get?, environment.field?⟩

end Environment

/-! ### Steps -/

/-- A step of a run over an environment. -/
abbrev TreeAction := Action Environment

/-- The number of frames of a tick block. -/
def tickFrames : Nat := 3

/-- The pause between two frames, in milliseconds. -/
def tickInterval : Nat := 200

/-! ### Statements without a block -/

/-- The values of the fields of a record, in order. -/
def evaluateFields (line : Nat) : Record → List (String × String) → TreeAction Record
  | fields, [] => return fields
  | fields, (field, expr) :: rest => do
    let value ← evaluateAt Environment.bindings line expr
    evaluateFields line (fields.insert field value) rest

/-- The number of times that a loop runs. -/
def loopCount (line : Nat) (count : String) : TreeAction Nat := do
  let value ← evaluateAt Environment.bindings line count
  match value.count with
  | .ok n => return n.toInt.toNat
  | .error fault => throw (.eval ⟨.fault fault, Text.trim count, some line⟩)

/-! ### Blocks -/

/-- The frames of a tick block from a number on. Between two of them the output is flushed and the
run pauses. -/
def runFrames (sink : Sink) (body : TreeAction Unit) : (count frame : Nat) → TreeAction Unit
  | 0, _ => return ()
  | count + 1, frame => do
    if 0 < frame then
      flushSink sink
      emit (.pause tickInterval)
    note (.frame (frame + 1))
    body
    runFrames sink body count (frame + 1)

/-- Runs a block: what its header says, with the statements inside it as `body`. -/
def Header.run (sink : Sink) (line : Nat) (body : TreeAction Unit) : Header → TreeAction Unit
  | .branch condition => do
    let value ← evaluateAt Environment.bindings line condition
    if value.isTruthy then body
  | .loop count => do
    let repetitions ← loopCount line count
    times body repetitions
  | .game => do
    writeLine sink "🎮 Game engine started"
    body
  | .scene name => do
    writeLine sink ("🗺 Scene: " ++ name)
    body
  | .entity name => do
    changeNames fun environment => environment.defineEntity name
    writeLine sink ("👾 Entity: " ++ name)
    body
  | .tick => do
    writeLine sink ("⏱ Tick loop (" ++ toString tickFrames ++ " frames)")
    runFrames sink body tickFrames 0
  | .page name => do
    writeLine sink ("🖼 UI page: " ++ name)
    body
  | .route path => do
    writeLine sink ("🌐 Route: " ++ path)
    body

mutual

/-- Runs a statement. -/
def Stmt.run (sink : Sink) : Stmt → TreeAction Unit
  | .print line expr => do
    let value ← evaluateAt Environment.bindings line expr
    writeLine sink value.text
  | .assign line name expr => do
    let value ← evaluateAt Environment.bindings line expr
    changeNames fun environment => environment.define name value
  | .record line name fields => do
    let values ← evaluateFields line .empty fields.entries
    changeNames fun environment => environment.defineRecord name values
  | .block line header body => header.run sink line (Stmt.runAll sink body)

/-- Runs statements in order. -/
def Stmt.runAll (sink : Sink) : List Stmt → TreeAction Unit
  | [] => return ()
  | first :: rest => do
    first.run sink
    Stmt.runAll sink rest

end

/-! ### Programs -/

/-- Runs a program over the environment at hand, and flushes at the end. -/
def runTree (sink : Sink) (program : Program) : TreeAction Unit :=
  thenFlush sink (Stmt.runAll sink program)

end LineScript
