/-
From a source text to its output: lines, statements, and then a run in one of three modes.
-/

import LineScript.Machine.Chunk
import LineScript.Run.Tree
import LineScript.Script.Error

namespace LineScript

/-! ### Modes -/

/-- How a program is run: statement by statement, as instructions, or first the one and then the
other. -/
inductive Mode where
  | tree
  | machine
  | both
deriving DecidableEq, Repr

namespace Mode

/-- The mode where none is asked for. -/
def standard : Mode := .both

/-- The name of a mode. -/
def name : Mode → String
  | .tree => "tree"
  | .machine => "vm"
  | .both => "both"

/-- The mode of a name. -/
def ofName? (text : String) : Option Mode :=
  match text with
  | "tree" => some .tree
  | "vm" => some .machine
  | "both" => some .both
  | _ => none

/-- The description of the error that a name is no mode. -/
def unknownMessage (text : String) : String :=
  "unknown mode '" ++ text ++ "' (expected tree, vm or both)"

end Mode

/-! ### Programs from sources -/

/-- The program of a source text. -/
def parseSource [PatternEngine] (settings : Settings) (source : String) :
    Logged (Except StmtError Program) :=
  let lines := readSource settings.aliases source
  let program := parseProgram settings.strict lines.value
  ⟨program.value, lines.notices ++ program.notices⟩

/-- The chunk of a source text. -/
def compileSource [PatternEngine] (settings : Settings) (source : String) :
    Logged (Except StmtError Chunk) :=
  let program := parseSource settings source
  match program.value with
  | .error error => ⟨.error error, program.notices⟩
  | .ok statements =>
    let chunk := compile statements
    ⟨.ok chunk.value, program.notices ++ chunk.notices⟩

/-! ### Runs -/

/-- Runs a program statement by statement in an environment of its own. -/
def treePart (sink : Sink) (program : Program) : Action Unit Unit :=
  onOwnNames Environment.empty (runTree sink program)

/-- Compiles a program and runs the chunk, which is listed before if asked for. -/
def machinePart (sink : Sink) (listing : Bool) (program : Program) : Action Unit Unit := do
  let chunk := compile program
  chunk.notices.forM note
  if listing then
    writeText sink chunk.value.listing
    writeLine sink "---"
  onOwnNames Table.empty (runChunk sink chunk.value)

/-- Runs a program in a mode. -/
def runProgram (sink : Sink) (listing : Bool) (program : Program) : Mode → Action Unit Unit
  | .tree => treePart sink program
  | .machine => machinePart sink listing program
  | .both => do
    writeLine sink "▶ Interpreter"
    treePart sink program
    writeLine sink "\n▶ Compiler/VM"
    machinePart sink listing program

/-- What a run leaves behind: its events and notices, the earliest first, and the error that ended
it, if there was one. -/
structure Report where
  events : List Event
  notices : List Notice
  error? : Option ScriptError

/-- The report of a run that ended. -/
def Report.ofResult {names : Type} : EStateM.Result RunError (RunState names) Unit → Report
  | .ok _ state => ⟨state.events.reverse, state.notices.reverse, none⟩
  | .error error state => ⟨state.events.reverse, state.notices.reverse, some (.ofRun error)⟩

/-- Runs a source text. -/
def runSource [PatternEngine] (sink : Sink) (settings : Settings) (mode : Mode) (listing : Bool)
    (source : String) : Report :=
  let program := parseSource settings source
  match program.value with
  | .error error => ⟨[], program.notices, some (.parse error)⟩
  | .ok statements =>
    .ofResult (runProgram sink listing statements mode ⟨(), [], program.notices.reverse⟩)

/-- Runs a source text statement by statement in a given environment, and gives the environment
that the run leaves. A text that is no program leaves it as it is. -/
def runSourceIn [PatternEngine] (sink : Sink) (settings : Settings) (environment : Environment)
    (source : String) : Report × Environment :=
  let program := parseSource settings source
  match program.value with
  | .error error => (⟨[], program.notices, some (.parse error)⟩, environment)
  | .ok statements =>
    let result := runTree sink statements ⟨environment, [], program.notices.reverse⟩
    let final :=
      match result with
      | .ok _ state => state.names
      | .error _ state => state.names
    (.ofResult result, final)

/-- Runs a chunk, and gives the variables that the run leaves. -/
def runAlone (sink : Sink) (chunk : Chunk) : Report × Globals :=
  let result := runChunk sink chunk ⟨.empty, [], []⟩
  let final :=
    match result with
    | .ok _ state => state.names
    | .error _ state => state.names
  (.ofResult result, final)

end LineScript
