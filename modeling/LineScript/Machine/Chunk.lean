/-
Instructions. Only the statements outside all blocks that show or set have one; all other
statements are left out. A chunk keeps the instructions and, beside them, the lines they come
from.

A chunk can be listed: one line for each instruction with its offset, its source line, its operation
and its operands, where a bar stands for the source line of the instruction before. And it can be
run. Its variables are its own and start out empty; there are no records.
-/

import LineScript.Notice
import LineScript.Run.Action
import LineScript.Stmt.Basic
import LineScript.Table

namespace LineScript

/-- An instruction. Its expression stays text until it is executed. -/
inductive Instruction where
  | print (expr : String)
  | assign (name expr : String)
deriving DecidableEq, Repr

/-- The name of an instruction's operation. -/
def Instruction.operation : Instruction → String
  | .print _ => "PRINT"
  | .assign _ _ => "SET"

/-- Instructions and their lines. Either list may be longer than the other. -/
structure Chunk where
  code : List Instruction
  lines : List Nat
deriving DecidableEq, Repr

namespace Chunk

/-- The line of the instruction at an offset, zero if there is none. -/
def lineAt (chunk : Chunk) (offset : Nat) : Nat :=
  chunk.lines[offset]?.getD 0

/-- The instructions with their lines, as far as both go. -/
def steps (chunk : Chunk) : List (Instruction × Nat) :=
  chunk.code.zip chunk.lines

end Chunk

/-! ### Compilation -/

/-- The instruction of a statement, if it has one. -/
def Stmt.instruction? : Stmt → Option Instruction
  | .print _ expr => some (.print expr)
  | .assign _ name expr => some (.assign name expr)
  | _ => none

/-- The notice about a statement that has no instruction. -/
def Stmt.omission? (stmt : Stmt) : Option Notice :=
  match stmt.instruction? with
  | some _ => none
  | none => some (.notCompiled stmt.keyword stmt.line stmt.body.length)

/-- The chunk of a program. -/
def chunkOf (program : Program) : Chunk :=
  let compiled := program.filterMap fun stmt => stmt.instruction?.map fun code => (code, stmt.line)
  ⟨compiled.map Prod.fst, compiled.map Prod.snd⟩

/-- The chunk of a program, with a notice for every statement left out. -/
def compile (program : Program) : Logged Chunk :=
  let chunk := chunkOf program
  ⟨chunk, program.filterMap Stmt.omission? ++ [.compiled chunk.code.length]⟩

/-! ### Listings -/

/-- A text with blanks in front up to a width. -/
def padFront (width : Nat) (text : String) : String :=
  String.ofList (List.replicate (width - text.length) ' ') ++ text

/-- A text with blanks behind up to a width. -/
def padBack (width : Nat) (text : String) : String :=
  text ++ String.ofList (List.replicate (width - text.length) ' ')

/-- The operands of an instruction. -/
def Instruction.operands : Instruction → String
  | .print expr => "'" ++ expr ++ "'"
  | .assign name expr => name ++ " '" ++ expr ++ "'"

namespace Chunk

/-- The column for the source line of an instruction. -/
def lineColumn (chunk : Chunk) (offset : Nat) : String :=
  if 0 < offset ∧ chunk.lineAt offset = chunk.lineAt (offset - 1) then "   |"
  else padFront 4 (toString (chunk.lineAt offset))

/-- The line of the listing for one instruction. -/
def listInstruction (chunk : Chunk) (offset : Nat) (instruction : Instruction) : String :=
  fourDigits offset ++ " " ++ chunk.lineColumn offset ++ " " ++
    padBack 6 instruction.operation ++ " " ++ instruction.operands ++ "\n"

/-- The line of the listing at an offset; nothing where there is no instruction. -/
def listAt (chunk : Chunk) (offset : Nat) : String :=
  match chunk.code[offset]? with
  | some instruction => chunk.listInstruction offset instruction
  | none => ""

/-- The listing of a chunk. -/
def listing (chunk : Chunk) : String :=
  (List.range chunk.code.length).foldl (fun text offset => text ++ chunk.listAt offset)
    "== <script> ==\n"

end Chunk

/-! ### Runs -/

/-- The variables of a chunk. -/
abbrev Globals := Table Value

/-- What expressions see of the variables. No field can be read. -/
def globalBindings (globals : Globals) : Bindings :=
  ⟨globals.get?, fun _ _ => none⟩

/-- A step of a run over variables alone. -/
abbrev MachineAction := Action Globals

/-- Executes one instruction. -/
def Instruction.run (sink : Sink) (line : Nat) : Instruction → MachineAction Unit
  | .print expr => do
    let value ← evaluateAt globalBindings line expr
    writeLine sink value.text
  | .assign name expr => do
    let value ← evaluateAt globalBindings line expr
    changeNames fun globals => globals.insert name value

/-- Executes instructions in order, the first having the given offset. -/
def runSteps (sink : Sink) : (offset : Nat) → List (Instruction × Nat) → MachineAction Unit
  | _, [] => do note (.finished (← get).names.size)
  | offset, (instruction, line) :: rest => do
    note (.executing offset instruction.operation)
    instruction.run sink line
    runSteps sink (offset + 1) rest

/-- Runs a chunk from empty variables, and flushes at the end. -/
def runChunk (sink : Sink) (chunk : Chunk) : MachineAction Unit := do
  changeNames fun _ => .empty
  thenFlush sink (runSteps sink 0 chunk.steps)

end LineScript
