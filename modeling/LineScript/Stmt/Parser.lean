/-
Reading statements from lines. Each line is classified by itself; blocks are then put together by
reading up to the `end` that closes them. A line that is no statement is skipped, or refused if
the reading is strict.
-/

import LineScript.Line.Basic
import LineScript.Stmt.Basic
import LineScript.Token.Scan

namespace LineScript

open Text

/-! ### Errors -/

/-- Why lines are no program. -/
inductive StmtError where
  | unterminatedBlock (keyword : String) (line : Nat)
  | missingSeparator (construct text : String) (line : Nat)
  | missingOperand (keyword expected : String) (line : Nat)
  | invalidName (name : String) (line : Nat)
  | trailingInput (keyword text : String) (line : Nat)
  | unexpectedEnd (line : Nat)
  | unknownStatement (text : String) (line : Nat)
deriving DecidableEq, Repr

namespace StmtError

/-- The line an error is about. -/
def line : StmtError → Nat
  | .unterminatedBlock _ line => line
  | .missingSeparator _ _ line => line
  | .missingOperand _ _ line => line
  | .invalidName _ line => line
  | .trailingInput _ _ line => line
  | .unexpectedEnd line => line
  | .unknownStatement _ line => line

/-- The description of an error. -/
def message : StmtError → String
  | .unterminatedBlock keyword line =>
    "Unterminated '" ++ keyword ++ "' block opened at line " ++ toString line ++
      ", expected 'end'"
  | .missingSeparator construct _ line =>
    "Missing '=' in " ++ construct ++ " at line " ++ toString line
  | .missingOperand keyword expected line =>
    "'" ++ keyword ++ "' at line " ++ toString line ++ " expects " ++ expected
  | .invalidName name line => "Invalid name '" ++ name ++ "' at line " ++ toString line
  | .trailingInput keyword _ line =>
    "Unexpected input after '" ++ keyword ++ "' at line " ++ toString line
  | .unexpectedEnd line => "'end' at line " ++ toString line ++ " does not close any block"
  | .unknownStatement _ line => "Unknown statement at line " ++ toString line

/-- What may help to mend an error. -/
def hint? : StmtError → Option String
  | .unterminatedBlock _ _ => some "add a line containing only 'end'"
  | .missingSeparator _ text _ => some ("expected 'name = value' in: " ++ text)
  | .missingOperand _ _ _ => none
  | .invalidName _ _ =>
    some "names start with a letter or '_' and contain only letters, digits and '_'"
  | .trailingInput _ text _ => some text
  | .unexpectedEnd _ => none
  | .unknownStatement text _ => some text

end StmtError

/-! ### Parts of a line -/

/-- A text cut at its first equals sign, both parts trimmed. -/
def splitAtEquals? (text : String) : Option (String × String) :=
  let chars := text.toList
  match chars.dropWhile (· != '=') with
  | [] => none
  | _ :: rest =>
    some (trim (String.ofList (chars.takeWhile (· != '='))), trim (String.ofList rest))

/-- A part of a line that may not be empty. -/
def required (number : Nat) (keyword expected text : String) : Except StmtError String :=
  if text = "" then .error (.missingOperand keyword expected number) else .ok text

/-- A part of a line that has to be empty. -/
def noTrailing (number : Nat) (keyword text : String) : Except StmtError Unit :=
  if text = "" then .ok () else .error (.trailingInput keyword text number)

/-- The one word that a block opener takes. -/
def singleOperand (number : Nat) (keyword expected rest : String) : Except StmtError String := do
  let (word, trailing) := firstWord rest
  let operand ← required number keyword expected word
  noTrailing number keyword trailing
  return operand

/-- A part of a line that has to be an identifier. -/
def validName (number : Nat) (name : String) : Except StmtError String :=
  if isIdentifier name then .ok name else .error (.invalidName name number)

/-- A name and a value with an equals sign between them. `keyword?` is what an error about a
missing value names; without it that is the name itself. -/
def binding (number : Nat) (construct whole text : String) (keyword? : Option String) :
    Except StmtError (String × String) :=
  match splitAtEquals? text with
  | none => .error (.missingSeparator construct whole number)
  | some (left, right) => do
    let name ← validName number left
    let expr ← required number (keyword?.getD name) "a value after '='" right
    return (name, expr)

/-! ### Classification -/

/-- What a line is by itself. -/
inductive Reading where
  | statement (stmt : Stmt)
  | opener (header : Header)
  | recordOpener (name : String)
  | closing
  | unknown

/-- Whether a line closes a block. -/
def Line.isEnd (line : Line) : Bool :=
  trim line.text == "end"

/-- What a line is by itself, or what is wrong with it. -/
def Line.classify (line : Line) : Except StmtError Reading :=
  let whole := trim line.text
  let (keyword, rest) := firstWord whole
  let (second, others) := firstWord rest
  match keyword with
  | "show" => do
    let expr ← required line.number keyword "an expression" rest
    return .statement (.print line.number expr)
  | "set" => do
    let (name, expr) ← binding line.number "set statement" whole rest (some "set")
    return .statement (.assign line.number name expr)
  | "if" => do
    let condition ← required line.number keyword "a condition" rest
    return .opener (.branch condition)
  | "loop" => do
    let count ← singleOperand line.number keyword "an iteration count" rest
    return .opener (.loop count)
  | "data" => do
    let name ← singleOperand line.number keyword "a data block name" rest
    return .recordOpener (← validName line.number name)
  | "game" =>
    if second = "start" then do
      noTrailing line.number "game start" others
      return .opener .game
    else .ok .unknown
  | "scene" => do
    let name ← singleOperand line.number keyword "a scene name" rest
    return .opener (.scene name)
  | "entity" => do
    let name ← singleOperand line.number keyword "an entity name" rest
    return .opener (.entity name)
  | "tick" => do
    noTrailing line.number keyword rest
    return .opener .tick
  | "ui" =>
    if second = "page" then do
      let name ← singleOperand line.number "ui page" "a page name" others
      return .opener (.page name)
    else .ok .unknown
  | "route" => do
    let path ← singleOperand line.number keyword "a route path" rest
    return .opener (.route path)
  | "end" => if rest = "" then .ok .closing else .ok .unknown
  | _ => .ok .unknown

/-! ### Records -/

/-- The fields of a record up to its `end`, and the lines after it. A field given again keeps its
place and takes the new text. -/
def recordFields (opener : Nat) :
    Table String → List Line → Except StmtError (Table String × List Line)
  | _, [] => .error (.unterminatedBlock "data" opener)
  | fields, line :: rest =>
    if line.isEnd then .ok (fields, rest)
    else
      let whole := trim line.text
      match binding line.number "data field" whole whole none with
      | .error error => .error error
      | .ok (field, expr) => recordFields opener (fields.insert field expr) rest

/-! ### Blocks -/

/-- How far a reading has come: the lines still ahead, and those that were skipped, the latest
first. -/
structure Progress where
  ahead : List Line
  skipped : List Line

/-- A reading of lines. -/
abbrev LineReader := EStateM StmtError Progress

/-- Takes the next line, if there is one. -/
def takeLine : LineReader (Option Line) := do
  let progress ← get
  match progress.ahead with
  | [] => return none
  | line :: rest =>
    set { progress with ahead := rest }
    return some line

/-- Takes the `end` of a block. -/
def takeEnd (keyword : String) (opener : Nat) : LineReader Unit := do
  match ← takeLine with
  | none => throw (.unterminatedBlock keyword opener)
  | some _ => return ()

/-- Whether a block may go on: there is a line ahead, and it is no `end`. -/
def goesOn : LineReader Bool := do
  match (← get).ahead with
  | [] => return false
  | line :: _ => return !line.isEnd

/-- Takes the fields of a record. -/
def takeFields (opener : Nat) : LineReader (Table String) := do
  let progress ← get
  match recordFields opener .empty progress.ahead with
  | .error error => throw error
  | .ok (fields, rest) =>
    set { progress with ahead := rest }
    return fields

/-- Leaves out a line that is no statement. -/
def skipLine (strict : Bool) (line : Line) : LineReader Unit :=
  if strict then throw (.unknownStatement (trim line.text) line.number)
  else modify fun progress => { progress with skipped := line :: progress.skipped }

/-- Takes the statement that starts with a line already taken. `body` takes the statements of a
block up to its `end`. -/
def statementAt (strict : Bool) (body : LineReader (List Stmt)) (line : Line) :
    LineReader (Option Stmt) := do
  match line.classify with
  | .error error => throw error
  | .ok (.statement stmt) => return some stmt
  | .ok (.opener header) =>
    let statements ← body
    takeEnd header.keyword line.number
    return some (.block line.number header statements)
  | .ok (.recordOpener name) =>
    let fields ← takeFields line.number
    return some (.record line.number name fields)
  | .ok .closing => throw (.unexpectedEnd line.number)
  | .ok .unknown =>
    skipLine strict line
    return none

/-- Takes statements up to an `end` or the last line. Every statement takes at least one line, so
a `fuel` of the number of lines is enough. -/
def blockOf (strict : Bool) : (fuel : Nat) → LineReader (List Stmt)
  | 0 => return []
  | fuel + 1 => do
    if ← goesOn then
      match ← takeLine with
      | none => return []
      | some line =>
        let first ← statementAt strict (blockOf strict fuel) line
        let others ← blockOf strict fuel
        return first.toList ++ others
    else return []

/-! ### Reading at a place -/

/-- What was read from a place on: its result and the index of the next line. -/
structure ReadAt (α : Type) where
  value : α
  next : Nat

/-- The outcome of a reading that starts at an index. -/
def readAt {α : Type} (lines : List Line) (index : Nat) (reader : LineReader α) :
    Except StmtError (ReadAt α) × List Line :=
  let ahead := lines.drop index
  match reader.run ⟨ahead, []⟩ with
  | .ok value progress =>
    (.ok ⟨value, index + (ahead.length - progress.ahead.length)⟩, progress.skipped.reverse)
  | .error error progress => (.error error, progress.skipped.reverse)

/-- The notice about a skipped line. -/
def Line.skipNotice (line : Line) : Notice :=
  .skipped line.number (trim line.text)

/-- The statements from an index up to an `end` or the last line, and the index of that place. -/
def blockAt (strict : Bool) (lines : List Line) (index : Nat) :
    Logged (Except StmtError (ReadAt (List Stmt))) :=
  let (result, skipped) := readAt lines index (blockOf strict (lines.length - index))
  ⟨result, skipped.map Line.skipNotice⟩

/-- The statement that starts at an index, if the line there is one, and the index after it. -/
def statementFrom (strict : Bool) (lines : List Line) (index : Nat) :
    Logged (Except StmtError (ReadAt (Option Stmt))) :=
  let reader : LineReader (Option Stmt) := do
    match ← takeLine with
    | none => return none
    | some line => statementAt strict (blockOf strict (lines.length - index)) line
  let (result, skipped) := readAt lines index reader
  ⟨result, skipped.map Line.skipNotice⟩

/-- The program that the lines make up. An `end` that closes nothing is an error. -/
def parseProgram (strict : Bool) (lines : List Line) : Logged (Except StmtError Program) :=
  let block := blockAt strict lines 0
  match block.value with
  | .error error => ⟨.error error, block.notices⟩
  | .ok read =>
    match lines[read.next]? with
    | some stray => ⟨.error (.unexpectedEnd stray.number), block.notices⟩
    | none => ⟨.ok read.value, block.notices ++ [.parsed read.value.length]⟩

end LineScript
