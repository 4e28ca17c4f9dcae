/-
Statements. Expressions inside them stay text until they are run. A block is a header with the
statements up to its `end`.
-/

import LineScript.Table

namespace LineScript

/-- What opens a block. -/
inductive Header where
  | branch (condition : String)
  | loop (count : String)
  | game
  | scene (name : String)
  | entity (name : String)
  | tick
  | page (name : String)
  | route (path : String)
deriving DecidableEq, Repr

/-- The words that a block starts with. -/
def Header.keyword : Header → String
  | .branch _ => "if"
  | .loop _ => "loop"
  | .game => "game start"
  | .scene _ => "scene"
  | .entity _ => "entity"
  | .tick => "tick"
  | .page _ => "ui page"
  | .route _ => "route"

/-- A statement, with the number of the line it starts on. -/
inductive Stmt where
  | print (line : Nat) (expr : String)
  | assign (line : Nat) (name expr : String)
  | record (line : Nat) (name : String) (fields : Table String)
  | block (line : Nat) (header : Header) (body : List Stmt)

/-- A program: the statements outside all blocks. -/
abbrev Program := List Stmt

namespace Stmt

/-- The line a statement starts on. -/
def line : Stmt → Nat
  | .print line _ => line
  | .assign line _ _ => line
  | .record line _ _ => line
  | .block line _ _ => line

/-- The words that a statement starts with. -/
def keyword : Stmt → String
  | .print _ _ => "show"
  | .assign _ _ _ => "set"
  | .record _ _ _ => "data"
  | .block _ header _ => header.keyword

/-- The statements directly inside a statement. -/
def body : Stmt → List Stmt
  | .block _ _ body => body
  | _ => []

end Stmt

end LineScript
