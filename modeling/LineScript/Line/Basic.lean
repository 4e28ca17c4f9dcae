/-
The lines of a source text. Blank lines do not count; the others keep their number and their
indentation, lose the blanks at their end, and have their aliases replaced. A table of aliases that
is ignored is told of before anything else.
-/

import LineScript.Line.Alias
import LineScript.Notice
import LineScript.Text.Blank

namespace LineScript

open Text

/-- A line that counts: its number in the source, from one, and its text. -/
structure Line where
  number : Nat
  text : String
deriving DecidableEq, Repr

/-! ### Splitting -/

/-- The pieces between newlines; there is always at least one. -/
def splitAtNewlines : List Char → List (List Char)
  | [] => [[]]
  | c :: rest =>
    if c = '\n' then [] :: splitAtNewlines rest
    else
      match splitAtNewlines rest with
      | [] => [[c]]
      | first :: others => (c :: first) :: others

/-- A line without the carriage return at its end. -/
def dropReturn (chars : List Char) : List Char :=
  if chars.getLast? = some '\r' then chars.dropLast else chars

/-- The lines of pieces: every piece but the last ends in a newline, before which a carriage
return does not count. The last is a line of its own if it is not empty. -/
def linesOfPieces : List (List Char) → List (List Char)
  | [] => []
  | [last] => if last = [] then [] else [last]
  | piece :: rest => dropReturn piece :: linesOfPieces rest

/-- The raw lines of a source text. -/
def rawLines (source : String) : List String :=
  (linesOfPieces (splitAtNewlines source.toList)).map String.ofList

/-! ### Lines that count -/

/-- The lines that count, the first raw line having the given number. -/
def countedLines [PatternEngine] (aliases : Table String) : (number : Nat) → List String → List Line
  | _, [] => []
  | number, raw :: rest =>
    if isBlankText raw then countedLines aliases (number + 1) rest
    else ⟨number, trimEnd (applyAliases aliases raw)⟩ :: countedLines aliases (number + 1) rest

/-- The lines that count among raw lines. -/
def readLines [PatternEngine] (aliases : Table String) (raw : List String) :
    Logged (List Line) :=
  let lines := countedLines aliases 1 raw
  ⟨lines, (aliasRefusal? aliases).toList.map .aliasesIgnored ++
    [.lexed lines.length raw.length]⟩

/-- The lines that count in a source text. -/
def readSource [PatternEngine] (aliases : Table String) (source : String) :
    Logged (List Line) :=
  readLines aliases (rawLines source)

end LineScript
