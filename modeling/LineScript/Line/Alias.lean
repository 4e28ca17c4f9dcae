/-
Aliases: words of a line that stand for other words. A line is cut into string literals, which are
copied, and the stretches between them. In each stretch the places are tried from left to right,
and at each place the aliases in the order of the table. An alias matches between two word
boundaries.

All the keys of a table are searched for with one pattern, which an engine builds from them. An
engine may refuse to build it. Then no alias is in force, and every line stays as it is.
-/

import LineScript.Table
import LineScript.Text.Word

namespace LineScript

open Text

/-! ### One stretch -/

/-- An alias as characters: what it stands for, and what is put in its place. -/
structure Alias where
  key : List Char
  target : List Char
deriving DecidableEq, Repr

/-- The aliases of a table, in its order. -/
def aliasList (aliases : Table String) : List Alias :=
  aliases.entries.map fun entry => ⟨entry.1.toList, entry.2.toList⟩

/-- Whether an alias matches at the start of `rest`, which comes after the character `before`:
its key stands there, and there is a word boundary on both sides of it. -/
def Alias.matchesAt (candidate : Alias) (before : Option Char) (rest : List Char) : Bool :=
  candidate.key.isPrefixOf rest && isBoundary before rest.head? &&
    isBoundary (candidate.key.getLast?.or before) (rest.drop candidate.key.length).head?

/-- The first alias that matches at the start of `rest`. -/
def findAlias? (aliases : List Alias) (before : Option Char) (rest : List Char) : Option Alias :=
  aliases.find? fun candidate => candidate.matchesAt before rest

/-- The stretch with its aliases replaced. The first `skip` characters belong to a match that was
already replaced. `ended` says that a match ends right here: then an empty one does not count. -/
def substituteFrom (aliases : List Alias) :
    (skip : Nat) → (before : Option Char) → (ended : Bool) → List Char → List Char
  | _, before, ended, [] =>
    match findAlias? aliases before [] with
    | some found => if ended then [] else found.target
    | none => []
  | skip + 1, _, _, c :: rest => substituteFrom aliases skip (some c) true rest
  | 0, before, ended, c :: rest =>
    match findAlias? aliases before (c :: rest) with
    | none => c :: substituteFrom aliases 0 (some c) false rest
    | some found =>
      if found.key = [] then
        (if ended then [] else found.target) ++ c :: substituteFrom aliases 0 (some c) false rest
      else found.target ++ substituteFrom aliases (found.key.length - 1) (some c) true rest

/-- A stretch without literals, with its aliases replaced. -/
def substitute (aliases : List Alias) (stretch : List Char) : List Char :=
  substituteFrom aliases 0 none false stretch

/-! ### Literals and stretches -/

/-- A piece of a line: a stretch of code, or a string literal with its quotes. -/
inductive Piece where
  | code (chars : List Char)
  | literal (chars : List Char)
deriving DecidableEq, Repr

/-- The characters of a piece. -/
def Piece.chars : Piece → List Char
  | .code chars => chars
  | .literal chars => chars

/-- A piece with one more character in front. -/
def Piece.cons (c : Char) : Piece → Piece
  | .code chars => .code (c :: chars)
  | .literal chars => .literal (c :: chars)

/-- The pieces with one more character in front of the first. -/
def consFirst (c : Char) : List Piece → List Piece
  | [] => [.code [c]]
  | piece :: rest => piece.cons c :: rest

/-- Where in a line one is: in code, in a literal with this quote, or after a backslash in it. -/
inductive Place where
  | code
  | literal (quote : Char)
  | escaped (quote : Char)
deriving DecidableEq, Repr

/-- Whether a character opens a literal. -/
def isQuote (c : Char) : Bool :=
  c == '"' || c == '\''

/-- The pieces of the rest of a line. A literal ends at its own quote, or with the line. -/
def piecesFrom : Place → List Char → List Piece
  | .code, [] => [.code []]
  | .literal _, [] => [.literal []]
  | .escaped _, [] => [.literal []]
  | .code, c :: rest =>
    if isQuote c then .code [] :: consFirst c (piecesFrom (.literal c) rest)
    else consFirst c (piecesFrom .code rest)
  | .literal quote, c :: rest =>
    if c = '\\' then consFirst c (piecesFrom (.escaped quote) rest)
    else if c = quote then .literal [c] :: piecesFrom .code rest
    else consFirst c (piecesFrom (.literal quote) rest)
  | .escaped quote, c :: rest => consFirst c (piecesFrom (.literal quote) rest)

/-- A piece with the aliases of its code replaced. -/
def Piece.substitute (aliases : List Alias) : Piece → List Char
  | .code chars => LineScript.substitute aliases chars
  | .literal chars => chars

/-- A line with the aliases of a table replaced. -/
def rewriteLine (aliases : Table String) (line : String) : String :=
  if aliases.entries.isEmpty then line
  else
    String.ofList
      ((piecesFrom .code line.toList).flatMap (Piece.substitute (aliasList aliases)))

/-! ### Tables in force -/

/-- An engine that builds one pattern from the keys of a table, or says why it does not. -/
class PatternEngine where
  refusal? : (keys : List String) → Option String

/-- The largest size of a pattern, in bytes. -/
def patternLimit : Nat := 10485760

/-- The least size of a state of a pattern, in bytes. -/
def patternStateSize : Nat := 24

/-- An engine whose patterns have a state for each byte of a key. It refuses a key whose states are
too large by themselves. -/
instance PatternEngine.limited : PatternEngine where
  refusal? keys :=
    if keys.any fun key => patternLimit < patternStateSize * key.utf8ByteSize then
      some ("Compiled regex exceeds size limit of " ++ toString patternLimit ++ " bytes.")
    else none

/-- Why a table is ignored, if it is. A table without aliases needs no pattern. -/
def aliasRefusal? [PatternEngine] (aliases : Table String) : Option String :=
  if aliases.entries.isEmpty then none else PatternEngine.refusal? aliases.keys

/-- The aliases that are in force: all of a table, or none if it is ignored. -/
def aliasesInForce [PatternEngine] (aliases : Table String) : Table String :=
  if (aliasRefusal? aliases).isSome then .empty else aliases

/-- A line with the aliases of a table replaced that are in force. -/
def applyAliases [PatternEngine] (aliases : Table String) (line : String) : String :=
  rewriteLine (aliasesInForce aliases) line

end LineScript
