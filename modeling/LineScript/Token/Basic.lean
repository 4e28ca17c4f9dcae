/-
The tokens of an expression: literals, names and symbols, each with the region it was read from. In
a region offsets count bytes and columns count characters from one. The end of the expression is no
token. It is kept beside them, so a list of tokens never has an end mark in its middle.
-/

import LineScript.Number.Decimal

namespace LineScript

open Number

/-! ### Regions -/

/-- A region of a text: byte offsets of its ends, and the line and column of its first
character. -/
structure Span where
  start : Nat
  stop : Nat
  line : Nat
  column : Nat
deriving DecidableEq, Repr

/-- The region that covers two regions. Its line and column are those of the one that starts
first. -/
def Span.merge (left right : Span) : Span :=
  let first := if left.start ≤ right.start then left else right
  ⟨min left.start right.start, max left.stop right.stop, first.line, first.column⟩

/-- The place of a region as text. -/
def Span.text (span : Span) : String :=
  toString span.line ++ ":" ++ toString span.column

/-! ### Positions -/

/-- A place between two characters of one line. -/
structure Position where
  offset : Nat
  column : Nat
deriving DecidableEq, Repr

namespace Position

/-- The place before the first character. -/
def origin : Position := ⟨0, 1⟩

/-- The place after one more character. -/
def next (position : Position) (c : Char) : Position :=
  ⟨position.offset + c.utf8Size, position.column + 1⟩

/-- The place after some more characters. -/
def advance (position : Position) (chars : List Char) : Position :=
  chars.foldl next position

/-- The region that some characters take up from here. -/
def cover (position : Position) (chars : List Char) : Span :=
  ⟨position.offset, (position.advance chars).offset, 1, position.column⟩

end Position

/-! ### Tokens -/

/-- The comparisons. -/
inductive Comparison where
  | equal
  | notEqual
  | less
  | lessEqual
  | greater
  | greaterEqual
deriving DecidableEq, Repr

/-- The operations of arithmetic. -/
inductive Arithmetic where
  | add
  | subtract
  | multiply
  | divide
  | floorDivide
  | modulo
  | power
deriving DecidableEq, Repr

/-- The tokens that stand for themselves. -/
inductive Symbol where
  | arithmetic (operation : Arithmetic)
  | comparison (relation : Comparison)
  | not
  | and
  | or
  | leftParen
  | rightParen
  | comma
  | dot
deriving DecidableEq, Repr

/-- What a token is. -/
inductive TokenKind where
  | int (n : Int64)
  | float (x : Float)
  | string (text : String)
  | bool (b : Bool)
  | name (text : String)
  | symbol (mark : Symbol)
deriving DecidableEq

/-- A token and the region it was read from. -/
structure Token where
  kind : TokenKind
  span : Span
deriving DecidableEq

/-- The tokens of an expression, and the empty region at its end. -/
structure TokenStream where
  tokens : List Token
  stop : Span
deriving DecidableEq

/-! ### Texts -/

/-- How a comparison is written. -/
def Comparison.text : Comparison → String
  | .equal => "=="
  | .notEqual => "!="
  | .less => "<"
  | .lessEqual => "<="
  | .greater => ">"
  | .greaterEqual => ">="

/-- How an operation is written. -/
def Arithmetic.text : Arithmetic → String
  | .add => "+"
  | .subtract => "-"
  | .multiply => "*"
  | .divide => "/"
  | .floorDivide => "//"
  | .modulo => "%"
  | .power => "**"

/-- How a symbol is written. -/
def Symbol.text : Symbol → String
  | .arithmetic operation => operation.text
  | .comparison relation => relation.text
  | .not => "not"
  | .and => "and"
  | .or => "or"
  | .leftParen => "("
  | .rightParen => ")"
  | .comma => ","
  | .dot => "."

/-- How messages show a token. A string is shown between quotes and with nothing escaped. -/
def TokenKind.text : TokenKind → String
  | .int n => wholeText n
  | .float x => plainText x
  | .string text => "\"" ++ text ++ "\""
  | .bool b => if b then "true" else "false"
  | .name text => text
  | .symbol mark => mark.text

/-- How messages show the place where no token is left. -/
def endText : String := "end of expression"

/-! ### Keywords -/

/-- The words that are no names. -/
def keyword? (word : String) : Option TokenKind :=
  if word = "true" ∨ word = "True" then some (.bool true)
  else if word = "false" ∨ word = "False" then some (.bool false)
  else if word = "and" then some (.symbol .and)
  else if word = "or" then some (.symbol .or)
  else if word = "not" then some (.symbol .not)
  else none

end LineScript
