/-
The characters of a document and the places between them. Line breaks of every kind are made
newlines first, save for the two separators of Unicode, which stay what they are.
-/

namespace LineScript.Yaml

/-! ### Characters -/

/-- Whether a document may hold a character. Control characters are not allowed, in comments
neither. -/
def isAllowed (c : Char) : Bool :=
  let point := c.toNat
  c == '\t' || c == '\n' || c == '\r' || (0x20 ≤ point && point ≤ 0x7E) || point == 0x85 ||
    (0xA0 ≤ point && point ≤ 0xD7FF) || (0xE000 ≤ point && point ≤ 0xFFFD) || 0x10000 ≤ point

/-- The mark that tells the order of bytes. It may stand at the start of a line. -/
def byteOrderMark : Char := '\ufeff'

/-- The characters with line breaks as newlines: a carriage return, with or without a newline
after it, and the next-line character. -/
def unifyBreaks : List Char → List Char
  | [] => []
  | '\r' :: '\n' :: rest => '\n' :: unifyBreaks rest
  | c :: rest => (if c = '\r' || c = '\u0085' then '\n' else c) :: unifyBreaks rest

/-- Whether a character separates parts of a line. -/
def isSpace (c : Char) : Bool :=
  c == ' ' || c == '\t'

/-- Whether a character ends a line: a newline, or the line or paragraph separator. -/
def isBreak (c : Char) : Bool :=
  c == '\n' || c == '\u2028' || c == '\u2029'

/-- Whether a space, a line break or the end comes next. -/
def gapNext (chars : List Char) : Bool :=
  chars.head?.all fun c => isSpace c || isBreak c

/-- Whether a character opens, closes or divides flow collections. -/
def isFlowMark (c : Char) : Bool :=
  c == ',' || c == '[' || c == ']' || c == '\x7b' || c == '\x7d'

/-! ### Marks -/

/-- A place in a document: the bytes before it, its line, and its column in characters. Lines and
columns count from zero. -/
structure Mark where
  offset : Nat
  line : Nat
  column : Nat
deriving DecidableEq, Repr

namespace Mark

/-- The place before the first character. -/
def origin : Mark := ⟨0, 0, 0⟩

/-- The place after one more character of a line. -/
def next (mark : Mark) (c : Char) : Mark :=
  ⟨mark.offset + c.utf8Size, mark.line, mark.column + 1⟩

/-- The place after a line break. -/
def newLine (mark : Mark) (c : Char) : Mark :=
  ⟨mark.offset + c.utf8Size, mark.line + 1, 0⟩

end Mark

/-- Whether the marker of a document comes next: at the start of a line three dashes or three
points, and then a gap. -/
def markerNext (mark : Mark) (chars : List Char) : Bool :=
  mark.column == 0 && (chars.take 3 == ['-', '-', '-'] || chars.take 3 == ['.', '.', '.']) &&
    gapNext (chars.drop 3)

end LineScript.Yaml
