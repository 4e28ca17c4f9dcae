/-
Characters by class, and the class of blanks. A class is a list of closed ranges of code points in
ascending order, so a search stops at the first range that starts above the character. Blank are the
characters with the Unicode property White_Space. From them follow the trimmed form of a text,
whether it is blank altogether, and its first word.
-/

namespace LineScript.Text

/-! ### Classes of characters -/

/-- A class of characters: closed ranges of code points, in ascending order. -/
abbrev Ranges := List (Nat × Nat)

/-- Whether a code point lies in one of the ranges. The ranges ascend, so one that starts above
the code point ends the search. -/
def Ranges.holds : Ranges → Nat → Bool
  | [], _ => false
  | (low, high) :: rest, point =>
    if point < low then false else if point ≤ high then true else Ranges.holds rest point

/-- Whether a character belongs to the class. -/
def Ranges.has (ranges : Ranges) (c : Char) : Bool :=
  Ranges.holds ranges c.toNat

/-! ### Blanks -/

/-- The code points with property White_Space. -/
def blankRanges : Ranges :=
  [(0x9, 0xD), (0x20, 0x20), (0x85, 0x85), (0xA0, 0xA0), (0x1680, 0x1680), (0x2000, 0x200A),
   (0x2028, 0x2029), (0x202F, 0x202F), (0x205F, 0x205F), (0x3000, 0x3000)]

/-- Whether a character is blank. -/
def isBlank (c : Char) : Bool :=
  blankRanges.has c

/-! ### Trimming -/

/-- The characters without the blanks in front. -/
def trimFront (chars : List Char) : List Char :=
  chars.dropWhile isBlank

/-- The characters without the blanks at the end. -/
def trimBack (chars : List Char) : List Char :=
  (chars.reverse.dropWhile isBlank).reverse

/-- A text without the blanks at its end. -/
def trimEnd (text : String) : String :=
  String.ofList (trimBack text.toList)

/-- A text without the blanks at both ends. -/
def trim (text : String) : String :=
  String.ofList (trimBack (trimFront text.toList))

/-- Whether a text holds nothing but blanks. -/
def isBlankText (text : String) : Bool :=
  text.toList.all isBlank

/-! ### Words -/

/-- A trimmed text as its first word and the trimmed rest. The word ends at the first blank. -/
def firstWord (text : String) : String × String :=
  let chars := text.toList
  (String.ofList (chars.takeWhile (fun c => !isBlank c)),
    String.ofList (trimBack (trimFront (chars.dropWhile (fun c => !isBlank c)))))

end LineScript.Text
