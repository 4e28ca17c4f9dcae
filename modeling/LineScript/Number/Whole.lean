/-
The whole numbers of the language are the 64-bit signed ones. Sums and products are formed in the
unbounded integers and kept only if they fit, and powers are made of such products. Quotients and
remainders stay within 64 bits: the machine's own, which round toward zero, are mended to round
down.
-/

import LineScript.Text.Name

namespace LineScript.Number

open Text

/-- The 64-bit number of this value, if there is one. -/
def fit? (n : Int) : Option Int64 :=
  if Int64.minValue.toInt ≤ n ∧ n ≤ Int64.maxValue.toInt then some (Int64.ofInt n) else none

/-! ### Text -/

/-- The value of one ASCII digit. -/
def digitValue (c : Char) : Nat :=
  c.toNat - '0'.toNat

/-- The number that a run of ASCII digits spells in base ten. -/
def digitsValue (digits : List Char) : Nat :=
  digits.foldl (fun value c => 10 * value + digitValue c) 0

/-- The number that the characters spell, if they are one or more ASCII digits. -/
def readDigits? (chars : List Char) : Option Nat :=
  if chars ≠ [] ∧ chars.all isAsciiDigit then some (digitsValue chars) else none

/-- The 64-bit number that the characters spell: an optional sign, then ASCII digits. -/
def readWhole? : List Char → Option Int64
  | '-' :: digits => (readDigits? digits).bind fun n => fit? (-(n : Int))
  | '+' :: digits => (readDigits? digits).bind fun n => fit? n
  | digits => (readDigits? digits).bind fun n => fit? n

/-- The decimal text of a 64-bit number. -/
def wholeText (n : Int64) : String :=
  toString n.toInt

/-! ### Division -/

/-- The quotient of two 64-bit numbers, rounded down. The machine's quotient is rounded toward zero,
so it is one too large if there is a remainder and the signs differ. Only the least number divided
by -1 leaves the range. -/
def wholeQuotient? (m n : Int64) : Option Int64 :=
  if m = Int64.minValue ∧ n = -1 then none
  else if m % n ≠ 0 ∧ decide (m < 0) ≠ decide (n < 0) then some (m / n - 1)
  else some (m / n)

/-- The remainder of two 64-bit numbers, with the sign of the divisor. The machine's remainder has
the sign of the dividend. -/
def wholeRemainder (m n : Int64) : Int64 :=
  let rest := m % n
  if rest ≠ 0 ∧ decide (rest < 0) ≠ decide (n < 0) then rest + n else rest

/-! ### Powers -/

/-- The largest exponent that a power of whole numbers may have. -/
def greatestExponent : Nat :=
  UInt32.size - 1

/-- The product of two 64-bit numbers, if it fits. -/
def product? (m n : Int64) : Option Int64 :=
  fit? (m.toInt * n.toInt)

/-- A number times a power of the base, by repeated squaring, as long as all products fit. Each turn
takes up the lowest bit of the exponent. The square for the highest bit is the last one formed. -/
def powerOnto? (product base : Int64) (exponent : Nat) : Option Int64 :=
  if exponent = 0 then some product
  else if exponent = 1 then product? product base
  else
    (if exponent % 2 = 1 then product? product base else some product).bind fun raised =>
      (product? base base).bind fun square => powerOnto? raised square (exponent / 2)
termination_by exponent

/-- The power of a 64-bit number to an exponent that is not negative, if it fits. An exponent above
`greatestExponent` gives no number, whatever the base. -/
def power? (base : Int64) (exponent : Nat) : Option Int64 :=
  if greatestExponent < exponent then none else powerOnto? 1 base exponent

end LineScript.Number
