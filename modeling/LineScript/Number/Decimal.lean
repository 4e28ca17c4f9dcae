/-
Decimal texts of floats. Writing takes the fewest digits that read back as the same float, nearest
to it where several do. Reading takes a decimal with an optional exponent and rounds once.
-/

import LineScript.Number.Binary
import LineScript.Number.Whole

namespace LineScript.Number

open Text

/-- The decimal number `digits * 10 ^ exponent`. -/
structure Decimal where
  digits : Nat
  exponent : Int
deriving DecidableEq, Repr

/-! ### The shortest digits -/

/-- The numbers that round to a float: those between `low` and `high`, in units of
`1 / denominator`, the ends included if `closed`. The float itself is `value`. -/
structure RoundingInterval where
  low : Nat
  value : Nat
  high : Nat
  denominator : Nat
  closed : Bool

/-- The interval of `mantissa * 2 ^ exponent`. It reaches half way to both neighbours. The lower
neighbour of a power of two is only half as far, unless the exponent is already the least one. An
even mantissa wins a tie, so its interval has its ends. -/
def RoundingInterval.of (mantissa : Nat) (exponent : Int) : RoundingInterval :=
  let scale := Nat.pow 2 exponent.toNat
  let below := if mantissa = fractionSize ∧ -1074 < exponent then 1 else 2
  { low := (4 * mantissa - below) * scale
    value := 4 * mantissa * scale
    high := (4 * mantissa + 2) * scale
    denominator := 4 * Nat.pow 2 (-exponent).toNat
    closed := mantissa % 2 == 0 }

/-- Whether `digits * 10 ^ exponent` lies in the interval. -/
def RoundingInterval.holds (interval : RoundingInterval) (decimal : Decimal) : Bool :=
  let point := decimal.digits * Nat.pow 10 decimal.exponent.toNat * interval.denominator
  let unit := Nat.pow 10 (-decimal.exponent).toNat
  if interval.closed then
    interval.low * unit ≤ point && point ≤ interval.high * unit
  else
    interval.low * unit < point && point < interval.high * unit

/-- The number of decimal digits of a number. -/
def digitCount (n : Nat) : Nat :=
  (Nat.toDigits 10 n).length

/-- The place of the leading digit: the float lies below `10 ^ k` and not below
`10 ^ (k - 1)`. -/
def RoundingInterval.leadingPlace (interval : RoundingInterval) : Int :=
  if interval.denominator ≤ interval.value then
    digitCount (interval.value / interval.denominator)
  else
    1 - (digitCount (interval.denominator / interval.value) : Int)

/-- The decimal on the grid of this exponent that reads back as the float: of the two neighbours
of the float on that grid the one in the interval, of two the nearer, and the upper one of two
that are equally near. -/
def RoundingInterval.onGrid? (interval : RoundingInterval) (exponent : Int) : Option Decimal :=
  let above := interval.value * Nat.pow 10 (-exponent).toNat
  let unit := interval.denominator * Nat.pow 10 exponent.toNat
  let lower : Decimal := ⟨above / unit, exponent⟩
  let upper : Decimal := ⟨above / unit + 1, exponent⟩
  match interval.holds lower, interval.holds upper with
  | true, true => some (if 2 * (above % unit) < unit then lower else upper)
  | true, false => some lower
  | false, true => some upper
  | false, false => none

/-- The decimal of the fewest digits, looked for from `count` digits on and with at most `more`
steps. Seventeen digits always do. -/
def RoundingInterval.shortestFrom (interval : RoundingInterval) (place : Int) :
    (more count : Nat) → Decimal
  | 0, count => (interval.onGrid? (place - count)).getD ⟨0, 0⟩
  | more + 1, count =>
    match interval.onGrid? (place - count) with
    | some decimal => decimal
    | none => interval.shortestFrom place more (count + 1)

/-- A decimal without zeros at the end of its digits, as far as `steps` allows. -/
def Decimal.strip : (steps : Nat) → Decimal → Decimal
  | 0, decimal => decimal
  | steps + 1, decimal =>
    if decimal.digits ≠ 0 ∧ decimal.digits % 10 = 0 then
      Decimal.strip steps ⟨decimal.digits / 10, decimal.exponent + 1⟩
    else decimal

/-- The shortest decimal that reads back as `mantissa * 2 ^ exponent`. -/
def shortest (mantissa : Nat) (exponent : Int) : Decimal :=
  if mantissa = 0 then ⟨0, 0⟩
  else
    let interval := RoundingInterval.of mantissa exponent
    (interval.shortestFrom interval.leadingPlace 16 1).strip 18

/-! ### Layouts -/

/-- The digits of a decimal as characters. -/
def Decimal.digitChars (decimal : Decimal) : List Char :=
  Nat.toDigits 10 decimal.digits

/-- A decimal written out in full, with no exponent and no point unless there is a fraction. -/
def Decimal.positional (decimal : Decimal) : String :=
  let chars := decimal.digitChars
  if 0 ≤ decimal.exponent then
    String.ofList (chars ++ List.replicate decimal.exponent.toNat '0')
  else
    let places := (-decimal.exponent).toNat
    let padded := List.replicate (places + 1 - chars.length) '0' ++ chars
    let whole := padded.length - places
    String.ofList (padded.take whole ++ '.' :: padded.drop whole)

/-- A decimal with one digit before the point and an exponent. The point is left out where no
digit follows it. -/
def Decimal.scientific (decimal : Decimal) : String :=
  let chars := decimal.digitChars
  let fraction := chars.drop 1
  let point := if fraction.isEmpty then [] else '.' :: fraction
  let exponent := decimal.exponent + (chars.length - 1 : Nat)
  String.ofList (chars.take 1 ++ point) ++ "e" ++ toString exponent

/-- A text with a minus sign in front if the number is negative. -/
def withSign (negative : Bool) (text : String) : String :=
  if negative then "-" ++ text else text

/-- A float written out in full with its shortest digits. -/
def plainText (x : Float) : String :=
  match Binary.ofFloat x with
  | .nan => "NaN"
  | .infinite negative => withSign negative "inf"
  | .finite negative mantissa exponent => withSign negative (shortest mantissa exponent).positional

/-- The text of a float value. Very large and very small ones have an exponent, whole ones end
in `.0`, and all others are written out in full. -/
def floatText (x : Float) : String :=
  match Binary.ofFloat x with
  | .nan => "nan"
  | .infinite negative => withSign negative "inf"
  | .finite negative mantissa exponent =>
    let decimal := shortest mantissa exponent
    withSign negative <|
      if mantissa ≠ 0 ∧ (x.abs ≥ 1e16 ∨ x.abs < 1e-4) then decimal.scientific
      else if 0 ≤ decimal.exponent then decimal.positional ++ ".0"
      else decimal.positional

/-! ### Reading -/

/-- The float nearest to `digits * 10 ^ exponent`. Beyond these exponents the answer is an
infinity or zero, so no huge power of ten is formed. -/
def Decimal.toFloat (decimal : Decimal) : Float :=
  let place := decimal.exponent + digitCount decimal.digits
  if decimal.digits = 0 then 0.0
  else if 400 < place then 1.0 / 0.0
  else if place < -400 then 0.0
  else if 0 ≤ decimal.exponent then
    Float.ofScientific decimal.digits false decimal.exponent.toNat
  else Float.ofScientific decimal.digits true (-decimal.exponent).toNat

/-- The exponent that the characters after the mark spell: an optional sign, then digits. -/
def readExponent? : List Char → Option Int
  | '-' :: digits => (readDigits? digits).map fun n => -(n : Int)
  | '+' :: digits => (readDigits? digits).map fun n => (n : Int)
  | digits => (readDigits? digits).map fun n => (n : Int)

/-- The decimal that the characters spell: digits with an optional point, at least one digit in
all, then an optional exponent. -/
def readDecimal? (chars : List Char) : Option Decimal :=
  let whole := chars.takeWhile isAsciiDigit
  let afterWhole := chars.dropWhile isAsciiDigit
  let (fraction, afterFraction) :=
    match afterWhole with
    | '.' :: rest => (rest.takeWhile isAsciiDigit, rest.dropWhile isAsciiDigit)
    | rest => ([], rest)
  if whole.isEmpty && fraction.isEmpty then none
  else
    let digits := digitsValue (whole ++ fraction)
    match afterFraction with
    | [] => some ⟨digits, -fraction.length⟩
    | mark :: exponent =>
      if mark = 'e' ∨ mark = 'E' then
        (readExponent? exponent).map fun n => ⟨digits, n - fraction.length⟩
      else none

/-- The magnitude that the characters spell: a decimal, or the name of an infinity or of what is
no number, in letters of either case. -/
def readMagnitude? (chars : List Char) : Option Float :=
  let name := chars.map Char.toLower
  if name = "inf".toList ∨ name = "infinity".toList then some (1.0 / 0.0)
  else if name = "nan".toList then some (0.0 / 0.0)
  else (readDecimal? chars).map Decimal.toFloat

/-- The float that the characters spell: an optional sign, then a magnitude. -/
def readFloat? : List Char → Option Float
  | '-' :: rest => (readMagnitude? rest).map fun x => -x
  | '+' :: rest => readMagnitude? rest
  | chars => readMagnitude? chars

end LineScript.Number
