/-
What a float is: not a number, an infinity, or a sign, a mantissa and a power of two. On this view
the operations that have an exact answer are computed exactly: rounding to a whole number and the
remainder of a division. Lengths and powers of ten are computed by float operations in a fixed
order.
-/

namespace LineScript.Number

/-- A float taken apart. The finite ones are `± mantissa * 2 ^ exponent`. -/
inductive Binary where
  | nan
  | infinite (negative : Bool)
  | finite (negative : Bool) (mantissa : Nat) (exponent : Int)
deriving DecidableEq, Repr

/-- The number of fractions: there are 52 bits of them. -/
def fractionSize : Nat :=
  Nat.pow 2 52

/-- The number of exponents: there are eleven bits of them. -/
def exponentSize : Nat :=
  Nat.pow 2 11

/-- Takes a float apart by its 64 bits: a sign, eleven bits of exponent, and 52 bits of fraction
that stand for 53 of mantissa unless the exponent is the least one. -/
def Binary.ofFloat (x : Float) : Binary :=
  let bits := x.toBits.toNat
  let negative := bits / (fractionSize * exponentSize) == 1
  let field : Nat := bits / fractionSize % exponentSize
  let fraction := bits % fractionSize
  if field = exponentSize - 1 then
    if fraction = 0 then .infinite negative else .nan
  else if field = 0 then .finite negative fraction (-1074)
  else .finite negative (fractionSize + fraction) ((field : Int) - 1075)

/-- The float nearest to `mantissa * 2 ^ exponent`, a tie going to the even one. A power of two
below one is written as a power of ten, `2 ^ -k = 5 ^ k * 10 ^ -k`. -/
def nearestFloat (mantissa : Nat) : Int → Float
  | .ofNat k => Float.ofScientific (mantissa * Nat.pow 2 k) false 0
  | .negSucc k => Float.ofScientific (mantissa * Nat.pow 5 (k + 1)) true (k + 1)

/-- A float of this sign and magnitude. -/
def signed (negative : Bool) (magnitude : Float) : Float :=
  if negative then -magnitude else magnitude

/-! ### Whole parts -/

/-- Which whole number stands for one that lies between two. -/
inductive Rounding where
  | down
  | up
  | towardZero
  | halfToEven
deriving DecidableEq, Repr

/-- Whether a magnitude with this whole part and this remainder over `unit` goes one up. -/
def Rounding.goesUp (rounding : Rounding) (negative : Bool) (whole remainder unit : Nat) : Bool :=
  match rounding with
  | .down => negative && remainder != 0
  | .up => !negative && remainder != 0
  | .towardZero => false
  | .halfToEven => 2 * remainder > unit || (2 * remainder == unit && whole % 2 == 1)

/-- `± mantissa * 2 ^ exponent` as a whole number. -/
def Rounding.round (rounding : Rounding) (negative : Bool) (mantissa : Nat) : Int → Int
  | .ofNat k =>
    let size := mantissa * Nat.pow 2 k
    if negative then -(size : Int) else size
  | .negSucc k =>
    let unit := Nat.pow 2 (k + 1)
    let whole := mantissa / unit
    let size := if rounding.goesUp negative whole (mantissa % unit) unit then whole + 1 else whole
    if negative then -(size : Int) else size

/-- The whole number that a float rounds to; none for an infinity and for what is no number. -/
def wholeOf? (rounding : Rounding) (x : Float) : Option Int :=
  match Binary.ofFloat x with
  | .finite negative mantissa exponent => some (rounding.round negative mantissa exponent)
  | _ => none

/-- A float rounded to a whole one. What is not finite stays as it is, and a zero keeps the sign
of the float it came from. -/
def roundFloat (rounding : Rounding) (x : Float) : Float :=
  match Binary.ofFloat x with
  | .finite negative mantissa exponent =>
    if 0 ≤ exponent then x
    else signed negative (nearestFloat (rounding.round negative mantissa exponent).natAbs 0)
  | _ => x

/-- Whether a float is finite and has no fraction. -/
def isWholeFloat (x : Float) : Bool :=
  match Binary.ofFloat x with
  | .finite _ mantissa exponent => 0 ≤ exponent || mantissa % Nat.pow 2 (-exponent).toNat == 0
  | _ => false

/-! ### Remainders and lengths -/

/-- The remainder of the division that is cut off toward zero; it has the sign of the dividend
and is exact. -/
def remainder (dividend divisor : Float) : Float :=
  match Binary.ofFloat dividend, Binary.ofFloat divisor with
  | .finite negative m p, .finite _ n q =>
    if n = 0 then 0.0 / 0.0
    else
      let low := min p q
      let left := m * Nat.pow 2 (p - low).toNat
      let right := n * Nat.pow 2 (q - low).toNat
      signed negative (nearestFloat (left % right) low)
  | .finite .., .infinite _ => dividend
  | _, _ => 0.0 / 0.0

/-- The length of the hypotenuse over two sides, the first at least as long as the second, where
the squares stay in range. The root of the sum of squares is corrected by one step that takes in
what the rounding of the squares lost. -/
def correctedLength (long short : Float) : Float :=
  let length := (long * long + short * short).sqrt
  if length ≤ 2.0 * short then
    let gap := length - short
    let first := long * (2.0 * gap - long)
    let second := (gap - 2.0 * (long - short)) * gap
    length - (first + second) / (2.0 * length)
  else
    let gap := length - long
    let first := 2.0 * gap * (long - 2.0 * short)
    let second := (4.0 * gap - short) * short + gap * gap
    length - (first + second) / (2.0 * length)

/-- The length of the hypotenuse over two finite sides that are not negative, the first at least
as long as the second. Sides whose squares would leave the range are scaled by a power of two, and
a side that is too short to count is only added. -/
def orderedHypotenuse (long short : Float) : Float :=
  let scale := nearestFloat 1 (-600)
  let negligible := nearestFloat 1 (-54)
  if nearestFloat 1 511 < long then
    if short ≤ long * negligible then long + short
    else correctedLength (long * scale) (short * scale) / scale
  else if short < nearestFloat 1 (-459) then
    if short / negligible ≤ long then long + short
    else correctedLength (long / scale) (short / scale) * scale
  else if short ≤ long * negligible then long + short
  else correctedLength long short

/-- The length of the hypotenuse over two sides. One infinite side makes it infinite, whatever the
other one is. -/
def hypotenuse (x y : Float) : Float :=
  if x.isInf || y.isInf then 1.0 / 0.0
  else if x.isNaN || y.isNaN then 0.0 / 0.0
  else if x.abs < y.abs then orderedHypotenuse y.abs x.abs
  else orderedHypotenuse x.abs y.abs

/-- An integer power by squaring: the base is squared at every bit of the exponent, and the
result takes it in where the bit is set. -/
def powerBySquaring (base result : Float) (exponent : Nat) : Float :=
  if exponent = 0 then result
  else
    powerBySquaring (base * base) (if exponent % 2 = 1 then result * base else result)
      (exponent / 2)

/-- The power of ten as a float, by squaring; a negative exponent gives the reciprocal. -/
def powerOfTen (exponent : Int) : Float :=
  let power := powerBySquaring 10.0 1.0 exponent.natAbs
  if exponent < 0 then 1.0 / power else power

end LineScript.Number
