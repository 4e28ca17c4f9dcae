/-
The functions and constants that expressions may use. The real functions are those of the
platform's mathematical library; the ones with an exact answer are computed exactly.
-/

import LineScript.Text.Blank
import LineScript.Value.Operator

namespace LineScript

open Number Text

/-! ### Constants -/

/-- The ratio of a circle's circumference to its diameter. -/
def pi : Float := 3.141592653589793

/-- The base of the natural logarithm. -/
def euler : Float := 2.718281828459045

/-- The float that is larger than all others. -/
def infinity : Float := 1.0 / 0.0

/-- The named constants. -/
def constant? (name : String) : Option Value :=
  match name with
  | "pi" => some (.float pi)
  | "e" => some (.float euler)
  | "tau" => some (.float 6.283185307179586)
  | "inf" => some (.float infinity)
  | _ => none

/-! ### Arguments -/

/-- A function of one argument. -/
def withOne (name : String) (arguments : List Value) (body : Value → Computed Value) :
    Computed Value :=
  match arguments with
  | [x] => body x
  | _ => .error (.wrongArity name "1" arguments.length)

/-- A function of two arguments. -/
def withTwo (name : String) (arguments : List Value) (body : Value → Value → Computed Value) :
    Computed Value :=
  match arguments with
  | [x, y] => body x y
  | _ => .error (.wrongArity name "2" arguments.length)

/-- An argument that has to be a number. -/
def numberArgument (name : String) (value : Value) : Computed Float :=
  match value.number? with
  | some x => .ok x
  | none => .error (.mismatch (.number name value.type))

/-! ### Real functions -/

/-- A real function and where it is defined. -/
structure RealFunction where
  domain : Float → Bool
  apply : Float → Float

/-- A real function that is defined everywhere. -/
def RealFunction.total (apply : Float → Float) : RealFunction :=
  ⟨fun _ => true, apply⟩

/-- Whether a float lies between -1 and 1. -/
def inUnitRange (x : Float) : Bool :=
  -1.0 ≤ x && x ≤ 1.0

/-- The real functions of one argument. -/
def realFunction? (name : String) : Option RealFunction :=
  match name with
  | "sqrt" => some ⟨fun x => x ≥ 0.0, Float.sqrt⟩
  | "sin" => some (.total Float.sin)
  | "cos" => some (.total Float.cos)
  | "tan" => some (.total Float.tan)
  | "asin" => some ⟨inUnitRange, Float.asin⟩
  | "acos" => some ⟨inUnitRange, Float.acos⟩
  | "atan" => some (.total Float.atan)
  | "exp" => some (.total Float.exp)
  | "log10" => some ⟨fun x => x > 0.0, Float.log10⟩
  | "log2" => some ⟨fun x => x > 0.0, Float.log2⟩
  | "fabs" => some (.total Float.abs)
  | "degrees" => some (.total fun x => x * (180.0 / pi))
  | "radians" => some (.total fun x => x * (pi / 180.0))
  | _ => none

/-- A result that a real function may have: a finite argument has no infinite result, and only
what is no number gives no number. -/
def checkedResult (name : String) (argument result : Float) : Computed Value :=
  if argument.isFinite && result.isInf then .error .overflow
  else if !argument.isNaN && result.isNaN then .error (.domain name)
  else .ok (.float result)

/-- A real function on its arguments. -/
def RealFunction.call (function : RealFunction) (name : String) (arguments : List Value) :
    Computed Value :=
  withOne name arguments fun value => do
    let x ← numberArgument name value
    if function.domain x then checkedResult name x (function.apply x) else .error (.domain name)

/-- A real function of two arguments that has a result everywhere. -/
def realOfTwo (name : String) (apply : Float → Float → Float) (arguments : List Value) :
    Computed Value :=
  withTwo name arguments fun first second => do
    let x ← numberArgument name first
    let y ← numberArgument name second
    .ok (.float (apply x y))

/-- The logarithm of a number, if it is positive or no number at all. -/
def naturalLog (x : Float) : Computed Float :=
  if x ≤ 0.0 then .error (.domain "log") else .ok (Float.log x)

/-- The logarithm, natural or to a base. -/
def logarithm (arguments : List Value) : Computed Value :=
  match arguments with
  | [value] => do
    let x ← numberArgument "log" value
    return .float (← naturalLog x)
  | [value, base] => do
    let x ← numberArgument "log" value
    let b ← numberArgument "log" base
    let top ← naturalLog x
    let bottom ← naturalLog b
    if b == 1.0 then .error .divisionByZero else return .float (top / bottom)
  | _ => .error (.wrongArity "log" "1 or 2" arguments.length)

/-- The power of two numbers, where it is a real number. -/
def power (arguments : List Value) : Computed Value :=
  withTwo "pow" arguments fun first second => do
    let base ← numberArgument "pow" first
    let exponent ← numberArgument "pow" second
    if (base == 0.0 && exponent < 0.0) ||
        (base < 0.0 && base.isFinite && !isWholeFloat exponent) then
      .error (.domain "pow")
    else floatPower base exponent

/-! ### Rounding -/

/-- A number rounded to a whole one. -/
def rounded (name : String) (rounding : Rounding) (value : Value) : Computed Value :=
  match value with
  | .int n => .ok (.int n)
  | _ => do
    let x ← numberArgument name value
    return .int (← wholeOfFloat rounding x)

/-- A number rounded to a number of decimal places, which may be negative. A scaled number that is
not finite leaves the number as it was. -/
def roundedTo (places : Int64) (x : Float) : Float :=
  let scale := powerOfTen (max (-308) (min 308 places.toInt))
  let result := roundFloat .halfToEven (x * scale) / scale
  if result.isFinite then result else x

/-- Rounding, a half to the even neighbour: to a whole number, or to decimal places. -/
def round (arguments : List Value) : Computed Value :=
  match arguments with
  | [value] => rounded "round" .halfToEven value
  | [value, .int places] => do
    let x ← numberArgument "round" value
    return .float (roundedTo places x)
  | [_, places] => .error (.mismatch (.roundDigits places.type))
  | _ => .error (.wrongArity "round" "1 or 2" arguments.length)

/-- The absolute value. Whole numbers stay whole, except for the one without a positive
counterpart. -/
def absolute (value : Value) : Computed Value :=
  match value with
  | .int n => wholeValue n.toInt.natAbs
  | _ => do
    let x ← numberArgument "abs" value
    return .float x.abs

/-! ### Least and greatest -/

/-- The first argument to which no later one stands in the order asked for. -/
def extremeFrom (wanted : Ordering) : Value → List Value → Computed Value
  | best, [] => .ok best
  | best, candidate :: rest => do
    if (← candidate.compare best) == wanted then extremeFrom wanted candidate rest
    else extremeFrom wanted best rest

/-- The least or the greatest of one or more arguments. -/
def extreme (name : String) (wanted : Ordering) (arguments : List Value) : Computed Value :=
  match arguments with
  | [] => .error (.wrongArity name "at least 1" 0)
  | first :: rest => extremeFrom wanted first rest

/-! ### Conversions -/

/-- A value as a whole number. A string has to spell one. -/
def toInt (value : Value) : Computed Value :=
  match value with
  | .int n => .ok (.int n)
  | .float x => do return .int (← wholeOfFloat .towardZero x)
  | .bool b => .ok (.int (Value.ofBool b))
  | .string text =>
    match readWhole? (trim text).toList with
    | some n => .ok (.int n)
    | none => .error (.mismatch (.intText text))

/-- A value as a float. A string has to spell one. -/
def toFloat (value : Value) : Computed Value :=
  match value with
  | .string text =>
    match readFloat? (trim text).toList with
    | some x => .ok (.float x)
    | none => .error (.mismatch (.floatText text))
  | .int n => .ok (.float (Value.floatOf n))
  | .float x => .ok (.float x)
  | .bool b => .ok (.float (Value.floatOf (Value.ofBool b)))

/-- The number of characters of a string. -/
def lengthOf (value : Value) : Computed Value :=
  match value with
  | .string text => wholeValue text.length
  | _ => .error (.mismatch (.lengthOf value.type))

/-! ### Calls -/

/-- A function called by its name. -/
def callFunction (name : String) (arguments : List Value) : Computed Value :=
  match realFunction? name with
  | some function => function.call name arguments
  | none =>
    match name with
    | "atan2" => realOfTwo name Float.atan2 arguments
    | "hypot" => realOfTwo name hypotenuse arguments
    | "log" => logarithm arguments
    | "pow" => power arguments
    | "floor" => withOne name arguments (rounded name .down)
    | "ceil" => withOne name arguments (rounded name .up)
    | "trunc" => withOne name arguments (rounded name .towardZero)
    | "round" => round arguments
    | "abs" => withOne name arguments absolute
    | "min" => extreme name .lt arguments
    | "max" => extreme name .gt arguments
    | "int" => withOne name arguments toInt
    | "float" => withOne name arguments toFloat
    | "str" => withOne name arguments fun value => .ok (.string value.text)
    | "len" => withOne name arguments lengthOf
    | _ => .error (.unknownFunction name)

end LineScript
