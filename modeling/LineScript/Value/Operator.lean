/-
The operators. Booleans take part as zero and one, except next to a string. Whole numbers stay
whole under all operations but true division and negative powers, and overflow is a fault.
-/

import LineScript.Expr.Basic
import LineScript.Value.Order

namespace LineScript

open Number

/-- The verb for an operation in messages. -/
def Arithmetic.verb : Arithmetic → String
  | .add => "add"
  | .subtract => "subtract"
  | .multiply => "multiply"
  | .divide => "divide"
  | .floorDivide => "floor-divide"
  | .modulo => "modulo"
  | .power => "raise"

/-! ### Whole numbers -/

/-- An operation on whole numbers. Quotients go down to the floor and remainders have the sign of
the divisor. Division and negative powers leave the whole numbers, so they are none here. -/
def Arithmetic.onWholes? (operation : Arithmetic) (m n : Int64) : Option (Computed Value) :=
  match operation with
  | .add => some (wholeValue (m.toInt + n.toInt))
  | .subtract => some (wholeValue (m.toInt - n.toInt))
  | .multiply => some (wholeValue (m.toInt * n.toInt))
  | .divide => none
  | .floorDivide =>
    some (if n = 0 then .error .divisionByZero else inRange (wholeQuotient? m n))
  | .modulo =>
    some (if n = 0 then .error .divisionByZero else .ok (.int (wholeRemainder m n)))
  | .power => if n < 0 then none else some (inRange (power? m n.toInt.toNat))

/-! ### Floats -/

/-- The remainder of two floats with the sign of the divisor. -/
def floorRemainder (x y : Float) : Float :=
  let rest := remainder x y
  if rest != 0.0 && decide (rest < 0.0) != decide (y < 0.0) then rest + y else rest

/-- The power of two floats. An infinite power of finite numbers is a fault. -/
def floatPower (base exponent : Float) : Computed Value :=
  let power := Float.pow base exponent
  if power.isInf && base.isFinite && exponent.isFinite then .error .overflow
  else .ok (.float power)

/-- An operation on floats. -/
def Arithmetic.onFloats (operation : Arithmetic) (x y : Float) : Computed Value :=
  match operation with
  | .add => .ok (.float (x + y))
  | .subtract => .ok (.float (x - y))
  | .multiply => .ok (.float (x * y))
  | .divide => if y == 0.0 then .error .divisionByZero else .ok (.float (x / y))
  | .floorDivide =>
    if y == 0.0 then .error .divisionByZero else .ok (.float (roundFloat .down (x / y)))
  | .modulo => if y == 0.0 then .error .divisionByZero else .ok (.float (floorRemainder x y))
  | .power =>
    if x == 0.0 && y < 0.0 then .error .divisionByZero
    else if x < 0.0 && !isWholeFloat y then .error (.domain "**")
    else floatPower x y

/-- An operation on values that count as numbers. -/
def Arithmetic.onNumbers (operation : Arithmetic) (left right : Value) : Computed Value :=
  match left.number?, right.number? with
  | some x, some y => operation.onFloats x y
  | _, _ => .error (.mismatch (.operands operation.verb left.type right.type))

/-! ### Strings -/

/-- The largest string, in bytes, that repetition may build. -/
def greatestString : Nat :=
  Nat.pow 2 24

/-- A text repeated. -/
def repeated (text : String) (times : Nat) : String :=
  if text = "" then "" else times.repeat (fun built => built ++ text) ""

/-- A text repeated as a value; a negative number of times counts as none. -/
def repeatText (text : String) (times : Int) : Computed Value :=
  if text.utf8ByteSize * times.toNat ≤ greatestString then
    .ok (.string (repeated text times.toNat))
  else .error .overflow

/-! ### All values -/

/-- An operation on two values, booleans not yet replaced. -/
def Arithmetic.onValues (operation : Arithmetic) (left right : Value) : Computed Value :=
  match operation, left, right with
  | _, .int m, .int n =>
    (operation.onWholes? m n).getD (operation.onNumbers left right)
  | .add, .string text, other => .ok (.string (text ++ other.text))
  | .add, other, .string text => .ok (.string (other.text ++ text))
  | .multiply, .string text, .int n => repeatText text n.toInt
  | .multiply, .int n, .string text => repeatText text n.toInt
  | _, _, _ => operation.onNumbers left right

/-- A binary operator on values, booleans not yet replaced. -/
def BinaryOp.onValues : BinaryOp → Value → Value → Computed Value
  | .arithmetic operation => operation.onValues
  | .comparison relation => relation.apply

/-- A binary operator. Next to a string, a boolean stays what it is. -/
def BinaryOp.apply (op : BinaryOp) (left right : Value) : Computed Value :=
  if left.isString || right.isString then op.onValues left right
  else op.onValues left.promote right.promote

/-- An operator with one operand. -/
def Sign.apply : Sign → Value → Computed Value
  | .negate, .int n => wholeValue (-n.toInt)
  | .negate, .float x => .ok (.float (-x))
  | .negate, .bool b => wholeValue (-(Value.ofBool b).toInt)
  | .negate, value => .error (.mismatch (.negation value.type))
  | .plus, .int n => .ok (.int n)
  | .plus, .float x => .ok (.float x)
  | .plus, .bool b => .ok (.int (Value.ofBool b))
  | .plus, value => .error (.mismatch (.unaryPlus value.type))
  | .not, value => .ok (.bool (!value.isTruthy))

end LineScript
