/-
The ways in which an operation on values can fail, and their descriptions.
-/

import LineScript.Value.Basic

namespace LineScript

/-- Why values are of the wrong type for an operation. -/
inductive Mismatch where
  | operands (verb : String) (left right : ValueType)
  | negation (operand : ValueType)
  | unaryPlus (operand : ValueType)
  | comparison (left right : ValueType)
  | orderOfNan
  | number (function : String) (argument : ValueType)
  | roundDigits (argument : ValueType)
  | lengthOf (argument : ValueType)
  | intText (text : String)
  | floatText (text : String)
deriving DecidableEq, Repr

/-- The description of a mismatch. -/
def Mismatch.message : Mismatch → String
  | .operands verb left right => "cannot " ++ verb ++ " " ++ left.name ++ " and " ++ right.name
  | .negation operand => "cannot negate " ++ operand.name
  | .unaryPlus operand => "bad operand for unary +: " ++ operand.name
  | .comparison left right => "cannot compare " ++ left.name ++ " and " ++ right.name
  | .orderOfNan => "cannot order nan"
  | .number function argument => function ++ "() expects a number, got " ++ argument.name
  | .roundDigits argument => "round() digits must be an int, got " ++ argument.name
  | .lengthOf argument => "len() expects a string, got " ++ argument.name
  | .intText text => "invalid literal for int(): '" ++ text ++ "'"
  | .floatText text => "could not convert string to float: '" ++ text ++ "'"

/-- Why an operation on values has no result. -/
inductive Fault where
  | mismatch (reason : Mismatch)
  | divisionByZero
  | overflow
  | domain (operation : String)
  | unknownFunction (name : String)
  | wrongArity (function expected : String) (got : Nat)
  | invalidCount (text : String)
deriving DecidableEq, Repr

/-- The description of a fault. -/
def Fault.message : Fault → String
  | .mismatch reason => "Type error: " ++ reason.message
  | .divisionByZero => "Division by zero"
  | .overflow => "Integer overflow"
  | .domain operation => "Math domain error in '" ++ operation ++ "'"
  | .unknownFunction name => "Unknown function '" ++ name ++ "'"
  | .wrongArity function expected got =>
    "Wrong number of arguments to '" ++ function ++ "': expected " ++ expected ++ ", got " ++
      toString got
  | .invalidCount text => "Loop count must be a number, got string \"" ++ text ++ "\""

/-- The result of an operation on values. -/
abbrev Computed (α : Type) := Except Fault α

/-! ### Whole numbers as results -/

/-- A 64-bit number as a value. If there is none, the operation has left the range. -/
def inRange : Option Int64 → Computed Value
  | some n => .ok (.int n)
  | none => .error .overflow

/-- A whole number as a value, if it fits 64 bits. -/
def wholeValue (n : Int) : Computed Value :=
  inRange (Number.fit? n)

/-- A float as a whole number, rounded as asked. -/
def wholeOfFloat (rounding : Number.Rounding) (x : Float) : Computed Int64 :=
  if x.isNaN then .error (.domain "cannot convert nan to int")
  else
    match (Number.wholeOf? rounding x).bind Number.fit? with
    | some n => .ok n
    | none => .error .overflow

/-- A value as a number of repetitions. Floats are cut off toward zero. -/
def Value.count : Value → Computed Int64
  | .int n => .ok n
  | .float x => wholeOfFloat .towardZero x
  | .bool b => .ok (Value.ofBool b)
  | .string text => .error (.invalidCount text)

end LineScript
