/-
The values that expressions have: whole numbers, floats, strings and booleans, with the views on
them that the rest of the language asks for.
-/

import LineScript.Number.Decimal

namespace LineScript

open Number

/-- A value. -/
inductive Value where
  | int (n : Int64)
  | float (x : Float)
  | string (text : String)
  | bool (b : Bool)
deriving DecidableEq

/-- The types of values. -/
inductive ValueType where
  | int
  | float
  | string
  | bool
deriving DecidableEq, Repr

/-- The name of a type. -/
def ValueType.name : ValueType → String
  | .int => "int"
  | .float => "float"
  | .string => "string"
  | .bool => "bool"

namespace Value

/-- The type of a value. -/
def type : Value → ValueType
  | .int _ => .int
  | .float _ => .float
  | .string _ => .string
  | .bool _ => .bool

/-- The text of a value, as it is shown and as strings take it in. -/
def text : Value → String
  | .int n => wholeText n
  | .float x => floatText x
  | .string text => text
  | .bool b => if b then "True" else "False"

/-- Whether a value counts as true: all do but zeros, the empty string and false. -/
def isTruthy : Value → Bool
  | .int n => n != 0
  | .float x => x != 0.0
  | .string text => text != ""
  | .bool b => b

/-- A boolean as the number zero or one. -/
def ofBool (b : Bool) : Int64 :=
  if b then 1 else 0

/-- The float nearest to a whole number. -/
def floatOf (n : Int64) : Float :=
  Float.ofInt n.toInt

/-- The number that a value stands for, as a float. A string stands for none. -/
def number? : Value → Option Float
  | .int n => some (floatOf n)
  | .float x => some x
  | .string _ => none
  | .bool b => some (floatOf (ofBool b))

/-- The value with a boolean replaced by zero or one. -/
def promote : Value → Value
  | .bool b => .int (ofBool b)
  | value => value

/-- Whether a value is a string. -/
def isString : Value → Bool
  | .string _ => true
  | _ => false

end Value

end LineScript
