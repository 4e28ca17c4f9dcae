/-
Equality and order of values. Numbers of different kinds meet as floats, and booleans count as
numbers. Strings compare with strings only, by code points. What is no number has no place in the
order.
-/

import LineScript.Token.Basic
import LineScript.Value.Fault

namespace LineScript

/-- The order of two floats; none if one of them is no number. -/
def floatOrder? (x y : Float) : Option Ordering :=
  if x < y then some .lt
  else if x == y then some .eq
  else if y < x then some .gt
  else none

namespace Value

/-- Whether two values are equal. Two of one kind are compared as they are, numbers of different
kinds as floats. -/
def equal : Value → Value → Bool
  | .int m, .int n => m == n
  | .string s, .string t => s == t
  | .bool a, .bool b => a == b
  | left, right =>
    match left.number?, right.number? with
    | some x, some y => x == y
    | _, _ => false

/-- The order of two values. -/
def compare (left right : Value) : Computed Ordering :=
  match left.promote, right.promote with
  | .int m, .int n => .ok (Ord.compare m.toInt n.toInt)
  | .string s, .string t => .ok (Ord.compare s t)
  | _, _ =>
    match left.number?, right.number? with
    | some x, some y =>
      match floatOrder? x y with
      | some order => .ok order
      | none => .error (.mismatch .orderOfNan)
    | _, _ => .error (.mismatch (.comparison left.type right.type))

end Value

/-- Whether an order is what a comparison asks for. Equality and its negation do not go by the
order; they stand here for completeness. -/
def Comparison.accepts : Comparison → Ordering → Bool
  | .equal, order => order == .eq
  | .notEqual, order => order != .eq
  | .less, order => order == .lt
  | .lessEqual, order => order != .gt
  | .greater, order => order == .gt
  | .greaterEqual, order => order != .lt

/-- The outcome of a comparison. Equality always has one. -/
def Comparison.apply (comparison : Comparison) (left right : Value) : Computed Value :=
  match comparison with
  | .equal => .ok (.bool (left.equal right))
  | .notEqual => .ok (.bool (!left.equal right))
  | _ =>
    match left.compare right with
    | .ok order => .ok (.bool (comparison.accepts order))
    | .error fault => .error fault

end LineScript
