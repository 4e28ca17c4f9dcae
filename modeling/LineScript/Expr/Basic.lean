/-
Expressions as trees. Every node carries the region of the text it was read from.
-/

import LineScript.Token.Basic

namespace LineScript

/-- The operators with one operand. -/
inductive Sign where
  | negate
  | plus
  | not
deriving DecidableEq, Repr

/-- The operators of a node with two operands that are both evaluated. -/
inductive BinaryOp where
  | arithmetic (operation : Arithmetic)
  | comparison (relation : Comparison)
deriving DecidableEq, Repr

/-- How a binary operator is written. -/
def BinaryOp.text : BinaryOp → String
  | .arithmetic operation => operation.text
  | .comparison relation => relation.text

/-- An expression. A chain is a comparison with two or more operators, such as `0 < x <= 10`. -/
inductive Expr where
  | int (n : Int64) (span : Span)
  | float (x : Float) (span : Span)
  | string (text : String) (span : Span)
  | bool (b : Bool) (span : Span)
  | var (name : String) (span : Span)
  | member (record field : String) (span : Span)
  | unary (sign : Sign) (operand : Expr) (span : Span)
  | binary (op : BinaryOp) (left right : Expr) (span : Span)
  | chain (first : Expr) (links : List (Comparison × Expr)) (span : Span)
  | and (left right : Expr) (span : Span)
  | or (left right : Expr) (span : Span)
  | group (inner : Expr) (span : Span)
  | call (function : String) (arguments : List Expr) (span : Span)

/-- The region an expression was read from. -/
def Expr.span : Expr → Span
  | .int _ span => span
  | .float _ span => span
  | .string _ span => span
  | .bool _ span => span
  | .var _ span => span
  | .member _ _ span => span
  | .unary _ _ span => span
  | .binary _ _ _ span => span
  | .chain _ _ span => span
  | .and _ _ span => span
  | .or _ _ span => span
  | .group _ span => span
  | .call _ _ span => span

end LineScript
