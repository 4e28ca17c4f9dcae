/-
Evaluation. An expression is kept as text and read anew each time it is evaluated. Names are
looked up in bindings, which is all that evaluation knows of the program around it.
-/

import LineScript.Expr.Parser
import LineScript.Value.Function
import LineScript.Value.Operator

namespace LineScript

open Text

/-! ### Bindings -/

/-- Where an expression looks up its names. -/
structure Bindings where
  lookup : String → Option Value
  lookupField : String → String → Option Value

/-- Bindings that bind nothing. -/
def Bindings.empty : Bindings :=
  ⟨fun _ => none, fun _ _ => none⟩

/-! ### Errors -/

/-- Why an expression has no value. -/
inductive EvalCause where
  | malformed (error : ExprError)
  | undefinedVariable (name : String)
  | undefinedField (record field : String)
  | fault (reason : Fault)
deriving DecidableEq

/-- The description of a cause. -/
def EvalCause.message : EvalCause → String
  | .malformed error => error.message
  | .undefinedVariable name => "Undefined variable '" ++ name ++ "'"
  | .undefinedField record field => "Undefined field '" ++ field ++ "' on '" ++ record ++ "'"
  | .fault reason => reason.message

/-- A cause, the text that was evaluated, and the line of its statement once it is known. -/
structure EvalError where
  cause : EvalCause
  expression : String
  line : Option Nat
deriving DecidableEq

/-- The description of an error. -/
def EvalError.message (error : EvalError) : String :=
  let place :=
    match error.line with
    | some line => " at line " ++ toString line
    | none => ""
  "Invalid expression: " ++ error.cause.message ++ place

/-- The error with its line, unless it has one already. -/
def EvalError.atLine (line : Nat) (error : EvalError) : EvalError :=
  { error with line := some (error.line.getD line) }

/-! ### Trees -/

/-- The value of a variable. The names of a program come before the constants. -/
def Bindings.value (bindings : Bindings) (name : String) : Except EvalCause Value :=
  match (bindings.lookup name).or (constant? name) with
  | some value => .ok value
  | none => .error (.undefinedVariable name)

/-- The value of a field. -/
def Bindings.fieldValue (bindings : Bindings) (record field : String) : Except EvalCause Value :=
  match bindings.lookupField record field with
  | some value => .ok value
  | none => .error (.undefinedField record field)

/-- An operation on values as a step of evaluation. -/
def lift {α : Type} : Computed α → Except EvalCause α
  | .ok value => .ok value
  | .error fault => .error (.fault fault)

mutual

/-- The value of an expression. Operands are evaluated from left to right. -/
def Expr.eval (bindings : Bindings) : Expr → Except EvalCause Value
  | .int n _ => .ok (.int n)
  | .float x _ => .ok (.float x)
  | .string text _ => .ok (.string text)
  | .bool b _ => .ok (.bool b)
  | .var name _ => bindings.value name
  | .member record field _ => bindings.fieldValue record field
  | .group inner _ => inner.eval bindings
  | .unary sign operand _ => do
    let value ← operand.eval bindings
    lift (sign.apply value)
  | .binary op left right _ => do
    let first ← left.eval bindings
    let second ← right.eval bindings
    lift (op.apply first second)
  | .chain first links _ => do
    let value ← first.eval bindings
    Expr.evalLinks bindings value links
  | .and left right _ => do
    let value ← left.eval bindings
    if value.isTruthy then right.eval bindings else .ok value
  | .or left right _ => do
    let value ← left.eval bindings
    if value.isTruthy then .ok value else right.eval bindings
  | .call function arguments _ => do
    let values ← Expr.evalArguments bindings arguments
    lift (callFunction function values)

/-- Whether each link of a chain holds. The first that does not ends the chain. -/
def Expr.evalLinks (bindings : Bindings) : Value → List (Comparison × Expr) → Except EvalCause Value
  | _, [] => .ok (.bool true)
  | left, (comparison, operand) :: rest => do
    let right ← operand.eval bindings
    let holds ← lift (BinaryOp.apply (.comparison comparison) left right)
    if holds.isTruthy then Expr.evalLinks bindings right rest else .ok (.bool false)

/-- The values of the arguments of a call. -/
def Expr.evalArguments (bindings : Bindings) : List Expr → Except EvalCause (List Value)
  | [] => .ok []
  | first :: rest => do
    let value ← first.eval bindings
    let values ← Expr.evalArguments bindings rest
    .ok (value :: values)

end

/-! ### Texts -/

/-- What stands between the double quotes that a text starts and ends with. -/
def quoted? (text : String) : Option String :=
  match text.toList with
  | '"' :: rest => if rest.getLast? = some '"' then some (String.ofList rest.dropLast) else none
  | _ => none

/-- The value of the expression that a trimmed text spells. A text in double quotes with none
inside is taken as it is. One that is no expression is also taken as it is, if it stands in double
quotes. -/
def evaluateTrimmed (bindings : Bindings) (text : String) : Except EvalCause Value :=
  match (quoted? text).filter fun inner => !inner.toList.contains '"' with
  | some inner => .ok (.string inner)
  | none =>
    match parseExpr text with
    | .ok expr => expr.eval bindings
    | .error error =>
      match quoted? text with
      | some inner => .ok (.string inner)
      | none => .error (.malformed error)

/-- The value of the expression that a text spells, blanks around it aside. -/
def evaluate (bindings : Bindings) (text : String) : Except EvalError Value :=
  match evaluateTrimmed bindings (trim text) with
  | .ok value => .ok value
  | .error cause => .error ⟨cause, trim text, none⟩

end LineScript
