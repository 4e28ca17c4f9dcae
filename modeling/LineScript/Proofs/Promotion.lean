/-
This file says how far booleans count as the numbers zero and one. Away from strings they always do:
an operator replaces them before it looks at its operands, and a second replacement changes nothing.
Next to a string they are not replaced. There most operators fail or come out false for a boolean as
they do for a number, so it does not matter. It matters to the two operators that take strings: a
sum takes in the text of the boolean, and a product is a mismatch.
-/

import LineScript.Value.Operator

namespace LineScript

/-! ### Replaced booleans -/

namespace Value

theorem promote_promote (value : Value) : value.promote.promote = value.promote := by
  cases value <;> rfl

theorem isString_promote (value : Value) : value.promote.isString = value.isString := by
  cases value <;> rfl

end Value

/-- Away from strings, operands and replaced operands are the same to an operator. -/
theorem BinaryOp.apply_promote_of_plain {left right : Value}
    (plain : (left.isString || right.isString) = false) (op : BinaryOp) :
    op.apply left right = op.apply left.promote right.promote := by
  rw [BinaryOp.apply, BinaryOp.apply, Value.isString_promote, Value.isString_promote, plain,
    Value.promote_promote, Value.promote_promote]
  rfl

/-! ### Booleans next to strings -/

/-- Whether an operator takes strings: a sum joins them and a product repeats them. -/
def BinaryOp.takesStrings (op : BinaryOp) : Bool :=
  op == .arithmetic .add || op == .arithmetic .multiply

/-- Whether one of two values is a string and the other a boolean. -/
def stringMeetsBool (left right : Value) : Bool :=
  left.type == .string && right.type == .bool || left.type == .bool && right.type == .string

/-- To an operator that does not take strings, a boolean next to a string is like any number. -/
theorem BinaryOp.toOption_next_to_string {op : BinaryOp} (other : op.takesStrings = false)
    (text : String) (b : Bool) (n : Int64) :
    (op.apply (.string text) (.bool b)).toOption = (op.apply (.string text) (.int n)).toOption ∧
      (op.apply (.bool b) (.string text)).toOption =
        (op.apply (.int n) (.string text)).toOption := by
  cases op with
  | arithmetic operation =>
    cases operation with
    | add => cases other
    | multiply => cases other
    | _ => exact ⟨rfl, rfl⟩
  | comparison relation => cases relation <;> exact ⟨rfl, rfl⟩

theorem BinaryOp.toOption_apply_promote {op : BinaryOp} {left right : Value}
    (apart : (op.takesStrings && stringMeetsBool left right) = false) :
    (op.apply left right).toOption = (op.apply left.promote right.promote).toOption := by
  cases left with
  | string text =>
    cases right with
    | bool b =>
      have other : op.takesStrings = false := (Bool.and_true _).symm.trans apart
      exact (BinaryOp.toOption_next_to_string other text b _).1
    | _ => rfl
  | bool b =>
    cases right with
    | string text =>
      have other : op.takesStrings = false := (Bool.and_true _).symm.trans apart
      exact (BinaryOp.toOption_next_to_string other text b _).2
    | _ => rw [BinaryOp.apply_promote_of_plain rfl]
  | _ =>
    cases right with
    | bool b => rw [BinaryOp.apply_promote_of_plain rfl]
    | _ => rfl

/-- Booleans act as the numbers zero and one: an operator has the same value for them, or has none
for both. The exceptions are a sum and a product of a string and a boolean. The sum joins the texts
of the two, and the product fails. -/
theorem apply_booleans_as_numbers :
    (∀ (op : BinaryOp) (left right : Value),
      (op.takesStrings && stringMeetsBool left right) = false →
        (op.apply left right).toOption = (op.apply left.promote right.promote).toOption) ∧
      ∀ (text : String) (b : Bool),
        BinaryOp.apply (.arithmetic .add) (.string text) (.bool b) =
            .ok (.string (text ++ (Value.bool b).text)) ∧
          BinaryOp.apply (.arithmetic .add) (.bool b) (.string text) =
            .ok (.string ((Value.bool b).text ++ text)) ∧
          BinaryOp.apply (.arithmetic .multiply) (.string text) (.bool b) =
            .error (.mismatch (.operands "multiply" .string .bool)) ∧
          BinaryOp.apply (.arithmetic .multiply) (.bool b) (.string text) =
            .error (.mismatch (.operands "multiply" .bool .string)) :=
  ⟨fun _ _ _ apart => BinaryOp.toOption_apply_promote apart, fun _ _ => ⟨rfl, rfl, rfl, rfl⟩⟩

/-- A string that looks like a number is neither equal to a boolean nor to its number. -/
theorem apply_booleans_as_numbers_digit :
    (BinaryOp.takesStrings (.comparison .equal) && stringMeetsBool (.string "1") (.bool true)) =
        false ∧
      (BinaryOp.apply (.comparison .equal) (.string "1") (.bool true)).toOption =
        (BinaryOp.apply (.comparison .equal) (.string "1") (.int 1)).toOption :=
  ⟨rfl, apply_booleans_as_numbers.1 (.comparison .equal) (.string "1") (.bool true) rfl⟩

/-- A string is repeated by the number one, but not by the boolean that stands for it. -/
theorem repetition_by_boolean_fails :
    (BinaryOp.apply (.arithmetic .multiply) (.string "ab") (.bool true)).toOption = none ∧
      (BinaryOp.apply (.arithmetic .multiply) (Value.promote (.string "ab"))
        (Value.promote (.bool true))).toOption = some (.string "ab") :=
  ⟨rfl, rfl⟩

end LineScript
