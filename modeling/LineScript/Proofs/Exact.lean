/-
This file compares the evaluation of whole numbers with exact arithmetic. A tree of whole arithmetic
has an exact value over the unbounded integers, and its evaluation carries out operations in a fixed
order. Each of them has an exact result, whatever the range is. The evaluation fails with the fault
of the first operation that divides by zero or leaves the range, and if there is none its value is
the exact one.
-/

import LineScript.Eval.Basic
import LineScript.Proofs.Whole

namespace LineScript

open Number

/-! ### Exact values -/

/-- The integer that a value counts as: a boolean is zero or one. Floats and strings are none. -/
def Value.whole? : Value → Option Int
  | .int n => some n.toInt
  | .bool b => some (if b then 1 else 0)
  | _ => none

/-- Whether an operation leads from whole numbers to whole numbers. -/
def Arithmetic.isWhole : Arithmetic → Bool
  | .divide => false
  | .power => false
  | _ => true

/-- The result of an operation over the unbounded integers, for those that stay there. A quotient is
rounded down, and a remainder is what the quotient leaves. -/
def Arithmetic.exact : Arithmetic → Int → Int → Int
  | .add, m, n => m + n
  | .subtract, m, n => m - n
  | .multiply, m, n => m * n
  | .floorDivide, m, n => ⌊(m : ℚ) / n⌋
  | .modulo, m, n => m - n * ⌊(m : ℚ) / n⌋
  | _, _, _ => 0

/-- The number with a sign in front. -/
def Sign.exact : Sign → Int → Int
  | .negate, n => -n
  | _, n => n

/-- Trees of whole arithmetic: whole numbers, booleans and variables bound to them, under signs,
groups and the operations that lead from whole numbers to whole numbers. -/
inductive Expr.IsWhole (bindings : Bindings) : Expr → Prop
  | int (n : Int64) (span : Span) : IsWhole bindings (.int n span)
  | bool (b : Bool) (span : Span) : IsWhole bindings (.bool b span)
  | var {name : String} (span : Span)
      (bound : ((bindings.lookup name).bind Value.whole?).isSome = true) :
      IsWhole bindings (.var name span)
  | group {inner : Expr} (span : Span) (whole : IsWhole bindings inner) :
      IsWhole bindings (.group inner span)
  | unary {sign : Sign} {operand : Expr} (span : Span) (counts : sign ≠ .not)
      (whole : IsWhole bindings operand) : IsWhole bindings (.unary sign operand span)
  | binary {operation : Arithmetic} {left right : Expr} (span : Span)
      (stays : operation.isWhole = true) (first : IsWhole bindings left)
      (second : IsWhole bindings right) :
      IsWhole bindings (.binary (.arithmetic operation) left right span)

/-- The exact value of a tree of whole arithmetic. -/
def Expr.exact (bindings : Bindings) : Expr → Int
  | .int n _ => n.toInt
  | .bool b _ => if b then 1 else 0
  | .var name _ => ((bindings.lookup name).bind Value.whole?).getD 0
  | .group inner _ => inner.exact bindings
  | .unary sign operand _ => sign.exact (operand.exact bindings)
  | .binary (.arithmetic operation) left right _ =>
    operation.exact (left.exact bindings) (right.exact bindings)
  | _ => 0

/-! ### Operations in order -/

/-- An operation that is carried out: what it divides by, if it is a division, and its exact
result. -/
structure Step where
  divisor? : Option Int
  result : Int
deriving DecidableEq

/-- An operation that has a result: it does not divide by zero and stays in the range. -/
def Step.Succeeds (step : Step) : Prop :=
  step.divisor? ≠ some 0 ∧ Fits step.result

instance (step : Step) : Decidable step.Succeeds :=
  inferInstanceAs (Decidable (_ ∧ _))

/-- Why an operation has no result. Division by zero comes first, for it has no exact result
either. -/
def Step.fault (step : Step) : Fault :=
  if step.divisor? = some 0 then .divisionByZero else .overflow

/-- Why an operation fails, if it does. -/
def Step.fault? (step : Step) : Option Fault :=
  if step.Succeeds then none else some step.fault

theorem Step.fault?_eq_none_iff {step : Step} : step.fault? = none ↔ step.Succeeds := by
  by_cases succeeds : step.Succeeds
  · rw [Step.fault?, if_pos succeeds]
    exact iff_of_true rfl succeeds
  · rw [Step.fault?, if_neg succeeds]
    exact iff_of_false (Option.some_ne_none _) succeeds

/-- What an operation divides by, if it does. -/
def Arithmetic.divisor? : Arithmetic → Int → Option Int
  | .floorDivide, n => some n
  | .modulo, n => some n
  | _, _ => none

/-- The operations of a tree of whole arithmetic in the order in which they are carried out: the
left operand, the right operand, and then the operation that joins them. -/
def Expr.steps (bindings : Bindings) : Expr → List Step
  | .group inner _ => inner.steps bindings
  | .unary sign operand _ =>
    operand.steps bindings ++ [⟨none, sign.exact (operand.exact bindings)⟩]
  | .binary (.arithmetic operation) left right _ =>
    left.steps bindings ++ right.steps bindings ++
      [⟨operation.divisor? (right.exact bindings),
        operation.exact (left.exact bindings) (right.exact bindings)⟩]
  | _ => []

/-! ### One operation -/

/-- What an operation gives: its exact result as a 64-bit number, or its fault. -/
def Step.outcome (step : Step) : Computed Value :=
  if step.Succeeds then .ok (.int (Int64.ofInt step.result)) else .error step.fault

theorem wholeValue_eq (n : Int) :
    wholeValue n = if Fits n then .ok (.int (Int64.ofInt n)) else .error .overflow := by
  rw [wholeValue, fit?_eq]
  split_ifs <;> rfl

theorem wholeValue_toInt (n : Int64) : wholeValue n.toInt = .ok (.int n) := by
  rw [wholeValue, fit?_toInt]
  rfl

theorem Step.outcome_of_zero (result : Int) :
    Step.outcome ⟨some 0, result⟩ = .error .divisionByZero :=
  if_neg fun succeeds => succeeds.1 rfl

theorem Step.outcome_of_ne {step : Step} (divides : step.divisor? ≠ some 0) :
    step.outcome = wholeValue step.result := by
  rw [Step.outcome, Step.fault, if_neg divides, wholeValue_eq]
  exact if_congr (and_iff_right divides) rfl rfl

theorem Step.outcome_of_divisor {n : Int64} (nonzero : n ≠ 0) (result : Int) :
    Step.outcome ⟨some n.toInt, result⟩ = wholeValue result :=
  Step.outcome_of_ne (mt (eq_zero_iff_toInt.mpr ∘ Option.some.inj) nonzero)

theorem Step.outcome_of_none (result : Int) : Step.outcome ⟨none, result⟩ = wholeValue result :=
  Step.outcome_of_ne (Option.some_ne_none 0).symm

theorem Value.isString_of_promote {value : Value} {n : Int64} (promoted : value.promote = .int n) :
    value.isString = false := by
  cases value with
  | string text => cases promoted
  | _ => rfl

/-- Next to whole numbers and booleans, an operation is that on whole numbers. -/
theorem BinaryOp.apply_of_promote {left right : Value} {m n : Int64}
    (first : left.promote = .int m) (second : right.promote = .int n) (operation : Arithmetic) :
    BinaryOp.apply (.arithmetic operation) left right =
      (operation.onWholes? m n).getD (operation.onNumbers (.int m) (.int n)) := by
  rw [BinaryOp.apply, Value.isString_of_promote first, Value.isString_of_promote second, first,
    second]
  cases operation <;> rfl

theorem Arithmetic.onWholes?_eq {operation : Arithmetic} (stays : operation.isWhole = true)
    (m n : Int64) :
    operation.onWholes? m n =
      some (Step.outcome ⟨operation.divisor? n.toInt, operation.exact m.toInt n.toInt⟩) := by
  cases operation with
  | add => exact congrArg some (Step.outcome_of_none _).symm
  | subtract => exact congrArg some (Step.outcome_of_none _).symm
  | multiply => exact congrArg some (Step.outcome_of_none _).symm
  | divide => cases stays
  | floorDivide =>
    by_cases zero : n = 0
    · rw [zero]
      exact congrArg some (Step.outcome_of_zero _).symm
    · rw [Arithmetic.divisor?, Step.outcome_of_divisor zero, Arithmetic.onWholes?, if_neg zero,
        wholeQuotient?_eq zero]
      rfl
  | modulo =>
    by_cases zero : n = 0
    · rw [zero]
      exact congrArg some (Step.outcome_of_zero _).symm
    · rw [Arithmetic.divisor?, Step.outcome_of_divisor zero, Arithmetic.onWholes?, if_neg zero,
        Arithmetic.exact, ← toInt_wholeRemainder zero, wholeValue_toInt]
  | power => cases stays

theorem Sign.apply_of_promote {value : Value} {n : Int64} (promoted : value.promote = .int n)
    {sign : Sign} (counts : sign ≠ .not) :
    sign.apply value = Step.outcome ⟨none, sign.exact n.toInt⟩ := by
  rw [Step.outcome_of_none]
  cases sign with
  | negate =>
    cases value with
    | int m => cases promoted; rfl
    | bool b => cases promoted; rfl
    | _ => cases promoted
  | plus =>
    have same := wholeValue_toInt n
    cases value with
    | int m => cases promoted; exact same.symm
    | bool b => cases promoted; exact same.symm
    | _ => cases promoted
  | not => exact absurd rfl counts

/-! ### Runs of operations -/

/-- An evaluation that carries out these operations for this exact value: it fails with the fault of
the first that fails, and if none does, its value counts as the exact one. The value is a whole
number itself, except that a boolean stays what it is where nothing is carried out. -/
structure Follows (outcome : Except EvalCause Value) (steps : List Step) (exact : Int) : Prop where
  fails : ∀ fault, steps.findSome? Step.fault? = some fault → outcome = .error (.fault fault)
  holds : steps.findSome? Step.fault? = none →
    ∃ value n, outcome = .ok value ∧ value.promote = .int n ∧ n.toInt = exact ∧
      (steps ≠ [] → value = .int n)

namespace Follows

/-- One operation. -/
theorem single (step : Step) : Follows (lift step.outcome) [step] step.result := by
  have alone : [step].findSome? Step.fault? = step.fault? := List.findSome?_singleton
  rw [Step.outcome]
  constructor
  · intro fault failed
    rw [alone, Step.fault?] at failed
    split_ifs at failed with succeeds
    rw [if_neg succeeds, Option.some.inj failed]
    rfl
  · intro passed
    have succeeds := Step.fault?_eq_none_iff.mp (alone.symm.trans passed)
    rw [if_pos succeeds]
    exact ⟨_, Int64.ofInt step.result, rfl, rfl, toInt_ofInt_of_fits succeeds.2, fun _ => rfl⟩

/-- What comes behind starts from the exact value that is reached. -/
theorem bind {outcome : Except EvalCause Value} {front back : List Step} {exact result : Int}
    {next : Value → Except EvalCause Value} (first : Follows outcome front exact)
    (acts : back ≠ [])
    (second : ∀ value n, value.promote = .int n → n.toInt = exact →
      Follows (next value) back result) :
    Follows (outcome >>= next) (front ++ back) result := by
  constructor
  · intro fault failed
    rw [List.findSome?_append, Option.or_eq_some_iff] at failed
    rcases failed with early | ⟨passed, late⟩
    · rw [first.fails fault early]
      rfl
    · obtain ⟨value, n, rfl, promoted, same, -⟩ := first.holds passed
      exact (second value n promoted same).fails fault late
  · intro passed
    rw [List.findSome?_append, Option.or_eq_none_iff] at passed
    obtain ⟨value, n, rfl, promoted, same, -⟩ := first.holds passed.1
    obtain ⟨last, m, ends, counts, exact, whole⟩ :=
      (second value n promoted same).holds passed.2
    exact ⟨last, m, ends, counts, exact, fun _ => whole acts⟩

end Follows

theorem Value.exists_promote {value : Value} {exact : Int} (counts : value.whole? = some exact) :
    ∃ n, value.promote = .int n ∧ n.toInt = exact := by
  cases value with
  | int n => exact ⟨n, rfl, Option.some.inj counts⟩
  | bool b =>
    refine ⟨Value.ofBool b, rfl, ?_⟩
    rw [← Option.some.inj counts]
    cases b <;> rfl
  | _ => cases counts

theorem Follows.of_whole? {value : Value} {exact : Int} (counts : value.whole? = some exact) :
    Follows (.ok value) [] exact := by
  obtain ⟨n, promoted, same⟩ := Value.exists_promote counts
  exact ⟨nofun, fun _ => ⟨value, n, rfl, promoted, same, absurd rfl⟩⟩

/-- The evaluation of a tree of whole arithmetic follows its operations. -/
theorem Expr.IsWhole.follows {bindings : Bindings} {expr : Expr} (whole : expr.IsWhole bindings) :
    Follows (expr.eval bindings) (expr.steps bindings) (expr.exact bindings) := by
  induction whole with
  | int n span => exact .of_whole? rfl
  | bool b span => exact .of_whole? rfl
  | @var name span bound =>
    obtain ⟨exact, counts⟩ := Option.isSome_iff_exists.mp bound
    obtain ⟨value, looked, counted⟩ := Option.bind_eq_some_iff.mp counts
    have found : Expr.eval bindings (.var name span) = .ok value := by
      rw [Expr.eval, Bindings.value, looked, Option.some_or]
    rw [found, Expr.exact, counts]
    exact .of_whole? counted
  | group span _ inductionHypothesis => exact inductionHypothesis
  | @unary sign operand span counts _ inductionHypothesis =>
    refine inductionHypothesis.bind (List.cons_ne_nil _ _) fun value n promoted same => ?_
    rw [Sign.apply_of_promote promoted counts, same]
    exact .single _
  | @binary operation left right span stays _ _ first second =>
    rw [Expr.eval, Expr.steps, List.append_assoc]
    refine first.bind (by simp) fun value m promoted sameLeft => ?_
    refine second.bind (List.cons_ne_nil _ _) fun other n promotedRight sameRight => ?_
    rw [BinaryOp.apply_of_promote promoted promotedRight, Arithmetic.onWholes?_eq stays, sameLeft,
      sameRight]
    exact .single _

/-! ### Evaluation is exact -/

/-- The value of a tree of whole arithmetic is the exact one if all its operations succeed. A
boolean that nothing is done to stays a boolean. Otherwise the evaluation fails, with the fault of
the first operation that does not succeed. -/
theorem eval_whole_exact {bindings : Bindings} {expr : Expr} (whole : expr.IsWhole bindings) :
    ((∀ step ∈ expr.steps bindings, step.Succeeds) →
        ∃ value n, expr.eval bindings = .ok value ∧ value.promote = .int n ∧
          n.toInt = expr.exact bindings ∧ (expr.steps bindings ≠ [] → value = .int n)) ∧
      ∀ before step after, expr.steps bindings = before ++ step :: after →
        (∀ earlier ∈ before, earlier.Succeeds) → ¬ step.Succeeds →
          expr.eval bindings = .error (.fault step.fault) := by
  obtain ⟨fails, holds⟩ := whole.follows
  constructor
  · intro succeed
    exact holds (List.findSome?_eq_none_iff.mpr fun step member =>
      Step.fault?_eq_none_iff.mpr (succeed step member))
  · intro before step after order passed failed
    have first : step.fault? = some step.fault := if_neg failed
    exact fails _ (List.findSome?_eq_some_iff.mpr ⟨before, step, after, order, first,
      fun earlier member => Step.fault?_eq_none_iff.mpr (passed earlier member)⟩)

/-- Bindings of one variable to a boolean. -/
def truthBindings : Bindings :=
  ⟨fun name => if name = "x" then some (.bool true) else none, fun _ _ => none⟩

/-- The least number, divided by the negated variable. -/
def leastBy (operation : Arithmetic) : Expr :=
  .binary (.arithmetic operation) (.int Int64.minValue ⟨0, 1, 1, 1⟩)
    (.unary .negate (.var "x" ⟨3, 4, 1, 4⟩) ⟨2, 4, 1, 3⟩) ⟨0, 4, 1, 1⟩

theorem isWhole_leastBy {operation : Arithmetic} (stays : operation.isWhole = true) :
    (leastBy operation).IsWhole truthBindings :=
  .binary _ stays (.int _ _) (.unary _ Sign.noConfusion (.var _ rfl))

/-- Remainder and quotient of the least number by -1, added. -/
def leastSum : Expr :=
  .binary (.arithmetic .add) (leastBy .modulo) (leastBy .floorDivide) ⟨0, 9, 1, 1⟩

/-- The remainder of the least number by -1 is zero. The quotient is out of range, so the sum of the
two is not reached. -/
theorem eval_whole_exact_least :
    ((leastBy .modulo).IsWhole truthBindings ∧
        (leastBy .modulo).eval truthBindings = .ok (.int 0)) ∧
      leastSum.IsWhole truthBindings ∧
        leastSum.eval truthBindings = .error (.fault .overflow) := by
  have remainder : (leastBy .modulo).IsWhole truthBindings := isWhole_leastBy rfl
  have sum : leastSum.IsWhole truthBindings := .binary _ rfl remainder (isWhole_leastBy rfl)
  refine ⟨⟨remainder, ?_⟩, sum, ?_⟩
  · have steps : (leastBy .modulo).steps truthBindings = [⟨none, -1⟩, ⟨some (-1), 0⟩] := by
      decide +kernel
    have zero : (leastBy .modulo).exact truthBindings = (0 : Int64).toInt := by decide +kernel
    obtain ⟨value, n, evaluated, -, exact, acts⟩ :=
      (eval_whole_exact remainder).1 (by simp [steps, Step.Succeeds, Fits])
    rw [evaluated, acts (by simp [steps]), Int64.toInt_inj.mp (exact.trans zero)]
  · have steps : leastSum.steps truthBindings = [⟨none, -1⟩, ⟨some (-1), 0⟩, ⟨none, -1⟩] ++
        ⟨some (-1), 2 ^ 63⟩ :: [⟨none, 2 ^ 63⟩] := by
      decide +kernel
    exact (eval_whole_exact sum).2 _ _ _ steps (by simp [Step.Succeeds, Fits])
      (by simp [Step.Succeeds, Fits])

/-! ### Powers -/

theorem eval_power {bindings : Bindings} {left right : Expr} {base exponent : Int64}
    (first : left.eval bindings = .ok (.int base))
    (second : right.eval bindings = .ok (.int exponent)) (natural : 0 ≤ exponent) (span : Span) :
    (Expr.binary (.arithmetic .power) left right span).eval bindings =
      lift (inRange (power? base exponent.toInt.toNat)) := by
  have applied : BinaryOp.apply (.arithmetic .power) (.int base) (.int exponent) =
      inRange (power? base exponent.toInt.toNat) := by
    rw [BinaryOp.apply_of_promote rfl rfl, Arithmetic.onWholes?, if_neg (Int64.not_lt.mpr natural)]
    rfl
  rw [Expr.eval, first, second]
  exact congrArg lift applied

/-- A power with an exponent that is not negative is the exact one if that is in range, and
overflows if it is not. This is so below an exponent of `2 ^ 32`, and beyond for all bases but -1,
0 and 1. From there on every power overflows. -/
theorem eval_power_exact {bindings : Bindings} {left right : Expr} {base exponent : Int64}
    (first : left.eval bindings = .ok (.int base))
    (second : right.eval bindings = .ok (.int exponent)) (natural : 0 ≤ exponent) (span : Span) :
    (exponent.toInt < 2 ^ 32 ∨ 2 ≤ base.toInt.natAbs →
        (Fits (base.toInt ^ exponent.toInt.toNat) →
          ∃ power : Int64, power.toInt = base.toInt ^ exponent.toInt.toNat ∧
            (Expr.binary (.arithmetic .power) left right span).eval bindings =
              .ok (.int power)) ∧
        ((Expr.binary (.arithmetic .power) left right span).eval bindings =
            .error (.fault .overflow) ↔
          ¬ Fits (base.toInt ^ exponent.toInt.toNat))) ∧
      (2 ^ 32 ≤ exponent.toInt →
        (Expr.binary (.arithmetic .power) left right span).eval bindings =
          .error (.fault .overflow)) := by
  rw [eval_power first second natural]
  constructor
  · intro narrow
    rw [power?_of_narrow (by omega), ← wholeValue, wholeValue_eq]
    by_cases fits : Fits (base.toInt ^ exponent.toInt.toNat)
    · rw [if_pos fits]
      exact ⟨fun _ => ⟨_, toInt_ofInt_of_fits fits, rfl⟩, iff_of_false nofun (not_not_intro fits)⟩
    · rw [if_neg fits]
      exact ⟨fun inside => absurd inside fits, iff_of_true rfl fits⟩
  · intro high
    rw [power?_eq, if_neg (by omega)]
    rfl

/-- A power that is the least number itself. -/
theorem eval_power_exact_least :
    (0 : Int64) ≤ 63 ∧ ∃ power : Int64, power.toInt = (-2) ^ 63 ∧
      (Expr.binary (.arithmetic .power) (.int (-2) ⟨0, 2, 1, 1⟩) (.int 63 ⟨6, 8, 1, 7⟩)
        ⟨0, 8, 1, 1⟩).eval .empty = .ok (.int power) := by
  have natural : (0 : Int64) ≤ 63 := by decide
  have base : (Expr.int (-2) ⟨0, 2, 1, 1⟩).eval .empty = .ok (.int (-2)) := rfl
  have exponent : (Expr.int 63 ⟨6, 8, 1, 7⟩).eval .empty = .ok (.int 63) := rfl
  obtain ⟨exact, -⟩ := (eval_power_exact base exponent natural ⟨0, 8, 1, 1⟩).1 (.inl (by decide))
  exact ⟨natural, exact (by decide +kernel)⟩

/-- One to the power of `2 ^ 32` is in range, and yet it overflows. -/
theorem power_of_one_overflows :
    evaluate .empty "1 ** 4294967296" =
        .error ⟨.fault .overflow, "1 ** 4294967296", none⟩ ∧
      Fits (1 ^ 4294967296) :=
  ⟨by decide +kernel, by rw [one_pow]; decide⟩

end LineScript
