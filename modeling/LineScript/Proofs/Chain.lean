/-
This file says what a chain of comparisons means. A chain such as `a < b <= c` stands for the
conjunction `a < b and b <= c`, with an operand that stands between two comparisons written twice.
The chain goes through its links with the value of the last operand at hand, and the conjunction
evaluates each comparison from its two operands, so the two are compared link by link.

Evaluation has no effects, so whether an operand is evaluated shows in one way only: an operand that
is evaluated and fails makes the whole fail. The chain and the conjunction also agree in this. Both
evaluate an operand if all links before it hold, and disregard it otherwise.
-/

import LineScript.Eval.Basic
import LineScript.Proofs.Monad

namespace LineScript

variable {bindings : Bindings}

/-! ### Conjunctions -/

/-- The comparisons of the neighbours in a chain, each by itself. -/
def neighbours (span : Span) : Expr → List (Comparison × Expr) → List Expr
  | _, [] => []
  | left, (relation, right) :: rest =>
    .binary (.comparison relation) left right span :: neighbours span right rest

/-- Further conditions joined to one by `and`, grouped to the left. -/
def joined (span : Span) (condition : Expr) (conditions : List Expr) : Expr :=
  conditions.foldl (fun left right => .and left right span) condition

/-- The conjunction that a chain stands for. Without links there is nothing to compare. -/
def unchained (span : Span) (first : Expr) (links : List (Comparison × Expr)) : Expr :=
  match neighbours span first links with
  | [] => .bool true span
  | condition :: conditions => joined span condition conditions

theorem eval_and_of_truthy {left : Expr} {value : Value}
    (evaluated : left.eval bindings = .ok value) (truthy : value.isTruthy = true) (right : Expr)
    (span : Span) : (Expr.and left right span).eval bindings = right.eval bindings := by
  rw [Expr.eval, evaluated]
  exact if_pos truthy

/-- An outcome that decides a conjunction alone: a failure, or a value that is not true. -/
def Decides (outcome : Except EvalCause Value) : Prop :=
  ∀ value, outcome = .ok value → value.isTruthy = false

theorem Decides.error (cause : EvalCause) : Decides (.error cause) := nofun

theorem Decides.not_true : ¬ Decides (.ok (.bool true)) :=
  fun decides => Bool.noConfusion (decides _ rfl)

theorem Decides.eval_and {left : Expr} (decides : Decides (left.eval bindings)) (right : Expr)
    (span : Span) : (Expr.and left right span).eval bindings = left.eval bindings := by
  rw [Expr.eval]
  cases evaluated : left.eval bindings with
  | error cause => rfl
  | ok value => exact if_neg (Bool.eq_false_iff.mp (decides value evaluated))

theorem Decides.eval_joined {condition : Expr} (decides : Decides (condition.eval bindings))
    (span : Span) (conditions : List Expr) :
    (joined span condition conditions).eval bindings = condition.eval bindings := by
  induction conditions generalizing condition with
  | nil => rfl
  | cons next rest inductionHypothesis =>
    have same := decides.eval_and next span
    exact (inductionHypothesis (same ▸ decides)).trans same

/-! ### Links -/

/-- The outcome of a link, from the value on its left. -/
def linkOutcome (bindings : Bindings) (value : Value) (relation : Comparison) (right : Expr) :
    Except EvalCause Value := do
  let next ← right.eval bindings
  lift (BinaryOp.apply (.comparison relation) value next)

theorem eval_comparison {left : Expr} {value : Value} (evaluated : left.eval bindings = .ok value)
    (relation : Comparison) (right : Expr) (span : Span) :
    (Expr.binary (.comparison relation) left right span).eval bindings =
      linkOutcome bindings value relation right := by
  rw [Expr.eval, evaluated]
  rfl

/-- A comparison that has an outcome has a boolean. -/
theorem exists_bool_of_apply {relation : Comparison} {left right value : Value}
    (applied : BinaryOp.apply (.comparison relation) left right = .ok value) :
    ∃ holds, value = .bool holds := by
  have outcome (first second : Value) (compared : relation.apply first second = .ok value) :
      ∃ holds, value = .bool holds := by
    unfold Comparison.apply at compared
    split at compared
    · cases compared
      exact ⟨_, rfl⟩
    · cases compared
      exact ⟨_, rfl⟩
    · split at compared
      · cases compared
        exact ⟨_, rfl⟩
      · cases compared
  unfold BinaryOp.apply at applied
  split at applied
  · exact outcome left right applied
  · exact outcome left.promote right.promote applied

/-- A link decides the chain, whatever comes behind it, or it holds and the others follow. -/
theorem evalLinks_cons (value : Value) (relation : Comparison) (right : Expr) :
    (Decides (linkOutcome bindings value relation right) ∧
        ∀ rest, Expr.evalLinks bindings value ((relation, right) :: rest) =
          linkOutcome bindings value relation right) ∨
      ∃ next, right.eval bindings = .ok next ∧
        linkOutcome bindings value relation right = .ok (.bool true) ∧
        ∀ rest, Expr.evalLinks bindings value ((relation, right) :: rest) =
          Expr.evalLinks bindings next rest := by
  simp only [Expr.evalLinks, linkOutcome]
  cases right.eval bindings with
  | error cause => exact .inl ⟨.error cause, fun _ => rfl⟩
  | ok next =>
    simp only [bind, Except.bind]
    cases compared : BinaryOp.apply (.comparison relation) value next with
    | error fault => exact .inl ⟨.error _, fun _ => rfl⟩
    | ok outcome =>
      obtain ⟨holds, rfl⟩ := exists_bool_of_apply compared
      cases holds with
      | false =>
        refine .inl ⟨?_, fun _ => rfl⟩
        rintro _ ⟨⟩
        rfl
      | true => exact .inr ⟨next, rfl, rfl, fun _ => rfl⟩

/-- The conjunction of a chain's comparisons comes out as its links do. Its first condition may be
any that comes out as the first link does. -/
theorem eval_joined_neighbours {value : Value} {relation : Comparison} {right condition : Expr}
    (same : condition.eval bindings = linkOutcome bindings value relation right) (span : Span)
    (rest : List (Comparison × Expr)) :
    (joined span condition (neighbours span right rest)).eval bindings =
      Expr.evalLinks bindings value ((relation, right) :: rest) := by
  induction rest generalizing value relation right condition with
  | nil =>
    rcases evalLinks_cons value relation right with ⟨-, ends⟩ | ⟨next, -, holds, others⟩
    · exact same.trans (ends []).symm
    · exact (same.trans holds).trans (others []).symm
  | cons link rest inductionHypothesis =>
    obtain ⟨nextRelation, nextRight⟩ := link
    rcases evalLinks_cons value relation right with ⟨decides, ends⟩ | ⟨next, reached, holds, others⟩
    · rw [← same] at decides
      exact ((decides.eval_joined span _).trans same).trans (ends _).symm
    · -- The first link holds, so the conjunction so far comes out as its last comparison.
      have passes : condition.eval bindings = .ok (.bool true) := same.trans holds
      have compares := eval_comparison reached nextRelation nextRight span
      rw [others]
      exact inductionHypothesis ((eval_and_of_truthy passes rfl _ span).trans compares)

theorem eval_chain (first : Expr) {links : List (Comparison × Expr)} (filled : links ≠ [])
    (span place : Span) :
    (Expr.chain first links span).eval bindings =
      (unchained place first links).eval bindings := by
  obtain ⟨⟨relation, right⟩, rest, rfl⟩ := List.exists_cons_of_ne_nil filled
  rw [Expr.eval]
  cases evaluated : first.eval bindings with
  | error cause =>
    have fails : (Expr.binary (.comparison relation) first right place).eval bindings =
        .error cause := by
      rw [Expr.eval, evaluated]
      rfl
    have decides : Decides
        ((Expr.binary (.comparison relation) first right place).eval bindings) :=
      fails ▸ .error cause
    exact ((decides.eval_joined place _).trans fails).symm
  | ok value =>
    exact (eval_joined_neighbours (eval_comparison evaluated relation right place) place rest).symm

/-! ### Operands that are not evaluated -/

/-- An expression that evaluates the operand put into it: it fails as the operand fails. -/
def Evaluates (bindings : Bindings) (whole : Expr → Expr) : Prop :=
  ∀ operand cause, operand.eval bindings = .error cause →
    (whole operand).eval bindings = .error cause

/-- An expression that comes out the same whatever operand is put into it. -/
def Disregards (bindings : Bindings) (whole : Expr → Expr) : Prop :=
  ∀ operand other, (whole operand).eval bindings = (whole other).eval bindings

/-- An expression that evaluates the operand put into it on a condition, and disregards it without
the condition. -/
structure EvaluatesIf (bindings : Bindings) (condition : Prop) (whole : Expr → Expr) : Prop where
  evaluates_iff : Evaluates bindings whole ↔ condition
  disregards_iff : Disregards bindings whole ↔ ¬ condition

/-- Operands that fail in different ways tell the two apart. -/
theorem Evaluates.not_disregards {whole : Expr → Expr} (evaluates : Evaluates bindings whole) :
    ¬ Disregards bindings whole := by
  intro disregards
  have fails (name : String) (unknown : callFunction name [] = .error (.unknownFunction name)) :
      (whole (.call name [] ⟨0, 0, 1, 1⟩)).eval bindings =
        .error (.fault (.unknownFunction name)) := by
    refine evaluates _ _ ?_
    rw [Expr.eval, Expr.evalArguments]
    exact congrArg lift unknown
  have same := disregards (.call "f" [] ⟨0, 0, 1, 1⟩) (.call "g" [] ⟨0, 0, 1, 1⟩)
  rw [fails "f" rfl, fails "g" rfl] at same
  exact absurd (Fault.unknownFunction.inj (EvalCause.fault.inj (Except.error.inj same))) (by decide)

/-- Links that all hold lead to the value of the last operand, and the chain goes on from there. -/
theorem evalLinks_append_of_holds {value : Value} {before : List (Comparison × Expr)}
    (holds : Expr.evalLinks bindings value before = .ok (.bool true)) :
    ∃ last, ∀ rest, Expr.evalLinks bindings value (before ++ rest) =
      Expr.evalLinks bindings last rest := by
  induction before generalizing value with
  | nil => exact ⟨value, fun _ => rfl⟩
  | cons link before inductionHypothesis =>
    obtain ⟨relation, right⟩ := link
    rcases evalLinks_cons value relation right with ⟨decides, ends⟩ | ⟨next, -, -, others⟩
    · rw [← ends before, holds] at decides
      exact absurd decides Decides.not_true
    · obtain ⟨last, goesOn⟩ := inductionHypothesis ((others before).symm.trans holds)
      exact ⟨last, fun rest => (others (before ++ rest)).trans (goesOn rest)⟩

/-- After a link that does not hold, the other links do not matter. -/
theorem evalLinks_append_of_stops {value : Value} {before : List (Comparison × Expr)}
    (stops : Expr.evalLinks bindings value before ≠ .ok (.bool true))
    (rest : List (Comparison × Expr)) :
    Expr.evalLinks bindings value (before ++ rest) = Expr.evalLinks bindings value before := by
  induction before generalizing value with
  | nil => exact absurd rfl stops
  | cons link before inductionHypothesis =>
    obtain ⟨relation, right⟩ := link
    rcases evalLinks_cons value relation right with ⟨-, ends⟩ | ⟨next, -, -, others⟩
    · exact (ends _).trans (ends _).symm
    · rw [others before] at stops ⊢
      exact (others (before ++ rest)).trans (inductionHypothesis stops)

theorem evaluates_first (links : List (Comparison × Expr)) (span : Span) :
    Evaluates bindings fun operand => .chain operand links span := by
  intro operand cause failed
  rw [Expr.eval, failed]
  rfl

theorem evaluates_of_holds {first : Expr} {before : List (Comparison × Expr)} {span : Span}
    (holds : (Expr.chain first before span).eval bindings = .ok (.bool true))
    (relation : Comparison) (after : List (Comparison × Expr)) :
    Evaluates bindings fun operand =>
      .chain first (before ++ (relation, operand) :: after) span := by
  intro operand cause failed
  rw [Expr.eval] at holds ⊢
  obtain ⟨value, evaluated, passed⟩ := except_bind_eq_ok.mp holds
  obtain ⟨last, goesOn⟩ := evalLinks_append_of_holds passed
  rw [evaluated]
  refine (goesOn _).trans ?_
  rw [Expr.evalLinks, failed]
  rfl

theorem disregards_of_stops {first : Expr} {before : List (Comparison × Expr)} {span : Span}
    (stops : (Expr.chain first before span).eval bindings ≠ .ok (.bool true))
    (relation : Comparison) (after : List (Comparison × Expr)) :
    Disregards bindings fun operand =>
      .chain first (before ++ (relation, operand) :: after) span := by
  intro operand other
  rw [Expr.eval] at stops
  simp only [Expr.eval]
  cases evaluated : first.eval bindings with
  | error cause => rfl
  | ok value =>
    rw [evaluated] at stops
    exact (evalLinks_append_of_stops stops _).trans (evalLinks_append_of_stops stops _).symm

theorem EvaluatesIf.of_cases {condition : Prop} {whole : Expr → Expr}
    (evaluates : condition → Evaluates bindings whole)
    (disregards : ¬ condition → Disregards bindings whole) :
    EvaluatesIf bindings condition whole := by
  by_cases holds : condition
  · have evaluated := evaluates holds
    exact ⟨iff_of_true evaluated holds, iff_of_false evaluated.not_disregards (not_not_intro holds)⟩
  · have disregarded := disregards holds
    exact ⟨iff_of_false (fun evaluated => evaluated.not_disregards disregarded) holds,
      iff_of_true disregarded holds⟩

/-- What comes out the same for every operand evaluates it on the same condition. -/
theorem EvaluatesIf.congr {condition : Prop} {whole other : Expr → Expr}
    (same : ∀ operand, (whole operand).eval bindings = (other operand).eval bindings)
    (evaluatesIf : EvaluatesIf bindings condition whole) :
    EvaluatesIf bindings condition other := by
  obtain ⟨evaluates, disregards⟩ := evaluatesIf
  simp only [Evaluates, Disregards, same] at evaluates disregards
  exact ⟨evaluates, disregards⟩

/-- A chain has the same value or fails in the same way as the conjunction of the comparisons of
its neighbours, grouped to the left. Both evaluate the first operand. Any other operand is evaluated
by both exactly if the chain up to it holds, and disregarded by both if not. -/
theorem eval_chain_as_conjunction (bindings : Bindings) (first : Expr)
    (before : List (Comparison × Expr)) (relation : Comparison) (operand : Expr)
    (after : List (Comparison × Expr)) (span place : Span) :
    (Expr.chain first (before ++ (relation, operand) :: after) span).eval bindings =
        (unchained place first (before ++ (relation, operand) :: after)).eval bindings ∧
      EvaluatesIf bindings True
        (fun other => .chain other (before ++ (relation, operand) :: after) span) ∧
      EvaluatesIf bindings True
        (fun other => unchained place other (before ++ (relation, operand) :: after)) ∧
      EvaluatesIf bindings ((Expr.chain first before span).eval bindings = .ok (.bool true))
        (fun other => .chain first (before ++ (relation, other) :: after) span) ∧
      EvaluatesIf bindings ((Expr.chain first before span).eval bindings = .ok (.bool true))
        (fun other => unchained place first (before ++ (relation, other) :: after)) := by
  have filled (other : Expr) : before ++ (relation, other) :: after ≠ [] :=
    List.append_ne_nil_of_right_ne_nil _ (List.cons_ne_nil _ _)
  have atFirst : EvaluatesIf bindings True
      (fun other => .chain other (before ++ (relation, operand) :: after) span) :=
    .of_cases (fun _ => evaluates_first _ span) fun never => absurd trivial never
  have atOther : EvaluatesIf bindings
      ((Expr.chain first before span).eval bindings = .ok (.bool true))
      (fun other => .chain first (before ++ (relation, other) :: after) span) :=
    .of_cases (fun holds => evaluates_of_holds holds relation after)
      fun stops => disregards_of_stops stops relation after
  exact ⟨eval_chain first (filled operand) span place, atFirst,
    atFirst.congr fun other => eval_chain other (filled operand) span place, atOther,
    atOther.congr fun other => eval_chain first (filled other) span place⟩

example (a b c : Expr) (span : Span) : unchained span a [(.less, b), (.lessEqual, c)] =
    .and (.binary (.comparison .less) a b span) (.binary (.comparison .lessEqual) b c span) span :=
  rfl

end LineScript
