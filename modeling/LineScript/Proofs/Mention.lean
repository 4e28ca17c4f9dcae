/-
This file proves that an expression sees of its bindings only the names it mentions. A mention is a
variable or a field of a record. Bindings that give the same answer to every mention of an
expression give it the same value or the same error, and so does the text it was read from.
-/

import LineScript.Eval.Basic

namespace LineScript

open Text

/-! ### Mentions -/

/-- A name that an expression looks up. -/
inductive Mention where
  | var (name : String)
  | member (record field : String)
deriving DecidableEq

/-- What bindings answer to a mention. -/
def Bindings.answer (bindings : Bindings) : Mention → Option Value
  | .var name => bindings.lookup name
  | .member record field => bindings.lookupField record field

mutual

/-- The names that an expression mentions. -/
def Expr.mentions : Expr → List Mention
  | .int _ _ => []
  | .float _ _ => []
  | .string _ _ => []
  | .bool _ _ => []
  | .var name _ => [.var name]
  | .member record field _ => [.member record field]
  | .group inner _ => inner.mentions
  | .unary _ operand _ => operand.mentions
  | .binary _ left right _ => left.mentions ++ right.mentions
  | .chain first links _ => first.mentions ++ Expr.linkMentions links
  | .and left right _ => left.mentions ++ right.mentions
  | .or left right _ => left.mentions ++ right.mentions
  | .call _ arguments _ => Expr.argumentMentions arguments

/-- The names that the links of a chain mention. -/
def Expr.linkMentions : List (Comparison × Expr) → List Mention
  | [] => []
  | (_, operand) :: rest => operand.mentions ++ Expr.linkMentions rest

/-- The names that the arguments of a call mention. -/
def Expr.argumentMentions : List Expr → List Mention
  | [] => []
  | first :: rest => first.mentions ++ Expr.argumentMentions rest

end

/-- The names that the expression of a text mentions; a text that is no expression mentions none. -/
def mentionsOf (text : String) : List Mention :=
  match parseExpr (trim text) with
  | .ok expr => expr.mentions
  | .error _ => []

/-! ### Agreement -/

/-- Bindings agree on mentions when they answer each of them alike. -/
def AgreeOn (first second : Bindings) (mentions : List Mention) : Prop :=
  ∀ mention ∈ mentions, first.answer mention = second.answer mention

theorem AgreeOn.left {first second : Bindings} {front back : List Mention}
    (agree : AgreeOn first second (front ++ back)) : AgreeOn first second front :=
  fun mention member => agree mention (List.mem_append_left back member)

theorem AgreeOn.right {first second : Bindings} {front back : List Mention}
    (agree : AgreeOn first second (front ++ back)) : AgreeOn first second back :=
  fun mention member => agree mention (List.mem_append_right front member)

-- The induction follows the three functions of evaluation; in each case the mentions of the parts
-- stand in the list one after the other.
mutual

theorem Expr.eval_congr (first second : Bindings) (expr : Expr)
    (agree : AgreeOn first second expr.mentions) : expr.eval first = expr.eval second := by
  match expr with
  | .int _ _ => rfl
  | .float _ _ => rfl
  | .string _ _ => rfl
  | .bool _ _ => rfl
  | .var name _ =>
    have same : first.lookup name = second.lookup name :=
      agree (.var name) (List.mem_singleton_self _)
    rw [Expr.eval, Expr.eval, Bindings.value, Bindings.value, same]
  | .member record field _ =>
    have same : first.lookupField record field = second.lookupField record field :=
      agree (.member record field) (List.mem_singleton_self _)
    rw [Expr.eval, Expr.eval, Bindings.fieldValue, Bindings.fieldValue, same]
  | .group inner _ =>
    rw [Expr.eval, Expr.eval]
    exact Expr.eval_congr first second inner agree
  | .unary sign operand _ =>
    rw [Expr.eval, Expr.eval, Expr.eval_congr first second operand agree]
  | .binary op left right _ =>
    rw [Expr.eval, Expr.eval, Expr.eval_congr first second left agree.left,
      Expr.eval_congr first second right agree.right]
  | .chain start links _ =>
    rw [Expr.eval, Expr.eval, Expr.eval_congr first second start agree.left]
    refine congrArg _ (funext fun value => ?_)
    exact Expr.evalLinks_congr first second value links agree.right
  | .and left right _ =>
    rw [Expr.eval, Expr.eval, Expr.eval_congr first second left agree.left,
      Expr.eval_congr first second right agree.right]
  | .or left right _ =>
    rw [Expr.eval, Expr.eval, Expr.eval_congr first second left agree.left,
      Expr.eval_congr first second right agree.right]
  | .call function arguments _ =>
    rw [Expr.eval, Expr.eval, Expr.evalArguments_congr first second arguments agree]

theorem Expr.evalLinks_congr (first second : Bindings) (value : Value)
    (links : List (Comparison × Expr)) (agree : AgreeOn first second (Expr.linkMentions links)) :
    Expr.evalLinks first value links = Expr.evalLinks second value links := by
  match links with
  | [] => rfl
  | (comparison, operand) :: rest =>
    rw [Expr.evalLinks, Expr.evalLinks, Expr.eval_congr first second operand agree.left]
    refine congrArg _ (funext fun right => ?_)
    rw [Expr.evalLinks_congr first second right rest agree.right]

theorem Expr.evalArguments_congr (first second : Bindings) (arguments : List Expr)
    (agree : AgreeOn first second (Expr.argumentMentions arguments)) :
    Expr.evalArguments first arguments = Expr.evalArguments second arguments := by
  match arguments with
  | [] => rfl
  | head :: rest =>
    rw [Expr.evalArguments, Expr.evalArguments, Expr.eval_congr first second head agree.left,
      Expr.evalArguments_congr first second rest agree.right]

end

/-- The value of a text depends only on what its expression mentions. -/
theorem evaluate_congr (first second : Bindings) (text : String)
    (agree : AgreeOn first second (mentionsOf text)) :
    evaluate first text = evaluate second text := by
  have trimmed : evaluateTrimmed first (trim text) = evaluateTrimmed second (trim text) := by
    unfold evaluateTrimmed
    unfold mentionsOf at agree
    cases parsed : parseExpr (trim text) with
    | error error => simp only
    | ok expr =>
      rw [parsed] at agree
      simp only [Expr.eval_congr first second expr agree]
  unfold evaluate
  rw [trimmed]

end LineScript
