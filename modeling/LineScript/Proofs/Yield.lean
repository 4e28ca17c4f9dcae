/-
This file shows that reading an expression loses nothing. The tokens that a tree was read from can
be read off the tree again, from left to right, with a group standing for its parentheses. A reader
is faithful when the tokens it is given are those of the tree it returns, followed by the tokens it
leaves. Every part of the parser is faithful if the reader of its operands is, so by induction on
the depth the whole parser is.
-/

import LineScript.Proofs.Reading

namespace LineScript

/-! ### The tokens of a tree -/

mutual

/-- The tokens of a tree, from left to right. -/
def Expr.yield : Expr → List TokenKind
  | .int n _ => [.int n]
  | .float x _ => [.float x]
  | .string text _ => [.string text]
  | .bool b _ => [.bool b]
  | .var name _ => [.name name]
  | .member record field _ => [.name record, .symbol .dot, .name field]
  | .unary sign operand _ => sign.kind :: operand.yield
  | .binary op left right _ => left.yield ++ op.kind :: right.yield
  | .chain first links _ => first.yield ++ Expr.yieldLinks links
  | .and left right _ => left.yield ++ .symbol .and :: right.yield
  | .or left right _ => left.yield ++ .symbol .or :: right.yield
  | .group inner _ => .symbol .leftParen :: (inner.yield ++ [.symbol .rightParen])
  | .call function arguments _ =>
    .name function :: .symbol .leftParen ::
      (Expr.yieldArguments arguments ++ [.symbol .rightParen])

/-- The tokens of the links of a chain. -/
def Expr.yieldLinks : List (Comparison × Expr) → List TokenKind
  | [] => []
  | (comparison, operand) :: rest =>
    .symbol (.comparison comparison) :: (operand.yield ++ Expr.yieldLinks rest)

/-- The tokens of arguments, with commas between them. -/
def Expr.yieldArguments : List Expr → List TokenKind
  | [] => []
  | [last] => last.yield
  | first :: second :: rest =>
    first.yield ++ .symbol .comma :: Expr.yieldArguments (second :: rest)

end

theorem Expr.yieldArguments_cons (first : Expr) {others : List Expr} (more : others ≠ []) :
    Expr.yieldArguments (first :: others) =
      first.yield ++ .symbol .comma :: Expr.yieldArguments others := by
  cases others with
  | nil => exact absurd rfl more
  | cons second rest => rw [Expr.yieldArguments]

/-- One comparison or more give the same tokens, whichever node is made of them. -/
theorem yield_compared (first : Expr) (comparison : Comparison) (second : Expr)
    (links : List (Comparison × Expr)) :
    (compared first comparison second links).yield =
      first.yield ++ Expr.yieldLinks ((comparison, second) :: links) := by
  cases links with
  | nil =>
    simp only [compared, Expr.yield, Expr.yieldLinks, List.append_nil]
    rfl
  | cons link rest => simp only [compared, Expr.yield]

/-! ### Faithful readers -/

/-- A reader is faithful when the tokens it is given are those of the tree it returns, and then
those it leaves. -/
def Reader.Faithful (read : Reader) : Prop :=
  ∀ ⦃level : Level⦄ ⦃tokens : List Token⦄ ⦃expr : Expr⦄ ⦃rest : List Token⦄,
    read level tokens = .ok (expr, rest) → kindsOf tokens = expr.yield ++ kindsOf rest

namespace Reader.Faithful

variable {read : Reader} (faithful : read.Faithful) {stop : Span}

include faithful

theorem arguments {more : Nat} {tokens rest : List Token} {values : List Expr}
    (taken : arguments stop read more tokens = .ok (values, rest)) :
    values ≠ [] ∧ kindsOf tokens = Expr.yieldArguments values ++ kindsOf rest := by
  fun_induction LineScript.arguments stop read more tokens generalizing values rest with
  | case1 => cases taken
  | case2 => cases taken
  | case3 tokens first more span after others left inner readFirst inductionHypothesis =>
    cases taken
    obtain ⟨filled, same⟩ := inductionHypothesis inner
    refine ⟨List.cons_ne_nil _ _, ?_⟩
    rw [faithful readFirst, Expr.yieldArguments_cons first filled, kindsOf_cons, same,
      List.append_assoc, List.cons_append]
  | case4 more tokens first after readFirst =>
    cases taken
    refine ⟨List.cons_ne_nil _ _, ?_⟩
    rw [faithful readFirst, Expr.yieldArguments]

theorem callArguments {tokens rest : List Token} {values : List Expr} {last : Span}
    (taken : callArguments stop read tokens = .ok ((values, last), rest)) :
    kindsOf tokens = Expr.yieldArguments values ++ .symbol .rightParen :: kindsOf rest := by
  unfold LineScript.callArguments at taken
  split at taken
  · cases taken
    rfl
  · split at taken
    · cases taken
    · rename_i readAll
      split at taken
      · cases taken
      · rename_i closed
        cases taken
        rw [(faithful.arguments readAll).2, closing_eq_ok.mp closed, kindsOf_cons]

theorem named {name : String} {span : Span} {tokens rest : List Token} {expr : Expr}
    (taken : named stop read name span tokens = .ok (expr, rest)) :
    .name name :: kindsOf tokens = expr.yield ++ kindsOf rest := by
  revert taken
  fun_cases LineScript.named stop read name span tokens with
  | case1 => exact nofun
  | case2 paren after values last left readAll =>
    rintro ⟨⟩
    rw [kindsOf_cons, faithful.callArguments readAll, Expr.yield]
    simp
  | case3 => rintro ⟨⟩; rfl
  | case4 => exact nofun
  | case5 => rintro ⟨⟩; rfl

theorem signedOperand {sign : Sign} {level : Level} {span : Span} {tokens rest : List Token}
    {expr : Expr} (taken : signedOperand read sign level span tokens = .ok (expr, rest)) :
    sign.kind :: kindsOf tokens = expr.yield ++ kindsOf rest := by
  revert taken
  fun_cases LineScript.signedOperand read sign level span tokens with
  | case1 => exact nofun
  | case2 operand left readOperand =>
    rintro ⟨⟩
    rw [faithful readOperand, Expr.yield, List.cons_append]

theorem operand {tokens rest : List Token} {expr : Expr}
    (taken : operand stop read tokens = .ok (expr, rest)) :
    kindsOf tokens = expr.yield ++ kindsOf rest := by
  revert taken
  fun_cases LineScript.operand stop read tokens with
  | case1 => exact nofun
  | case2 => rintro ⟨⟩; rfl
  | case3 => rintro ⟨⟩; rfl
  | case4 => rintro ⟨⟩; rfl
  | case5 => rintro ⟨⟩; rfl
  | case6 span after name => exact faithful.named
  | case7 => exact nofun
  | case8 => exact nofun
  | case9 span after inner left readInner last others closed =>
    rintro ⟨⟩
    rw [kindsOf_cons, faithful readInner, closing_eq_ok.mp closed, Expr.yield]
    simp
  | case10 => exact faithful.signedOperand
  | case11 => exact faithful.signedOperand
  | case12 => exact faithful.signedOperand
  | case13 => exact nofun

theorem chainLinks {more : Nat} {tokens rest : List Token} {links : List (Comparison × Expr)}
    (taken : chainLinks read more tokens = .ok (links, rest)) :
    kindsOf tokens = Expr.yieldLinks links ++ kindsOf rest := by
  fun_induction LineScript.chainLinks read more tokens generalizing links rest with
  | case1 => cases taken; rfl
  | case2 => cases taken; rfl
  | case3 => cases taken
  | case4 => cases taken
  | case5 more tokens comparison after next operand left readOperand others last inner
      inductionHypothesis =>
    cases taken
    rw [nextComparison?_eq_some next, faithful readOperand, inductionHypothesis inner,
      Expr.yieldLinks, List.cons_append, List.append_assoc]

theorem rightOperand {left expr : Expr} {operator : Operator} {tokens rest : List Token}
    (taken : rightOperand read left operator tokens = .ok (expr, rest)) :
    left.yield ++ operator.kind :: kindsOf tokens = expr.yield ++ kindsOf rest := by
  revert taken
  fun_cases LineScript.rightOperand read left operator tokens with
  | case1 => exact nofun
  | case2 right after span readRight =>
    rintro ⟨⟩
    simp [faithful readRight, Expr.yield, Operator.kind]
  | case3 right after span readRight =>
    rintro ⟨⟩
    simp [faithful readRight, Expr.yield, Operator.kind]
  | case4 right after span operation readRight =>
    rintro ⟨⟩
    simp [faithful readRight, Expr.yield, Operator.kind, BinaryOp.kind]
  | case5 => exact nofun
  | case6 right after comparison links last readLinks readRight =>
    rintro ⟨⟩
    rw [faithful readRight, faithful.chainLinks readLinks, yield_compared, Expr.yieldLinks]
    simp [Operator.kind]

theorem operators {level : Level} {more : Nat} {left expr : Expr} {tokens rest : List Token}
    (taken : operators read level more left tokens = .ok (expr, rest)) :
    left.yield ++ kindsOf tokens = expr.yield ++ kindsOf rest := by
  fun_induction LineScript.operators read level more left tokens generalizing expr rest with
  | case1 => cases taken; rfl
  | case2 => cases taken; rfl
  | case3 => cases taken; rfl
  | case4 => cases taken; rfl
  | case5 => cases taken
  | case6 more left token after operator found binds node last readRight inductionHypothesis =>
    rw [kindsOf_cons, operator?_eq_some_iff.mp found, ← inductionHypothesis taken,
      faithful.rightOperand readRight]

end Reader.Faithful

/-- The parser drops no token, adds none and keeps their order, at every level and depth. -/
theorem faithful_expressionAt (stop : Span) (depth : Nat) :
    (expressionAt stop depth).Faithful := by
  induction depth with
  | zero =>
    intro level tokens expr rest taken
    cases taken
  | succ depth inductionHypothesis =>
    intro level tokens expr rest taken
    rw [expressionAt] at taken
    split at taken
    · cases taken
    · rename_i first
      rw [inductionHypothesis.operand first, inductionHypothesis.operators taken]

/-- A tree that was parsed has the tokens of the stream, and no others. -/
theorem yield_of_parse {stream : TokenStream} {expr : Expr} (parsed : stream.parse = .ok expr) :
    expr.yield = kindsOf stream.tokens := by
  unfold TokenStream.parse at parsed
  split at parsed
  · cases parsed
  · rename_i tree read
    cases parsed
    rw [faithful_expressionAt stream.stop _ read]
    exact (List.append_nil _).symm
  · cases parsed

end LineScript
