/-
This file opens the parts of the expression parser that decide by the next token. Each of them is
given an equation or an equivalence for what it does, and later proofs cite these. What comes after
an operand matters in two ways: it may belong to a name just read, as a parenthesis or a point, or
be an operator that binds tightly enough to be taken.
-/

import LineScript.Expr.Parser

namespace LineScript

/-! ### Kinds of tokens -/

/-- The token of a sign. -/
def Sign.kind : Sign → TokenKind
  | .negate => .symbol (.arithmetic .subtract)
  | .plus => .symbol (.arithmetic .add)
  | .not => .symbol .not

/-- The token of a binary operator. -/
def BinaryOp.kind : BinaryOp → TokenKind
  | .arithmetic operation => .symbol (.arithmetic operation)
  | .comparison relation => .symbol (.comparison relation)

/-- The token of an operator. -/
def Operator.kind : Operator → TokenKind
  | .or => .symbol .or
  | .and => .symbol .and
  | .comparison relation => .symbol (.comparison relation)
  | .arithmetic operation => .symbol (.arithmetic operation)

/-- The kinds of some tokens. -/
def kindsOf (tokens : List Token) : List TokenKind :=
  tokens.map Token.kind

@[simp] theorem kindsOf_nil : kindsOf [] = [] := rfl

@[simp] theorem kindsOf_cons (token : Token) (tokens : List Token) :
    kindsOf (token :: tokens) = token.kind :: kindsOf tokens := rfl

theorem kindsOf_eq_cons {tokens : List Token} {kind : TokenKind} {rest : List TokenKind}
    (same : kindsOf tokens = kind :: rest) :
    ∃ span others, tokens = ⟨kind, span⟩ :: others ∧ kindsOf others = rest := by
  obtain ⟨token, others, rfl, rfl, kinds⟩ := List.map_eq_cons_iff.mp same
  exact ⟨token.span, others, rfl, kinds⟩

theorem kindsOf_eq_singleton {tokens : List Token} {kind : TokenKind}
    (same : kindsOf tokens = [kind]) : ∃ span, tokens = [⟨kind, span⟩] := by
  obtain ⟨span, others, rfl, empty⟩ := kindsOf_eq_cons same
  rw [List.map_eq_nil_iff.mp empty]
  exact ⟨span, rfl⟩

theorem kindsOf_eq_append {tokens : List Token} {first second : List TokenKind}
    (same : kindsOf tokens = first ++ second) :
    ∃ front back, tokens = front ++ back ∧ kindsOf front = first ∧ kindsOf back = second :=
  List.map_eq_append_iff.mp same

/-! ### Single tokens -/

theorem closing_eq_ok {stop span : Span} {tokens rest : List Token} :
    closing stop tokens = .ok (span, rest) ↔ tokens = ⟨.symbol .rightParen, span⟩ :: rest := by
  cases tokens with
  | nil => simp [closing]
  | cons token others =>
    obtain ⟨kind, place⟩ := token
    rw [closing]
    by_cases closes : kind = .symbol .rightParen
    · simp [closes]
    · simp [closes]

theorem nextComparison?_eq_some {tokens rest : List Token} {comparison : Comparison}
    (next : nextComparison? tokens = some (comparison, rest)) :
    kindsOf tokens = .symbol (.comparison comparison) :: kindsOf rest := by
  unfold nextComparison? at next
  split at next
  · cases next
    rfl
  · cases next

theorem operator?_eq_some_iff {kind : TokenKind} {operator : Operator} :
    kind.operator? = some operator ↔ kind = operator.kind := by
  constructor
  · intro found
    unfold TokenKind.operator? at found
    split at found <;> cases found <;> rfl
  · rintro rfl
    cases operator <;> rfl

/-! ### Where a reading stops -/

/-- Tokens whose first one is no operator that binds as tightly as a level. -/
def Stops (level : Level) (kinds : List TokenKind) : Prop :=
  ∀ operator : Operator, kinds.head? = some operator.kind → operator.level.rank < level.rank

/-- Tokens whose first one does not belong to a name in front of it. -/
def Separates (kinds : List TokenKind) : Prop :=
  kinds.head? ≠ some (.symbol .leftParen) ∧ kinds.head? ≠ some (.symbol .dot)

theorem Stops.cons {operator : Operator} {level : Level}
    (loose : operator.level.rank < level.rank) (kinds : List TokenKind) :
    Stops level (operator.kind :: kinds) := by
  intro other head
  rw [List.head?_cons, Option.some.injEq] at head
  have same := operator?_eq_some_iff.mpr head
  rw [operator?_eq_some_iff.mpr rfl, Option.some.injEq] at same
  exact same ▸ loose

theorem Separates.operator (operator : Operator) (kinds : List TokenKind) :
    Separates (operator.kind :: kinds) := by
  cases operator <;> exact ⟨nofun, nofun⟩

theorem named_of_separates {tokens : List Token} (separates : Separates (kindsOf tokens))
    (stop : Span) (read : Reader) (name : String) (span : Span) :
    named stop read name span tokens = .ok (.var name span, tokens) := by
  unfold named
  split
  · exact absurd rfl separates.1
  · exact absurd rfl separates.2
  · rfl

/-- Nothing is taken from tokens that stop at the level. -/
theorem operators_of_stops {level : Level} {tokens : List Token}
    (stops : Stops level (kindsOf tokens)) (read : Reader) (more : Nat) (left : Expr) :
    operators read level more left tokens = .ok (left, tokens) := by
  fun_cases operators read level more left tokens with
  | case1 => rfl
  | case2 => rfl
  | case3 => rfl
  | case4 => rfl
  | case5 _ more token others operator found binds =>
    exact absurd (stops operator (congrArg some (operator?_eq_some_iff.mp found))) binds
  | case6 _ more token others operator found binds =>
    exact absurd (stops operator (congrArg some (operator?_eq_some_iff.mp found))) binds

/-- No link is taken from tokens that stop at a comparison. -/
theorem chainLinks_of_stops {tokens : List Token} (stops : Stops .comparison (kindsOf tokens))
    (read : Reader) (more : Nat) : chainLinks read more tokens = .ok ([], tokens) := by
  cases more with
  | zero => rfl
  | succ more =>
    rw [chainLinks]
    cases next : nextComparison? tokens with
    | none => rfl
    | some found =>
      obtain ⟨comparison, rest⟩ := found
      have head := congrArg List.head? (nextComparison?_eq_some next)
      exact absurd (stops (.comparison comparison) head) (Nat.lt_irrefl _)

/-- How tightly the operand of a sign has to bind. -/
def Sign.level : Sign → Level
  | .negate => .unary
  | .plus => .unary
  | .not => .not

theorem operand_cons_sign (stop : Span) (read : Reader) (sign : Sign) (span : Span)
    (tokens : List Token) :
    operand stop read (⟨sign.kind, span⟩ :: tokens) =
      signedOperand read sign sign.level span tokens := by
  cases sign <;> rfl

/-- An operator that binds tightly enough is taken, with its right operand. -/
theorem operators_cons {level : Level} {operator : Operator}
    (binds : ¬ operator.level.rank < level.rank) {read : Reader} {left node : Expr}
    {tokens rest : List Token} (taken : rightOperand read left operator tokens = .ok (node, rest))
    (more : Nat) (span : Span) :
    operators read level (more + 1) left (⟨operator.kind, span⟩ :: tokens) =
      operators read level more node rest := by
  rw [operators]
  simp only [operator?_eq_some_iff.mpr rfl, if_neg binds, taken]

end LineScript
