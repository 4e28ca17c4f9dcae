/-
This file shows that the levels of the operators are those they are meant to be. A tree respects
the levels when no operand binds more loosely than its place asks for: equal operators group to the
left, the operands of a comparison are terms, the base of a power is a primary and its exponent may
carry a sign. The tokens of such a tree are parsed as that same tree, up to regions.

The parser takes in operators one after the other, so a tree grows at its left edge. The invariant
is therefore about the way there: from the first operand the parser arrives at the whole tree with
the same tokens ahead, whatever it does next. Right operands are read by a nested reading, which
stops where the tokens of the operand end.
-/

import LineScript.Proofs.Grammar

namespace LineScript

/-! ### Trees without regions -/

/-- The region of a tree whose place does not matter. -/
def Span.nowhere : Span := ⟨0, 0, 0, 0⟩

mutual

/-- A tree without its regions. -/
def Expr.bare : Expr → Expr
  | .int n _ => .int n .nowhere
  | .float x _ => .float x .nowhere
  | .string text _ => .string text .nowhere
  | .bool b _ => .bool b .nowhere
  | .var name _ => .var name .nowhere
  | .member record field _ => .member record field .nowhere
  | .unary sign operand _ => .unary sign operand.bare .nowhere
  | .binary op left right _ => .binary op left.bare right.bare .nowhere
  | .chain first links _ => .chain first.bare (Expr.bareLinks links) .nowhere
  | .and left right _ => .and left.bare right.bare .nowhere
  | .or left right _ => .or left.bare right.bare .nowhere
  | .group inner _ => .group inner.bare .nowhere
  | .call function arguments _ => .call function (Expr.bareAll arguments) .nowhere

/-- The links of a chain without their regions. -/
def Expr.bareLinks : List (Comparison × Expr) → List (Comparison × Expr)
  | [] => []
  | (comparison, operand) :: rest => (comparison, operand.bare) :: Expr.bareLinks rest

/-- Trees without their regions. -/
def Expr.bareAll : List Expr → List Expr
  | [] => []
  | first :: rest => first.bare :: Expr.bareAll rest

end

/-! ### Levels -/

/-- A tree whose outermost operator binds at least as tightly as a level, and whose operands bind
as tightly as their places ask for. -/
inductive BindsAt : Level → Expr → Prop
  | tighter {loose tight : Level} {expr : Expr} (order : loose.rank ≤ tight.rank)
      (inner : BindsAt tight expr) : BindsAt loose expr
  | or {left right : Expr} (span : Span) (first : BindsAt .or left) (second : BindsAt .and right) :
      BindsAt .or (.or left right span)
  | and {left right : Expr} (span : Span) (first : BindsAt .and left)
      (second : BindsAt .not right) : BindsAt .and (.and left right span)
  | not {operand : Expr} (span : Span) (inner : BindsAt .not operand) :
      BindsAt .not (.unary .not operand span)
  | comparison (relation : Comparison) {left right : Expr} (span : Span)
      (first : BindsAt .term left) (second : BindsAt .term right) :
      BindsAt .comparison (.binary (.comparison relation) left right span)
  | chain {first : Expr} {links : List (Comparison × Expr)} (span : Span)
      (several : 2 ≤ links.length) (start : BindsAt .term first)
      (each : ∀ link ∈ links, BindsAt .term link.2) : BindsAt .comparison (.chain first links span)
  | term {operation : Arithmetic} {left right : Expr} (span : Span)
      (additive : operation = .add ∨ operation = .subtract) (first : BindsAt .term left)
      (second : BindsAt .factor right) :
      BindsAt .term (.binary (.arithmetic operation) left right span)
  | factor {operation : Arithmetic} {left right : Expr} (span : Span)
      (multiplicative : operation = .multiply ∨ operation = .divide ∨ operation = .floorDivide ∨
        operation = .modulo)
      (first : BindsAt .factor left) (second : BindsAt .unary right) :
      BindsAt .factor (.binary (.arithmetic operation) left right span)
  | signed {sign : Sign} {operand : Expr} (span : Span) (plain : sign = .negate ∨ sign = .plus)
      (inner : BindsAt .unary operand) : BindsAt .unary (.unary sign operand span)
  | power {base exponent : Expr} (span : Span) (first : BindsAt .primary base)
      (second : BindsAt .unary exponent) :
      BindsAt .power (.binary (.arithmetic .power) base exponent span)
  | int {n : Int64} (span : Span) (natural : 0 ≤ n) : BindsAt .primary (.int n span)
  | string (text : String) (span : Span) : BindsAt .primary (.string text span)
  | bool (b : Bool) (span : Span) : BindsAt .primary (.bool b span)
  | var {name : String} (span : Span) (identifier : isIdentifier name = true) :
      BindsAt .primary (.var name span)
  | member {record field : String} (span : Span) (identifier : isIdentifier record = true)
      (fieldIdentifier : isIdentifier field = true) : BindsAt .primary (.member record field span)
  | group {inner : Expr} (span : Span) (inside : BindsAt .or inner) :
      BindsAt .primary (.group inner span)
  | call {function : String} {arguments : List Expr} (span : Span)
      (identifier : isIdentifier function = true) (each : ∀ value ∈ arguments, BindsAt .or value) :
      BindsAt .primary (.call function arguments span)

/-- A primary may stand wherever an expression may. -/
theorem BindsAt.of_primary {level : Level} {expr : Expr} (primary : BindsAt .primary expr) :
    BindsAt level expr :=
  .tighter (by cases level <;> decide) primary

/-- The level from which on an operator that follows an expression would be taken into its last
operand. -/
def Level.reach : Level → Level
  | .or => .and
  | .and => .not
  | .not => .not
  | .comparison => .comparison
  | .term => .factor
  | .factor => .unary
  | .unary => .unary
  | .power => .unary
  | .primary => .primary

theorem Level.rank_reach_le {loose tight : Level} (order : loose.rank ≤ tight.rank) :
    loose.reach.rank ≤ tight.reach.rank := by
  revert order
  cases loose <;> cases tight <;> decide

theorem Stops.mono {loose tight : Level} {kinds : List TokenKind} (stops : Stops loose kinds)
    (order : loose.rank ≤ tight.rank) : Stops tight kinds :=
  fun operator head => Nat.lt_of_lt_of_le (stops operator head) order

theorem Operator.rank_ne_unary (operator : Operator) :
    operator.level.rank ≠ Level.unary.rank := by
  rcases operator with _ | _ | _ | operation
  · decide
  · decide
  · exact fun same => nomatch same
  · cases operation <;> decide

/-- Where a reading at a level stops, no operator is taken into a last operand of that level. -/
theorem Stops.reach {level : Level} {kinds : List TokenKind} (stops : Stops level kinds) :
    Stops level.reach kinds := by
  intro operator head
  have loose := stops operator head
  have other := operator.rank_ne_unary
  -- A power reaches less far than it binds, but no operator binds as tightly as a sign.
  cases level <;> simp only [Level.reach, Level.rank] at loose other ⊢ <;> omega

/-! ### Arriving at a tree -/

/-- A reader recovers the trees of fewer than `bound` tokens, what stands after them included, if
the level they are read at ends where they end. -/
def Reader.Recovers (read : Reader) (bound : Nat) : Prop :=
  ∀ (level : Level) (expr : Expr) (tokens rest : List Token), BindsAt level expr →
    kindsOf tokens = expr.yield → tokens.length + rest.length < bound →
    Stops level (kindsOf rest) → Separates (kindsOf rest) →
    ∃ result, read level (tokens ++ rest) = .ok (result, rest) ∧ result.bare = expr.bare

/-- Reading at a level arrives at a tree: after the first operand, taking in operators comes to
where the tree has been taken in and the rest is still ahead. -/
def Arrives (stop : Span) (read : Reader) (level : Level) (tokens rest : List Token)
    (expr : Expr) : Prop :=
  ∃ left after result, operand stop read (tokens ++ rest) = .ok (left, after) ∧
    result.bare = expr.bare ∧
    ∀ more, after.length ≤ more → ∃ fewer, rest.length ≤ fewer ∧
      operators read level more left after = operators read level fewer result rest

namespace Arrives

variable {stop : Span} {read : Reader} {level : Level} {tokens rest : List Token} {expr : Expr}

/-- An operand of its own is arrived at without any operator. -/
theorem of_operand {result : Expr} (taken : operand stop read (tokens ++ rest) = .ok (result, rest))
    (same : result.bare = expr.bare) : Arrives stop read level tokens rest expr :=
  ⟨result, rest, result, taken, same, fun more enough => ⟨more, enough, rfl⟩⟩

/-- From the left operand on, an operator that binds tightly enough leads to the whole. -/
theorem operator {left : Expr} {operator : Operator} {span : Span} {others : List Token}
    (first : Arrives stop read level tokens (⟨operator.kind, span⟩ :: (others ++ rest)) left)
    (binds : level.rank ≤ operator.level.rank)
    (second : ∀ start, start.bare = left.bare → ∃ node,
      rightOperand read start operator (others ++ rest) = .ok (node, rest) ∧
        node.bare = expr.bare) :
    Arrives stop read level (tokens ++ ⟨operator.kind, span⟩ :: others) rest expr := by
  obtain ⟨start, after, result, taken, same, arrives⟩ := first
  obtain ⟨node, readRight, sameNode⟩ := second result same
  refine ⟨start, after, node, by rw [List.append_assoc, List.cons_append, taken], sameNode, ?_⟩
  intro more enough
  obtain ⟨fuel, fits, goesOn⟩ := arrives more enough
  simp only [List.length_cons, List.length_append] at fits
  obtain ⟨fewer, rfl⟩ : ∃ fewer, fuel = fewer + 1 := ⟨fuel - 1, by omega⟩
  refine ⟨fewer, by omega, ?_⟩
  rw [goesOn, operators_cons (Nat.not_lt.mpr binds) readRight]

/-- Where the level ends, the tree is the result of the reading. -/
theorem read_eq {depth : Nat}
    (arrives : Arrives stop (expressionAt stop depth) level tokens rest expr)
    (stops : Stops level (kindsOf rest)) :
    ∃ result, expressionAt stop (depth + 1) level (tokens ++ rest) = .ok (result, rest) ∧
      result.bare = expr.bare := by
  obtain ⟨left, after, result, taken, same, goesOn⟩ := arrives
  obtain ⟨fewer, -, equal⟩ := goesOn after.length (Nat.le_refl _)
  refine ⟨result, ?_, same⟩
  simp only [expressionAt, taken, equal, operators_of_stops stops]

end Arrives

/-! ### Right operands, links and arguments -/

/-- A comparison ends a term and a name. Where no comparison follows a chain, what follows does. -/
theorem links_follow {links : List (Comparison × Expr)} {tokens rest : List Token}
    (same : kindsOf tokens = Expr.yieldLinks links) (stops : Stops .comparison (kindsOf rest))
    (separates : Separates (kindsOf rest)) :
    Stops .term (kindsOf (tokens ++ rest)) ∧ Separates (kindsOf (tokens ++ rest)) := by
  cases links with
  | nil =>
    obtain rfl := List.map_eq_nil_iff.mp same
    exact ⟨stops.mono (by decide), separates⟩
  | cons link others =>
    obtain ⟨comparison, operand⟩ := link
    rw [Expr.yieldLinks] at same
    obtain ⟨span, after, rfl, -⟩ := kindsOf_eq_cons same
    have loose : (Operator.comparison comparison).level.rank < Level.term.rank :=
      Nat.lt_succ_self _
    exact ⟨.cons loose _, .operator (.comparison comparison) _⟩

theorem bare_compared {first second left right : Expr} (comparison : Comparison)
    {links others : List (Comparison × Expr)} (sameFirst : first.bare = left.bare)
    (sameSecond : second.bare = right.bare)
    (sameLinks : Expr.bareLinks links = Expr.bareLinks others) :
    (compared first comparison second links).bare =
      (compared left comparison right others).bare := by
  rcases links with - | ⟨⟨_, _⟩, _⟩ <;> rcases others with - | ⟨⟨_, _⟩, _⟩ <;>
    simp_all [compared, Expr.bare, Expr.bareLinks]

namespace Reader.Recovers

variable {read : Reader} {bound : Nat} (recovers : read.Recovers bound)

include recovers

/-- The links of a chain are recovered up to where no comparison follows. -/
theorem chainLinks {links : List (Comparison × Expr)}
    (each : ∀ link ∈ links, BindsAt .term link.2) (more : Nat) (tokens rest : List Token)
    (same : kindsOf tokens = Expr.yieldLinks links) (fits : tokens.length + rest.length ≤ bound)
    (enough : tokens.length ≤ more) (stops : Stops .comparison (kindsOf rest))
    (separates : Separates (kindsOf rest)) :
    ∃ result, chainLinks read more (tokens ++ rest) = .ok (result, rest) ∧
      Expr.bareLinks result = Expr.bareLinks links := by
  induction links generalizing more tokens with
  | nil =>
    obtain rfl := List.map_eq_nil_iff.mp same
    exact ⟨[], chainLinks_of_stops stops read more, rfl⟩
  | cons link others inductionHypothesis =>
    obtain ⟨comparison, operand⟩ := link
    rw [Expr.yieldLinks] at same
    obtain ⟨span, _, rfl, sameRest⟩ := kindsOf_eq_cons same
    obtain ⟨front, back, rfl, sameFront, sameBack⟩ := kindsOf_eq_append sameRest
    simp only [List.length_cons, List.length_append] at fits enough
    obtain ⟨fuel, rfl⟩ : ∃ fuel, more = fuel + 1 := ⟨more - 1, by omega⟩
    obtain ⟨ends, apart⟩ := links_follow sameBack stops separates
    obtain ⟨node, taken, sameNode⟩ := recovers .term operand front (back ++ rest)
      (each _ List.mem_cons_self) sameFront (by rw [List.length_append]; omega) ends apart
    obtain ⟨result, readLinks, sameLinks⟩ :=
      inductionHypothesis (fun link member => each link (List.mem_cons_of_mem _ member)) fuel back
        sameBack (by omega) (by omega)
    refine ⟨(comparison, node) :: result, ?_, ?_⟩
    · simp only [List.cons_append, List.append_assoc, LineScript.chainLinks, nextComparison?, taken,
        readLinks]
    · rw [Expr.bareLinks, Expr.bareLinks, sameNode, sameLinks]

/-- The right side of a comparison is recovered with all its further links. -/
theorem comparisons {start left right : Expr} (comparison : Comparison)
    {links : List (Comparison × Expr)} (sameStart : start.bare = left.bare)
    (second : BindsAt .term right) (each : ∀ link ∈ links, BindsAt .term link.2)
    (tokens rest : List Token) (same : kindsOf tokens = right.yield ++ Expr.yieldLinks links)
    (fits : tokens.length + rest.length < bound) (stops : Stops .comparison (kindsOf rest))
    (separates : Separates (kindsOf rest)) :
    ∃ node, rightOperand read start (.comparison comparison) (tokens ++ rest) = .ok (node, rest) ∧
      node.bare = (compared left comparison right links).bare := by
  obtain ⟨front, back, rfl, sameFront, sameBack⟩ := kindsOf_eq_append same
  rw [List.length_append] at fits
  obtain ⟨ends, apart⟩ := links_follow sameBack stops separates
  obtain ⟨node, taken, sameNode⟩ := recovers .term right front (back ++ rest) second sameFront
    (by rw [List.length_append]; omega) ends apart
  obtain ⟨result, readLinks, sameLinks⟩ :=
    recovers.chainLinks each (back ++ rest).length back rest sameBack (by omega)
      (by rw [List.length_append]; omega) stops separates
  refine ⟨compared start comparison node result, ?_, ?_⟩
  · have level : (Operator.comparison comparison).rightLevel = .term := rfl
    simp only [List.append_assoc, rightOperand, level, taken, readLinks]
  · exact bare_compared comparison sameStart sameNode sameLinks

/-- Arguments are recovered up to the closing parenthesis. -/
theorem arguments (stop : Span) {values : List Expr} (filled : values ≠ [])
    (each : ∀ value ∈ values, BindsAt .or value) (more : Nat) (tokens rest : List Token)
    (span : Span) (same : kindsOf tokens = Expr.yieldArguments values)
    (fits : tokens.length + rest.length + 1 < bound) (enough : tokens.length ≤ more) :
    ∃ results, arguments stop read more (tokens ++ ⟨.symbol .rightParen, span⟩ :: rest) =
        .ok (results, ⟨.symbol .rightParen, span⟩ :: rest) ∧
      Expr.bareAll results = Expr.bareAll values := by
  induction values generalizing more tokens with
  | nil => exact absurd rfl filled
  | cons first others inductionHypothesis =>
    -- A comma follows every argument but the last, so the last one is a case of its own.
    have firstBinds := each first List.mem_cons_self
    by_cases last : others = []
    · subst last
      rw [Expr.yieldArguments] at same
      obtain ⟨node, taken, sameNode⟩ := recovers .or first tokens
        (⟨.symbol .rightParen, span⟩ :: rest) firstBinds same
        (by simp only [List.length_cons]; omega) ((Closes.rightParen _).stops .or)
        (Closes.rightParen _).separates
      refine ⟨[node], ?_, by simp only [Expr.bareAll, sameNode]⟩
      rw [LineScript.arguments, taken]
      cases more <;> rfl
    · rw [Expr.yieldArguments_cons first last] at same
      obtain ⟨front, back, rfl, sameFront, sameBack⟩ := kindsOf_eq_append same
      obtain ⟨place, after, rfl, sameAfter⟩ := kindsOf_eq_cons sameBack
      simp only [List.length_append, List.length_cons] at fits enough
      obtain ⟨fuel, rfl⟩ : ∃ fuel, more = fuel + 1 := ⟨more - 1, by omega⟩
      obtain ⟨node, taken, sameNode⟩ := recovers .or first front
        (⟨.symbol .comma, place⟩ :: (after ++ ⟨.symbol .rightParen, span⟩ :: rest)) firstBinds
        sameFront (by simp only [List.length_append, List.length_cons]; omega)
        ((Closes.comma _).stops .or) (Closes.comma _).separates
      obtain ⟨results, readMore, sameResults⟩ := inductionHypothesis last
        (fun value member => each value (List.mem_cons_of_mem _ member)) fuel after sameAfter
        (by omega) (by omega)
      refine ⟨node :: results, ?_, by simp only [Expr.bareAll, sameNode, sameResults]⟩
      rw [List.append_assoc, List.cons_append, LineScript.arguments, taken]
      simp only [readMore]

theorem callArguments (stop : Span) {values : List Expr}
    (each : ∀ value ∈ values, BindsAt .or value) (tokens rest : List Token) (span : Span)
    (same : kindsOf tokens = Expr.yieldArguments values)
    (fits : tokens.length + rest.length + 1 < bound) :
    ∃ results, callArguments stop read (tokens ++ ⟨.symbol .rightParen, span⟩ :: rest) =
        .ok ((results, span), rest) ∧ Expr.bareAll results = Expr.bareAll values := by
  by_cases empty : values = []
  · subst empty
    obtain rfl := List.map_eq_nil_iff.mp same
    exact ⟨[], rfl, rfl⟩
  · obtain ⟨results, taken, sameResults⟩ := recovers.arguments stop empty each
      (tokens ++ ⟨.symbol .rightParen, span⟩ :: rest).length tokens rest span same fits
      (by rw [List.length_append]; omega)
    refine ⟨results, ?_, sameResults⟩
    unfold LineScript.callArguments
    split
    · rename_i place others opens
      obtain ⟨kind, _, sameKinds, filled⟩ := (Expr.derives_yieldArguments values empty).exists_cons
      obtain ⟨place, after, rfl, -⟩ := kindsOf_eq_cons (same.trans sameKinds)
      cases opens
      exact absurd rfl filled
    · simp only [taken, closing_eq_ok.mpr rfl]

end Reader.Recovers

/-! ### Every tree is arrived at -/

/-- A tree of a level is arrived at from every level that is not tighter, if no operator follows
that would be taken into its last operand. -/
def Reachable (stop : Span) (read : Reader) (bound : Nat) (level : Level) (expr : Expr) : Prop :=
  ∀ (least : Level) (tokens rest : List Token), least.rank ≤ level.rank →
    kindsOf tokens = expr.yield → tokens.length + rest.length ≤ bound →
    Stops level.reach (kindsOf rest) → Separates (kindsOf rest) →
    Arrives stop read least tokens rest expr

namespace Reachable

variable {stop : Span} {read : Reader} {bound : Nat} {level : Level} {expr : Expr}

/-- An operator between a tree that is arrived at and a right operand that is recovered. -/
theorem operator {leftLevel : Level} {left : Expr} {more : List TokenKind}
    (first : Reachable stop read bound leftLevel left) (operator : Operator)
    (own : level.rank ≤ operator.level.rank) (order : level.rank ≤ leftLevel.rank)
    (loose : operator.level.rank < leftLevel.reach.rank)
    (yields : expr.yield = left.yield ++ operator.kind :: more)
    (second : ∀ (start : Expr) (others rest : List Token), start.bare = left.bare →
      kindsOf others = more → others.length + rest.length < bound →
      Stops level.reach (kindsOf rest) → Separates (kindsOf rest) →
      ∃ node, rightOperand read start operator (others ++ rest) = .ok (node, rest) ∧
        node.bare = expr.bare) :
    Reachable stop read bound level expr := by
  intro least tokens rest notTighter same fits stops separates
  rw [yields] at same
  obtain ⟨front, _, rfl, sameFront, sameRest⟩ := kindsOf_eq_append same
  obtain ⟨span, others, rfl, sameOthers⟩ := kindsOf_eq_cons sameRest
  simp only [List.length_append, List.length_cons] at fits
  refine Arrives.operator ?_ (Nat.le_trans notTighter own) fun start sameStart =>
    second start others rest sameStart sameOthers (by omega) stops separates
  refine first least front _ (Nat.le_trans notTighter order) sameFront ?_ (.cons loose _)
    (.operator operator _)
  simp only [List.length_append, List.length_cons]
  omega

/-- A tree that is an operand of its own, whatever follows it. -/
theorem of_operand (alone : ∀ tokens rest : List Token, kindsOf tokens = expr.yield →
    tokens.length + rest.length ≤ bound → Stops level.reach (kindsOf rest) →
    Separates (kindsOf rest) → ∃ result,
      operand stop read (tokens ++ rest) = .ok (result, rest) ∧ result.bare = expr.bare) :
    Reachable stop read bound level expr := by
  intro least tokens rest _ same fits stops separates
  obtain ⟨result, taken, sameResult⟩ := alone tokens rest same fits stops separates
  exact .of_operand taken sameResult

/-- A literal is an operand of its own. -/
theorem of_literal {kind : TokenKind} (yields : expr.yield = [kind])
    (alone : ∀ (span : Span) (rest : List Token), ∃ result,
      operand stop read (⟨kind, span⟩ :: rest) = .ok (result, rest) ∧ result.bare = expr.bare) :
    Reachable stop read bound level expr := by
  refine .of_operand fun tokens rest same _ _ _ => ?_
  obtain ⟨span, rfl⟩ := kindsOf_eq_singleton (same.trans yields)
  exact alone span rest

section

variable (recovers : read.Recovers bound)

include recovers

/-- An operator that makes one node of its two operands. -/
theorem joined (operator : Operator) {leftLevel : Level} {left right : Expr}
    (node : Expr → Expr → Span → Expr) (first : Reachable stop read bound leftLevel left)
    (second : BindsAt operator.rightLevel right) (own : level.rank ≤ operator.level.rank)
    (order : level.rank ≤ leftLevel.rank) (loose : operator.level.rank < leftLevel.reach.rank)
    (reach : level.reach.rank ≤ operator.rightLevel.rank)
    (yields : expr.yield = left.yield ++ operator.kind :: right.yield)
    (makes : ∀ {start result : Expr} {tokens rest : List Token},
      read operator.rightLevel tokens = .ok (result, rest) →
      rightOperand read start operator tokens =
        .ok (node start result (start.span.merge result.span), rest))
    (bare : ∀ {start result : Expr} {span : Span}, start.bare = left.bare →
      result.bare = right.bare → (node start result span).bare = expr.bare) :
    Reachable stop read bound level expr := by
  refine first.operator operator own order loose yields ?_
  intro start others rest sameStart same fits stops separates
  obtain ⟨result, taken, sameResult⟩ :=
    recovers _ right others rest second same fits (stops.mono reach) separates
  exact ⟨_, makes taken, bare sameStart sameResult⟩

theorem arithmetic {leftLevel : Level} {left right : Expr} {operation : Arithmetic} (span : Span)
    (first : Reachable stop read bound leftLevel left)
    (second : BindsAt (Operator.arithmetic operation).rightLevel right)
    (own : level.rank ≤ (Operator.arithmetic operation).level.rank)
    (order : level.rank ≤ leftLevel.rank)
    (loose : (Operator.arithmetic operation).level.rank < leftLevel.reach.rank)
    (reach : level.reach.rank ≤ (Operator.arithmetic operation).rightLevel.rank) :
    Reachable stop read bound level (.binary (.arithmetic operation) left right span) := by
  refine joined recovers (.arithmetic operation) (.binary (.arithmetic operation)) first second own
    order loose reach (by rw [Expr.yield]; rfl) ?_ ?_
  · intro start result tokens rest taken
    simp only [rightOperand, taken]
  · intro start result span sameStart sameResult
    rw [Expr.bare, Expr.bare, sameStart, sameResult]

/-- Comparisons of terms, one or more of them. -/
theorem comparisons {first right : Expr} {links : List (Comparison × Expr)}
    (comparison : Comparison) (start : Reachable stop read bound .term first)
    (second : BindsAt .term right) (each : ∀ link ∈ links, BindsAt .term link.2)
    (yields : expr.yield = first.yield ++ Expr.yieldLinks ((comparison, right) :: links))
    (bare : (compared first comparison right links).bare = expr.bare) :
    Reachable stop read bound .comparison expr := by
  have loose : (Operator.comparison comparison).level.rank < Level.term.reach.rank :=
    (by decide : 4 < 6)
  rw [Expr.yieldLinks] at yields
  refine start.operator (.comparison comparison) (Nat.le_refl _) (by decide) loose yields ?_
  intro left others rest sameLeft same fits stops separates
  rw [← bare]
  exact recovers.comparisons comparison sameLeft second each others rest same fits stops separates

theorem signed {sign : Sign} {inner : Expr} (span : Span) (binds : BindsAt sign.level inner)
    (reach : level.reach.rank ≤ sign.level.rank) :
    Reachable stop read bound level (.unary sign inner span) := by
  refine .of_operand fun tokens rest same fits stops separates => ?_
  rw [Expr.yield] at same
  obtain ⟨place, others, rfl, sameOthers⟩ := kindsOf_eq_cons same
  rw [List.length_cons] at fits
  obtain ⟨node, taken, sameNode⟩ :=
    recovers _ inner others rest binds sameOthers (by omega) (stops.mono reach) separates
  refine ⟨.unary sign node (place.merge node.span), ?_, ?_⟩
  · rw [List.cons_append, operand_cons_sign, signedOperand, taken]
  · rw [Expr.bare, Expr.bare, sameNode]

theorem group {inner : Expr} (span : Span) (inside : BindsAt .or inner) :
    Reachable stop read bound level (.group inner span) := by
  refine .of_operand fun tokens rest same fits _ _ => ?_
  rw [Expr.yield] at same
  obtain ⟨opens, _, rfl, sameInside⟩ := kindsOf_eq_cons same
  obtain ⟨front, _, rfl, sameFront, sameLast⟩ := kindsOf_eq_append sameInside
  obtain ⟨closes, rfl⟩ := kindsOf_eq_singleton sameLast
  simp only [List.length_append, List.length_cons, List.length_nil] at fits
  obtain ⟨node, taken, sameNode⟩ := recovers .or inner front
    (⟨.symbol .rightParen, closes⟩ :: rest) inside sameFront
    (by simp only [List.length_cons]; omega) ((Closes.rightParen _).stops .or)
    (Closes.rightParen _).separates
  refine ⟨.group node (opens.merge closes), ?_, ?_⟩
  · simp only [List.cons_append, List.append_assoc, List.nil_append, operand, taken,
      closing_eq_ok.mpr rfl]
  · rw [Expr.bare, Expr.bare, sameNode]

theorem call {function : String} {values : List Expr} (span : Span)
    (each : ∀ value ∈ values, BindsAt .or value) :
    Reachable stop read bound level (.call function values span) := by
  refine .of_operand fun tokens rest same fits _ _ => ?_
  rw [Expr.yield] at same
  obtain ⟨place, _, rfl, sameRest⟩ := kindsOf_eq_cons same
  obtain ⟨opens, _, rfl, sameInside⟩ := kindsOf_eq_cons sameRest
  obtain ⟨front, _, rfl, sameFront, sameLast⟩ := kindsOf_eq_append sameInside
  obtain ⟨closes, rfl⟩ := kindsOf_eq_singleton sameLast
  simp only [List.length_append, List.length_cons, List.length_nil] at fits
  obtain ⟨results, taken, sameResults⟩ :=
    recovers.callArguments stop each front rest closes sameFront (by omega)
  refine ⟨.call function results (place.merge closes), ?_, ?_⟩
  · simp only [List.cons_append, List.append_assoc, List.nil_append, operand, named, taken]
  · rw [Expr.bare, Expr.bare, sameResults]

end

end Reachable

/-- A tree that respects the levels is arrived at, if right operands are recovered. Only the left
operand is arrived at in the same reading. -/
theorem BindsAt.reachable {stop : Span} {read : Reader} {bound : Nat}
    (recovers : read.Recovers bound) {level : Level} {expr : Expr} (binds : BindsAt level expr) :
    Reachable stop read bound level expr := by
  induction binds with
  | tighter order _ inductionHypothesis =>
    intro least tokens rest notTighter same fits stops separates
    exact inductionHypothesis least tokens rest (Nat.le_trans notTighter order) same fits
      (stops.mono (Level.rank_reach_le order)) separates
  | or span _ second inductionHypothesis =>
    refine .joined recovers .or .or inductionHypothesis second (by decide) (by decide)
      (by decide) (by decide) (by rw [Expr.yield]; rfl) ?_ ?_
    · intro start result tokens rest taken
      simp only [rightOperand, taken]
    · intro start result span sameStart sameResult
      rw [Expr.bare, Expr.bare, sameStart, sameResult]
  | and span _ second inductionHypothesis =>
    refine .joined recovers .and .and inductionHypothesis second (by decide) (by decide)
      (by decide) (by decide) (by rw [Expr.yield]; rfl) ?_ ?_
    · intro start result tokens rest taken
      simp only [rightOperand, taken]
    · intro start result span sameStart sameResult
      rw [Expr.bare, Expr.bare, sameStart, sameResult]
  | not span inner => exact .signed recovers span inner (by decide)
  | comparison relation span _ second inductionHypothesis =>
    refine .comparisons recovers relation inductionHypothesis second (List.forall_mem_nil _) ?_ rfl
    rw [Expr.yield, Expr.yieldLinks, Expr.yieldLinks, List.append_nil]
    rfl
  | @chain first links span several start each inductionHypothesis =>
    match links, several with
    -- The first link is the operator of the chain, the others are read behind its right operand.
    | (relation, right) :: link :: links, _ =>
      obtain ⟨second, more⟩ := List.forall_mem_cons.mp each
      exact .comparisons recovers relation inductionHypothesis second more (by rw [Expr.yield]) rfl
  | term span additive _ second inductionHypothesis =>
    rcases additive with rfl | rfl <;>
      exact .arithmetic recovers span inductionHypothesis second (by decide) (by decide)
        (by decide) (by decide)
  | factor span multiplicative _ second inductionHypothesis =>
    rcases multiplicative with rfl | rfl | rfl | rfl <;>
      exact .arithmetic recovers span inductionHypothesis second (by decide) (by decide)
        (by decide) (by decide)
  | signed span plain inner =>
    rcases plain with rfl | rfl <;> exact .signed recovers span inner (by decide)
  | power span _ second inductionHypothesis =>
    exact .arithmetic recovers span inductionHypothesis second (by decide) (by decide)
      (by decide) (by decide)
  | int span natural =>
    exact .of_literal (by rw [Expr.yield]) fun place rest => ⟨.int _ place, rfl, rfl⟩
  | string text span =>
    exact .of_literal (by rw [Expr.yield]) fun place rest => ⟨.string text place, rfl, rfl⟩
  | bool b span =>
    exact .of_literal (by rw [Expr.yield]) fun place rest => ⟨.bool b place, rfl, rfl⟩
  | var span identifier =>
    refine .of_operand fun tokens rest same _ _ separates => ?_
    rw [Expr.yield] at same
    obtain ⟨place, rfl⟩ := kindsOf_eq_singleton same
    exact ⟨_, named_of_separates separates stop read _ place, rfl⟩
  | member span identifier fieldIdentifier =>
    refine .of_operand fun tokens rest same _ _ _ => ?_
    rw [Expr.yield] at same
    obtain ⟨place, _, rfl, sameRest⟩ := kindsOf_eq_cons same
    obtain ⟨dot, _, rfl, sameField⟩ := kindsOf_eq_cons sameRest
    obtain ⟨last, rfl⟩ := kindsOf_eq_singleton sameField
    exact ⟨_, rfl, rfl⟩
  | group span inside => exact .group recovers span inside
  | call span identifier each => exact .call recovers span each

/-- The parser recovers every tree that respects the levels and whose tokens its depth exceeds. -/
theorem recovers_expressionAt (stop : Span) (depth : Nat) :
    (expressionAt stop depth).Recovers depth := by
  induction depth with
  | zero => exact fun _ _ _ _ _ _ fits => absurd fits (Nat.not_lt_zero _)
  | succ depth inductionHypothesis =>
    intro level expr tokens rest binds same fits stops separates
    have reachable : Reachable stop _ depth level expr := binds.reachable inductionHypothesis
    have arrives :=
      reachable level tokens rest (Nat.le_refl _) same (by omega) stops.reach separates
    exact arrives.read_eq stops

/-- Parsing the tokens of a tree that respects the levels gives that tree, up to regions. -/
theorem parse_of_yield {stream : TokenStream} {expr : Expr} (binds : BindsAt .or expr)
    (same : kindsOf stream.tokens = expr.yield) :
    ∃ result, stream.parse = .ok result ∧ result.bare = expr.bare := by
  obtain ⟨result, taken, sameResult⟩ := recovers_expressionAt stream.stop
    (stream.tokens.length + 1) .or expr stream.tokens [] binds same (Nat.lt_succ_self _) nofun
    ⟨nofun, nofun⟩
  refine ⟨result, ?_, sameResult⟩
  rw [List.append_nil] at taken
  unfold TokenStream.parse
  rw [taken]

end LineScript
