/-
This file compares the parser with a grammar that knows nothing of precedence. In the flat language
an expression is a row of operands with operators between them, an operand is a primary behind any
number of signs, and a primary is a literal, a name, a field, a call or an expression in
parentheses. The parser accepts exactly this language: the levels decide which tree is made of the
tokens, but no level ever refuses a token that the flat language allows, or takes in one that it
does not. The tree that comes out has the tokens that went in.
-/

import LineScript.Proofs.Yield

namespace LineScript

/-! ### The flat language -/

/-- Whether a token is a literal. -/
def TokenKind.isLiteral : TokenKind → Bool
  | .int _ => true
  | .float _ => true
  | .string _ => true
  | .bool _ => true
  | .name _ => false
  | .symbol _ => false

/-- Whether a token may stand as a sign in front of an operand. -/
def TokenKind.isSign : TokenKind → Bool
  | .symbol (.arithmetic .subtract) => true
  | .symbol (.arithmetic .add) => true
  | .symbol .not => true
  | _ => false

/-- Whether a token may stand between two operands. -/
def TokenKind.isInfix : TokenKind → Bool
  | .symbol .or => true
  | .symbol .and => true
  | .symbol (.comparison _) => true
  | .symbol (.arithmetic _) => true
  | _ => false

/-- The kinds of phrases of the flat language. -/
inductive Phrase where
  | expression
  | operand
  | primary
  | arguments
deriving DecidableEq, Repr

/-- Which tokens make up a phrase. -/
inductive Derives : Phrase → List TokenKind → Prop
  | alone {operand : List TokenKind} (first : Derives .operand operand) :
      Derives .expression operand
  | joined {operand rest : List TokenKind} {kind : TokenKind} (first : Derives .operand operand)
      (joins : kind.isInfix = true) (others : Derives .expression rest) :
      Derives .expression (operand ++ kind :: rest)
  | plain {primary : List TokenKind} (inner : Derives .primary primary) : Derives .operand primary
  | signed {operand : List TokenKind} {kind : TokenKind} (sign : kind.isSign = true)
      (inner : Derives .operand operand) : Derives .operand (kind :: operand)
  | literal {kind : TokenKind} (value : kind.isLiteral = true) : Derives .primary [kind]
  | name (name : String) : Derives .primary [.name name]
  | member (record field : String) :
      Derives .primary [.name record, .symbol .dot, .name field]
  | emptyCall (function : String) :
      Derives .primary [.name function, .symbol .leftParen, .symbol .rightParen]
  | call (function : String) {arguments : List TokenKind} (inner : Derives .arguments arguments) :
      Derives .primary
        (.name function :: .symbol .leftParen :: (arguments ++ [.symbol .rightParen]))
  | group {inside : List TokenKind} (inner : Derives .expression inside) :
      Derives .primary (.symbol .leftParen :: (inside ++ [.symbol .rightParen]))
  | lastArgument {argument : List TokenKind} (value : Derives .expression argument) :
      Derives .arguments argument
  | moreArguments {argument rest : List TokenKind} (value : Derives .expression argument)
      (others : Derives .arguments rest) : Derives .arguments (argument ++ .symbol .comma :: rest)

namespace Derives

variable {tokens others : List TokenKind} {kind : TokenKind}

/-- A primary alone is an expression. -/
theorem ofPrimary (primary : Derives .primary tokens) : Derives .expression tokens :=
  .alone (.plain primary)

/-- A sign in front of an expression belongs to its first operand. -/
theorem sign_cons (sign : kind.isSign = true) (expression : Derives .expression tokens) :
    Derives .expression (kind :: tokens) := by
  cases expression with
  | alone first => exact .alone (.signed sign first)
  | joined first joins rest => exact .joined (.signed sign first) joins rest

/-- Two expressions with an operator between them are an expression. -/
theorem join (first : Derives .expression tokens) (joins : kind.isInfix = true)
    (second : Derives .expression others) : Derives .expression (tokens ++ kind :: others) := by
  generalize same : Phrase.expression = phrase at first
  induction first with
  | alone operand => exact .joined operand joins second
  | joined operand joinsFirst _ _ inductionHypothesis =>
    rw [List.append_assoc, List.cons_append]
    exact .joined operand joinsFirst (inductionHypothesis same)
  | _ => cases same

/-- No phrase is empty or starts with a closing parenthesis. -/
theorem exists_cons {phrase : Phrase} (derives : Derives phrase tokens) :
    ∃ kind rest, tokens = kind :: rest ∧ kind ≠ .symbol .rightParen := by
  induction derives with
  | alone _ inductionHypothesis => exact inductionHypothesis
  | joined _ _ _ inductionHypothesis =>
    obtain ⟨kind, rest, rfl, other⟩ := inductionHypothesis
    exact ⟨kind, _, rfl, other⟩
  | plain _ inductionHypothesis => exact inductionHypothesis
  | signed sign =>
    refine ⟨_, _, rfl, ?_⟩
    rintro rfl
    cases sign
  | literal value =>
    refine ⟨_, _, rfl, ?_⟩
    rintro rfl
    cases value
  | name name => exact ⟨_, _, rfl, nofun⟩
  | member record field => exact ⟨_, _, rfl, nofun⟩
  | emptyCall function => exact ⟨_, _, rfl, nofun⟩
  | call function => exact ⟨_, _, rfl, nofun⟩
  | group => exact ⟨_, _, rfl, nofun⟩
  | lastArgument _ inductionHypothesis => exact inductionHypothesis
  | moreArguments _ _ inductionHypothesis =>
    obtain ⟨kind, rest, rfl, other⟩ := inductionHypothesis
    exact ⟨kind, _, rfl, other⟩

end Derives

/-! ### Every tree has tokens of the flat language -/

theorem Sign.isSign_kind (sign : Sign) : sign.kind.isSign = true := by
  cases sign <;> rfl

theorem BinaryOp.isInfix_kind (op : BinaryOp) : op.kind.isInfix = true := by
  cases op <;> rfl

theorem Operator.isInfix_kind (operator : Operator) : operator.kind.isInfix = true := by
  cases operator <;> rfl

mutual

/-- The tokens of a tree are an expression, whatever its levels. -/
theorem Expr.derives_yield : (expr : Expr) → Derives .expression expr.yield
  | .int _ _ => by rw [Expr.yield]; exact .ofPrimary (.literal rfl)
  | .float _ _ => by rw [Expr.yield]; exact .ofPrimary (.literal rfl)
  | .string _ _ => by rw [Expr.yield]; exact .ofPrimary (.literal rfl)
  | .bool _ _ => by rw [Expr.yield]; exact .ofPrimary (.literal rfl)
  | .var name _ => by rw [Expr.yield]; exact .ofPrimary (.name name)
  | .member record field _ => by rw [Expr.yield]; exact .ofPrimary (.member record field)
  | .unary sign operand _ => by
    rw [Expr.yield]
    exact .sign_cons sign.isSign_kind operand.derives_yield
  | .binary op left right _ => by
    rw [Expr.yield]
    exact left.derives_yield.join op.isInfix_kind right.derives_yield
  | .chain first links _ => by
    rw [Expr.yield]
    exact Expr.derives_yieldLinks links first.derives_yield
  | .and left right _ => by
    rw [Expr.yield]
    exact left.derives_yield.join rfl right.derives_yield
  | .or left right _ => by
    rw [Expr.yield]
    exact left.derives_yield.join rfl right.derives_yield
  | .group inner _ => by
    rw [Expr.yield]
    exact .ofPrimary (.group inner.derives_yield)
  | .call function arguments _ => by
    rw [Expr.yield]
    by_cases empty : arguments = []
    · rw [empty, Expr.yieldArguments]
      exact .ofPrimary (.emptyCall function)
    · exact .ofPrimary (.call function (Expr.derives_yieldArguments arguments empty))

/-- An expression goes on with the links of a chain. -/
theorem Expr.derives_yieldLinks : (links : List (Comparison × Expr)) →
    ∀ {tokens : List TokenKind}, Derives .expression tokens →
      Derives .expression (tokens ++ Expr.yieldLinks links)
  | [], _, first => by
    rw [Expr.yieldLinks, List.append_nil]
    exact first
  | (_, operand) :: rest, _, first => by
    rw [Expr.yieldLinks]
    exact first.join rfl (Expr.derives_yieldLinks rest operand.derives_yield)

/-- One argument or more are arguments. -/
theorem Expr.derives_yieldArguments : (values : List Expr) → values ≠ [] →
    Derives .arguments (Expr.yieldArguments values)
  | [], filled => absurd rfl filled
  | [last], _ => by
    rw [Expr.yieldArguments]
    exact .lastArgument last.derives_yield
  | first :: second :: rest, _ => by
    rw [Expr.yieldArguments]
    exact .moreArguments first.derives_yield
      (Expr.derives_yieldArguments (second :: rest) (List.cons_ne_nil second rest))

end

/-! ### What a reading leaves -/

/-- Tokens that may go on after an operand: none, or an operator and another expression. -/
inductive Continues : List TokenKind → Prop
  | nothing : Continues []
  | operator {kind : TokenKind} {rest : List TokenKind} (joins : kind.isInfix = true)
      (others : Derives .expression rest) : Continues (kind :: rest)

/-- Tokens that end an expression: none, or a first one that closes it or separates it from the
next. -/
def Closes (kinds : List TokenKind) : Prop :=
  ∀ kind, kinds.head? = some kind → kind = .symbol .rightParen ∨ kind = .symbol .comma

/-- An expression starts with a sign in front of an expression, or with a primary after which it
may go on. -/
theorem Derives.expression_cases {tokens : List TokenKind} (sentence : Derives .expression tokens) :
    (∃ kind rest, tokens = kind :: rest ∧ kind.isSign = true ∧ Derives .expression rest) ∨
      ∃ primary rest, tokens = primary ++ rest ∧ Derives .primary primary ∧ Continues rest := by
  cases sentence with
  | alone first =>
    cases first with
    | plain inner => exact .inr ⟨_, [], (List.append_nil _).symm, inner, .nothing⟩
    | signed sign inner => exact .inl ⟨_, _, rfl, sign, .alone inner⟩
  | joined first joins others =>
    cases first with
    | plain inner => exact .inr ⟨_, _, rfl, inner, .operator joins others⟩
    | signed sign inner => exact .inl ⟨_, _, rfl, sign, .joined inner joins others⟩

theorem TokenKind.exists_sign {kind : TokenKind} (sign : kind.isSign = true) :
    ∃ mark : Sign, kind = mark.kind := by
  unfold TokenKind.isSign at sign
  split at sign
  · exact ⟨.negate, rfl⟩
  · exact ⟨.plus, rfl⟩
  · exact ⟨.not, rfl⟩
  · cases sign

theorem TokenKind.exists_operator {kind : TokenKind} (joins : kind.isInfix = true) :
    ∃ operator : Operator, kind = operator.kind := by
  unfold TokenKind.isInfix at joins
  split at joins
  · exact ⟨.or, rfl⟩
  · exact ⟨.and, rfl⟩
  · exact ⟨.comparison _, rfl⟩
  · exact ⟨.arithmetic _, rfl⟩
  · cases joins

theorem Continues.cases_tokens {tokens : List Token} (continues : Continues (kindsOf tokens)) :
    tokens = [] ∨ ∃ (operator : Operator) (span : Span) (others : List Token),
      tokens = ⟨operator.kind, span⟩ :: others ∧ Derives .expression (kindsOf others) := by
  generalize same : kindsOf tokens = kinds at continues
  cases continues with
  | nothing => exact .inl (List.map_eq_nil_iff.mp same)
  | operator joins sentence =>
    obtain ⟨operator, rfl⟩ := TokenKind.exists_operator joins
    obtain ⟨span, others, rfl, rfl⟩ := kindsOf_eq_cons same
    exact .inr ⟨operator, span, others, rfl, sentence⟩

theorem Operator.rank_pos (operator : Operator) : 0 < operator.level.rank := by
  cases operator.level <;> decide

/-- At the loosest level nothing is left of an expression. -/
theorem Continues.eq_nil_of_stops {tokens : List Token} (continues : Continues (kindsOf tokens))
    (stops : Stops .or (kindsOf tokens)) : tokens = [] := by
  rcases continues.cases_tokens with empty | ⟨operator, span, others, rfl, -⟩
  · exact empty
  · have loose : operator.level.rank < 1 := stops operator rfl
    have positive := operator.rank_pos
    omega

theorem Closes.nil : Closes [] := nofun

theorem Closes.rightParen (kinds : List TokenKind) : Closes (.symbol .rightParen :: kinds) := by
  rintro _ ⟨⟩
  exact .inl rfl

theorem Closes.comma (kinds : List TokenKind) : Closes (.symbol .comma :: kinds) := by
  rintro _ ⟨⟩
  exact .inr rfl

theorem Closes.stops {kinds : List TokenKind} (closes : Closes kinds) (level : Level) :
    Stops level kinds := by
  intro operator head
  rcases closes _ head with paren | comma
  · cases operator <;> cases paren
  · cases operator <;> cases comma

theorem Closes.separates {kinds : List TokenKind} (closes : Closes kinds) : Separates kinds := by
  constructor
  · intro head
    rcases closes _ head with same | same <;> cases same
  · intro head
    rcases closes _ head with same | same <;> cases same

theorem Continues.separates {tokens rest : List Token} (continues : Continues (kindsOf tokens))
    (closes : Closes (kindsOf rest)) : Separates (kindsOf (tokens ++ rest)) := by
  rcases continues.cases_tokens with rfl | ⟨operator, span, others, rfl, -⟩
  · exact closes.separates
  · exact .operator operator _

/-! ### The parser accepts the flat language -/

/-- A reader accepts expressions of fewer than `bound` tokens, what stands after them included. It
may leave a part of the expression, but only one that goes on with an operator too loose for the
level. -/
def Reader.Accepts (read : Reader) (bound : Nat) : Prop :=
  ∀ (level : Level) (tokens rest : List Token), tokens.length + rest.length < bound →
    Derives .expression (kindsOf tokens) → Closes (kindsOf rest) →
    ∃ expr left, read level (tokens ++ rest) = .ok (expr, left ++ rest) ∧
      Continues (kindsOf left) ∧ left.length ≤ tokens.length ∧ Stops level (kindsOf left)

namespace Reader.Accepts

variable {read : Reader} {bound : Nat} (accepts : read.Accepts bound) (stop : Span)

include accepts

/-- At the loosest level an expression is read to its end. -/
theorem whole (tokens rest : List Token) (fits : tokens.length + rest.length < bound)
    (sentence : Derives .expression (kindsOf tokens)) (closes : Closes (kindsOf rest)) :
    ∃ expr, read .or (tokens ++ rest) = .ok (expr, rest) := by
  obtain ⟨expr, left, taken, continues, -, stops⟩ := accepts .or tokens rest fits sentence closes
  obtain rfl := continues.eq_nil_of_stops stops
  exact ⟨expr, taken⟩

theorem chainLinks (more : Nat) (tokens rest : List Token)
    (fits : tokens.length + rest.length ≤ bound) (continues : Continues (kindsOf tokens))
    (closes : Closes (kindsOf rest)) :
    ∃ links left, chainLinks read more (tokens ++ rest) = .ok (links, left ++ rest) ∧
      Continues (kindsOf left) ∧ left.length ≤ tokens.length := by
  induction more generalizing tokens with
  | zero => exact ⟨[], tokens, rfl, continues, Nat.le_refl _⟩
  | succ more inductionHypothesis =>
    rw [LineScript.chainLinks]
    cases next : nextComparison? (tokens ++ rest) with
    | none => exact ⟨[], tokens, rfl, continues, Nat.le_refl _⟩
    | some found =>
      obtain ⟨comparison, after⟩ := found
      rcases continues.cases_tokens with rfl | ⟨operator, span, others, rfl, sentence⟩
      · rcases closes _ (congrArg List.head? (nextComparison?_eq_some next)) with same | same <;>
          cases same
      · have rest_eq : after = others ++ rest := by
          cases operator <;> cases next
          rfl
        subst rest_eq
        have shorter : others.length + rest.length < bound := by
          simp only [List.length_cons] at fits
          omega
        obtain ⟨operand, left, taken, goesOn, fewer, -⟩ :=
          accepts .term others rest shorter sentence closes
        obtain ⟨links, last, readLinks, lastGoesOn, lastFewer⟩ :=
          inductionHypothesis left (by omega) goesOn
        refine ⟨(comparison, operand) :: links, last, ?_, lastGoesOn, ?_⟩
        · simp only [taken, readLinks]
        · simp only [List.length_cons]
          omega

theorem rightOperand (left : Expr) (operator : Operator) (tokens rest : List Token)
    (fits : tokens.length + rest.length < bound) (sentence : Derives .expression (kindsOf tokens))
    (closes : Closes (kindsOf rest)) :
    ∃ expr last, rightOperand read left operator (tokens ++ rest) = .ok (expr, last ++ rest) ∧
      Continues (kindsOf last) ∧ last.length ≤ tokens.length := by
  obtain ⟨right, after, taken, goesOn, fewer, -⟩ :=
    accepts operator.rightLevel tokens rest fits sentence closes
  unfold LineScript.rightOperand
  simp only [taken]
  cases operator with
  | or => exact ⟨_, after, rfl, goesOn, fewer⟩
  | and => exact ⟨_, after, rfl, goesOn, fewer⟩
  | arithmetic operation => exact ⟨_, after, rfl, goesOn, fewer⟩
  | comparison comparison =>
    obtain ⟨links, last, readLinks, lastGoesOn, lastFewer⟩ :=
      accepts.chainLinks (after ++ rest).length after rest (by omega) goesOn closes
    refine ⟨compared left comparison right links, last, ?_, lastGoesOn, by omega⟩
    simp only [readLinks]

theorem operators (level : Level) (more : Nat) (left : Expr) (tokens rest : List Token)
    (fits : tokens.length + rest.length ≤ bound) (enough : tokens.length ≤ more)
    (continues : Continues (kindsOf tokens)) (closes : Closes (kindsOf rest)) :
    ∃ expr last, operators read level more left (tokens ++ rest) = .ok (expr, last ++ rest) ∧
      Continues (kindsOf last) ∧ last.length ≤ tokens.length ∧ Stops level (kindsOf last) := by
  induction more generalizing left tokens with
  | zero =>
    obtain rfl : tokens = [] := List.length_eq_zero_iff.mp (Nat.le_zero.mp enough)
    exact ⟨left, [], rfl, .nothing, Nat.le_refl _, nofun⟩
  | succ more inductionHypothesis =>
    rcases continues.cases_tokens with rfl | ⟨operator, span, others, rfl, sentence⟩
    · exact ⟨left, [], operators_of_stops (closes.stops level) read (more + 1) left, .nothing,
        Nat.le_refl _, nofun⟩
    · simp only [List.length_cons] at fits enough
      -- An operator that is too loose stays in what is left, with all that follows.
      by_cases loose : operator.level.rank < level.rank
      · have stops : ∀ more, Stops level (kindsOf (⟨operator.kind, span⟩ :: more)) :=
          fun more => .cons loose (kindsOf more)
        exact ⟨left, ⟨operator.kind, span⟩ :: others,
          operators_of_stops (stops (others ++ rest)) read (more + 1) left, continues,
          Nat.le_refl _, stops others⟩
      · obtain ⟨node, after, taken, goesOn, fewer⟩ :=
          accepts.rightOperand left operator others rest (by omega) sentence closes
        obtain ⟨expr, last, readMore, lastGoesOn, lastFewer, stops⟩ :=
          inductionHypothesis node after (by omega) (by omega) goesOn
        refine ⟨expr, last, ?_, lastGoesOn, ?_, stops⟩
        · rw [List.cons_append, operators_cons loose taken, readMore]
        · simp only [List.length_cons]
          omega

/-- Arguments are read up to the closing parenthesis. -/
theorem arguments (more : Nat) (tokens rest : List Token) (span : Span)
    (fits : tokens.length + rest.length + 1 < bound) (enough : tokens.length ≤ more)
    (row : Derives .arguments (kindsOf tokens)) :
    ∃ values, arguments stop read more (tokens ++ ⟨.symbol .rightParen, span⟩ :: rest) =
      .ok (values, ⟨.symbol .rightParen, span⟩ :: rest) := by
  generalize which : Phrase.arguments = phrase at row
  generalize same : kindsOf tokens = kinds at row
  induction row generalizing tokens more with
  | lastArgument value =>
    subst same
    obtain ⟨expr, taken⟩ := accepts.whole tokens (⟨.symbol .rightParen, span⟩ :: rest)
      (by simp only [List.length_cons]; omega) value
      (.rightParen _)
    refine ⟨[expr], ?_⟩
    rw [LineScript.arguments, taken]
    cases more <;> rfl
  | @moreArguments argument others value row _ inductionHypothesis =>
    obtain ⟨front, back, rfl, rfl, sameBack⟩ := kindsOf_eq_append same
    obtain ⟨place, after, rfl, rfl⟩ := kindsOf_eq_cons sameBack
    simp only [List.length_append, List.length_cons] at fits enough
    obtain ⟨fuel, rfl⟩ : ∃ fuel, more = fuel + 1 := ⟨more - 1, by omega⟩
    obtain ⟨expr, taken⟩ := accepts.whole front
      (⟨.symbol .comma, place⟩ :: (after ++ ⟨.symbol .rightParen, span⟩ :: rest))
      (by simp only [List.length_append, List.length_cons]; omega) value (.comma _)
    obtain ⟨values, readMore⟩ :=
      inductionHypothesis fuel after (by omega) (by omega) rfl rfl
    refine ⟨expr :: values, ?_⟩
    rw [List.append_assoc, List.cons_append, LineScript.arguments, taken]
    simp only [readMore]
  | _ => cases which

theorem callArguments (tokens rest : List Token) (span : Span)
    (fits : tokens.length + rest.length + 1 < bound) (row : Derives .arguments (kindsOf tokens)) :
    ∃ values, callArguments stop read (tokens ++ ⟨.symbol .rightParen, span⟩ :: rest) =
      .ok ((values, span), rest) := by
  obtain ⟨values, taken⟩ := accepts.arguments stop
    (tokens ++ ⟨.symbol .rightParen, span⟩ :: rest).length tokens rest span fits
    (by rw [List.length_append]; omega) row
  refine ⟨values, ?_⟩
  unfold LineScript.callArguments
  split
  · rename_i place others same
    obtain ⟨kind, others, sameKinds, filled⟩ := row.exists_cons
    obtain ⟨place, after, rfl, -⟩ := kindsOf_eq_cons sameKinds
    cases same
    exact absurd rfl filled
  · simp only [taken, closing_eq_ok.mpr rfl]

/-- A primary is an operand of its own, if what follows does not belong to it. -/
theorem operand_of_primary (tokens rest : List Token) (fits : tokens.length + rest.length ≤ bound)
    (primary : Derives .primary (kindsOf tokens)) (separates : Separates (kindsOf rest)) :
    ∃ expr, operand stop read (tokens ++ rest) = .ok (expr, rest) := by
  generalize same : kindsOf tokens = kinds at primary
  cases primary with
  | @literal kind value =>
    obtain ⟨span, rfl⟩ := kindsOf_eq_singleton same
    cases kind with
    | int n => exact ⟨_, rfl⟩
    | float x => exact ⟨_, rfl⟩
    | string text => exact ⟨_, rfl⟩
    | bool b => exact ⟨_, rfl⟩
    | name name => cases value
    | symbol mark => cases value
  | name name =>
    obtain ⟨span, rfl⟩ := kindsOf_eq_singleton same
    exact ⟨_, named_of_separates separates stop read name span⟩
  | member record field =>
    obtain ⟨span, _, rfl, sameRest⟩ := kindsOf_eq_cons same
    obtain ⟨dot, _, rfl, sameField⟩ := kindsOf_eq_cons sameRest
    obtain ⟨last, rfl⟩ := kindsOf_eq_singleton sameField
    exact ⟨_, rfl⟩
  | emptyCall function =>
    obtain ⟨span, _, rfl, sameRest⟩ := kindsOf_eq_cons same
    obtain ⟨opens, _, rfl, sameLast⟩ := kindsOf_eq_cons sameRest
    obtain ⟨closes, rfl⟩ := kindsOf_eq_singleton sameLast
    exact ⟨_, rfl⟩
  | call function inner =>
    obtain ⟨span, _, rfl, sameRest⟩ := kindsOf_eq_cons same
    obtain ⟨opens, _, rfl, sameInside⟩ := kindsOf_eq_cons sameRest
    obtain ⟨inside, _, rfl, rfl, sameLast⟩ := kindsOf_eq_append sameInside
    obtain ⟨closes, rfl⟩ := kindsOf_eq_singleton sameLast
    simp only [List.length_append, List.length_cons, List.length_nil] at fits
    obtain ⟨values, taken⟩ :=
      accepts.callArguments stop inside rest closes (by omega) inner
    refine ⟨.call function values (span.merge closes), ?_⟩
    simp only [List.cons_append, List.append_assoc, List.nil_append, operand, named, taken]
  | group inner =>
    obtain ⟨opens, _, rfl, sameInside⟩ := kindsOf_eq_cons same
    obtain ⟨inside, _, rfl, rfl, sameLast⟩ := kindsOf_eq_append sameInside
    obtain ⟨closes, rfl⟩ := kindsOf_eq_singleton sameLast
    simp only [List.length_append, List.length_cons, List.length_nil] at fits
    obtain ⟨expr, taken⟩ := accepts.whole inside (⟨.symbol .rightParen, closes⟩ :: rest)
      (by simp only [List.length_cons]; omega) inner
      (.rightParen _)
    refine ⟨.group expr (opens.merge closes), ?_⟩
    simp only [List.cons_append, List.append_assoc, List.nil_append, operand, taken,
      closing_eq_ok.mpr rfl]

/-- An expression starts with an operand, after which it may go on. -/
theorem operand (tokens rest : List Token) (fits : tokens.length + rest.length ≤ bound)
    (sentence : Derives .expression (kindsOf tokens)) (closes : Closes (kindsOf rest)) :
    ∃ expr left, operand stop read (tokens ++ rest) = .ok (expr, left ++ rest) ∧
      Continues (kindsOf left) ∧ left.length ≤ tokens.length := by
  rcases sentence.expression_cases with ⟨kind, others, same, sign, inner⟩ |
    ⟨primary, others, same, inner, continues⟩
  · obtain ⟨span, after, rfl, rfl⟩ := kindsOf_eq_cons same
    obtain ⟨mark, rfl⟩ := TokenKind.exists_sign sign
    rw [List.length_cons] at fits
    obtain ⟨expr, left, taken, goesOn, fewer, -⟩ :=
      accepts mark.level after rest (by omega) inner closes
    refine ⟨.unary mark expr (span.merge expr.span), left, ?_, goesOn, ?_⟩
    · rw [List.cons_append, operand_cons_sign, signedOperand, taken]
    · rw [List.length_cons]
      omega
  · obtain ⟨front, back, rfl, rfl, rfl⟩ := kindsOf_eq_append same
    rw [List.length_append] at fits
    obtain ⟨expr, taken⟩ := accepts.operand_of_primary stop front (back ++ rest)
      (by rw [List.length_append]; omega) inner (continues.separates closes)
    refine ⟨expr, back, ?_, continues, by rw [List.length_append]; omega⟩
    rw [List.append_assoc, taken]

end Reader.Accepts

/-- The parser accepts every expression of the flat language whose tokens its depth exceeds. -/
theorem accepts_expressionAt (stop : Span) (depth : Nat) :
    (expressionAt stop depth).Accepts depth := by
  induction depth with
  | zero => exact fun _ _ _ fits => absurd fits (Nat.not_lt_zero _)
  | succ depth inductionHypothesis =>
    intro level tokens rest fits sentence closes
    obtain ⟨left, after, taken, continues, fewer⟩ :=
      inductionHypothesis.operand stop tokens rest (by omega) sentence closes
    obtain ⟨expr, last, readMore, lastContinues, lastFewer, stops⟩ :=
      inductionHypothesis.operators level (after ++ rest).length left after rest (by omega)
        (by rw [List.length_append]; omega) continues closes
    refine ⟨expr, last, ?_, lastContinues, by omega, stops⟩
    simp only [expressionAt, taken, readMore]

/-- Parsing succeeds exactly on the expressions of the flat language, and the tree it gives has
the tokens that were parsed, each once and in their order. -/
theorem parse_iff_derives (stream : TokenStream) :
    ((∃ expr, stream.parse = .ok expr) ↔ Derives .expression (kindsOf stream.tokens)) ∧
      ∀ expr, stream.parse = .ok expr → expr.yield = kindsOf stream.tokens := by
  refine ⟨⟨?_, ?_⟩, fun expr => yield_of_parse⟩
  · rintro ⟨expr, parsed⟩
    rw [← yield_of_parse parsed]
    exact expr.derives_yield
  · intro sentence
    obtain ⟨expr, taken⟩ := (accepts_expressionAt stream.stop (stream.tokens.length + 1)).whole
      stream.tokens [] (Nat.lt_succ_self _) sentence .nil
    refine ⟨expr, ?_⟩
    rw [List.append_nil] at taken
    unfold TokenStream.parse
    rw [taken]

/-- The tokens of `2 ** not x < 1 and f(-b.c, y)`, where a sign of a loose level stands in the
exponent of a power. -/
def looseExponent : TokenStream where
  tokens := [.int 2, .symbol (.arithmetic .power), .symbol .not, .name "x",
    .symbol (.comparison .less), .int 1, .symbol .and, .name "f", .symbol .leftParen,
    .symbol (.arithmetic .subtract), .name "b", .symbol .dot, .name "c", .symbol .comma, .name "y",
    .symbol .rightParen].map fun kind => ⟨kind, ⟨0, 0, 1, 1⟩⟩
  stop := ⟨0, 0, 1, 1⟩

theorem parse_looseExponent :
    Derives .expression (kindsOf looseExponent.tokens) ∧
      ∃ expr, looseExponent.parse = .ok expr ∧ expr.yield = kindsOf looseExponent.tokens := by
  have parsed : ∃ expr, looseExponent.parse = .ok expr := ⟨_, rfl⟩
  obtain ⟨expr, same⟩ := parsed
  obtain ⟨accepts, yields⟩ := parse_iff_derives looseExponent
  exact ⟨accepts.mp ⟨expr, same⟩, expr, same, yields expr same⟩

end LineScript
