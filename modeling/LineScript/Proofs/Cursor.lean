/-
This file reads expressions with a cursor. The tokens stand in rows with the end in the last one,
and reading moves a cursor over them: it looks at the row it stands at, goes on by one row, but
never past the end, and looks back by one row. Each look at a row is checked, and so is all else
that could go wrong: a token taken for an operator that no rule reads, readings that nest deeper
than they are allowed to, and a loop that takes more turns than there are rows. What then happens is
a mishap of its own, apart from the refusal of tokens that are no expression.

From every position the cursor comes to the same expression or refusal as the reading of the tokens
ahead, and to the position where that reading ends. So no mishap happens, if readings may nest as
deep as there are rows ahead. The reason is progress, which `Follows` carries from step to step: the
cursor ends at a later position than it started from, and still at a row.
-/

import LineScript.Proofs.Derivation
import LineScript.Proofs.Monad

namespace LineScript

/-! ### Rows -/

/-- What a cursor can stand at: a token, or the end, which is of no kind. -/
structure Row where
  kind? : Option TokenKind
  span : Span

/-- The rows of an expression: its tokens, and the end. -/
def TokenStream.rows (stream : TokenStream) : List Row :=
  stream.tokens.map (fun token => ⟨some token.kind, token.span⟩) ++ [⟨none, stream.stop⟩]

/-- How tightly a token binds as an operator, and zero if it is none. -/
def TokenKind.tightness : TokenKind → Nat
  | .symbol .or => 1
  | .symbol .and => 2
  | .symbol (.comparison _) => 4
  | .symbol (.arithmetic .add) => 5
  | .symbol (.arithmetic .subtract) => 5
  | .symbol (.arithmetic .multiply) => 6
  | .symbol (.arithmetic .divide) => 6
  | .symbol (.arithmetic .floorDivide) => 6
  | .symbol (.arithmetic .modulo) => 6
  | .symbol (.arithmetic .power) => 8
  | _ => 0

def Row.tightness (row : Row) : Nat :=
  (row.kind?.map TokenKind.tightness).getD 0

/-- The comparison that a row is. -/
def Row.comparison? (row : Row) : Option Comparison :=
  match row.kind? with
  | some (.symbol (.comparison relation)) => some relation
  | _ => none

theorem Row.tightness_of_operator {row : Row} {operator : Operator}
    (kind : row.kind? = some operator.kind) : row.tightness = operator.level.rank := by
  rw [Row.tightness, kind]
  cases operator with
  | arithmetic operation => cases operation <;> rfl
  | _ => rfl

/-- A row that binds is an operator, for which there is a rule. -/
theorem Row.exists_operator (row : Row) (binds : row.tightness ≠ 0) :
    ∃ operator : Operator, row.kind? = some operator.kind := by
  obtain ⟨kind?, span⟩ := row
  cases kind? with
  | none => exact absurd rfl binds
  | some kind =>
    cases found : kind.operator? with
    | some operator => exact ⟨operator, congrArg some (operator?_eq_some_iff.mp found)⟩
    | none =>
      refine absurd ?_ binds
      cases kind with
      | symbol symbol => cases symbol <;> first | rfl | cases found
      | _ => rfl

/-! ### The cursor -/

/-- What can stop a cursor. Only a refusal is about the expression. -/
inductive Mishap where
  | refused (error : ExprError)
  | outOfRange (index : Nat)
  | noOperator (row : Row)
  | tooDeep
  | unfinished

/-- A walk of the cursor, whose state is its position. -/
abbrev Cursor := EStateM Mishap Nat

namespace TokenStream

section

variable (stream : TokenStream)

/-- Looks at a row. -/
def rowAt (index : Nat) : Cursor Row :=
  match stream.rows[index]? with
  | some row => pure row
  | none => throw (.outOfRange index)

/-- Looks at the row of the cursor. -/
def peek : Cursor Row := do
  stream.rowAt (min (← get) (stream.rows.length - 1))

def atEnd : Cursor Bool := do
  return (← stream.peek).kind?.isNone

/-- Takes the row of the cursor. The end can be taken again and again. -/
def advance : Cursor Row := do
  if ← stream.atEnd then stream.peek
  else
    set ((← get) + 1)
    stream.rowAt ((← get) - 1)

/-- The region of the row that was taken last. -/
def previousSpan : Cursor Span := do
  return (← stream.rowAt ((← get) - 1)).span

/-- Whether the cursor stands at a symbol. -/
def check (symbol : Symbol) : Cursor Bool := do
  if ← stream.atEnd then return false
  else return decide ((← stream.peek).kind? = some (.symbol symbol))

/-- Takes a symbol, if the cursor stands at it. -/
def takeIf (symbol : Symbol) : Cursor Bool := do
  if ← stream.check symbol then
    let _ ← stream.advance
    return true
  else return false

/-- Takes the closing parenthesis, whose region is the result. -/
def takeClosing : Cursor Span := do
  if ← stream.check .rightParen then
    let _ ← stream.advance
    stream.previousSpan
  else
    let row ← stream.peek
    if ← stream.atEnd then throw (.refused (.unexpectedEnd row.span))
    else throw (.refused (.unexpectedToken .closingParen row.kind? row.span))

/-- Takes the name of a field. -/
def takeName : Cursor String := do
  let row ← stream.peek
  match row.kind? with
  | some (.name name) =>
    let _ ← stream.advance
    return name
  | found => throw (.refused (.unexpectedToken .fieldName found row.span))

/-! ### Climbing -/

/-- Takes one or more expressions with commas between them, in at most `more` turns. -/
def takeArguments (climb : Nat → Cursor Expr) : (more : Nat) → Cursor (List Expr)
  | 0 => throw .unfinished
  | more + 1 => do
    let first ← climb 1
    if ← stream.takeIf .comma then
      let others ← takeArguments climb more
      return first :: others
    else return [first]

/-- Takes the arguments of a call and its closing parenthesis, whose region is part of the
result. -/
def takeCall (climb : Nat → Cursor Expr) : Cursor (List Expr × Span) := do
  if ← stream.check .rightParen then
    let last ← stream.takeClosing
    return ([], last)
  else
    let values ← stream.takeArguments climb stream.rows.length
    let last ← stream.takeClosing
    return (values, last)

/-- Takes the field of a record, after the point. -/
def takeMember (name : String) (span : Span) : Cursor Expr := do
  let field ← stream.takeName
  let last ← stream.previousSpan
  return .member name field (span.merge last)

/-- Takes what may follow a name. -/
def takeNamed (climb : Nat → Cursor Expr) (name : String) (span : Span) : Cursor Expr := do
  if ← stream.takeIf .leftParen then
    let call ← stream.takeCall climb
    return .call name call.1 (span.merge call.2)
  else if ← stream.takeIf .dot then stream.takeMember name span
  else return .var name span

/-- Takes an operand after its sign. -/
def takeSigned (climb : Nat → Cursor Expr) (sign : Sign) (minimum : Nat) (span : Span) :
    Cursor Expr := do
  let operand ← climb minimum
  return .unary sign operand (span.merge operand.span)

/-- Takes an operand. -/
def takeOperand (climb : Nat → Cursor Expr) : Cursor Expr := do
  let row ← stream.advance
  match row.kind? with
  | none => throw (.refused (.unexpectedEnd row.span))
  | some (.int n) => return .int n row.span
  | some (.float x) => return .float x row.span
  | some (.string text) => return .string text row.span
  | some (.bool b) => return .bool b row.span
  | some (.name name) => stream.takeNamed climb name row.span
  | some (.symbol .leftParen) =>
    let inner ← climb 1
    let last ← stream.takeClosing
    return .group inner (row.span.merge last)
  | some (.symbol (.arithmetic .subtract)) => takeSigned climb .negate 7 row.span
  | some (.symbol (.arithmetic .add)) => takeSigned climb .plus 7 row.span
  | some (.symbol .not) => takeSigned climb .not 3 row.span
  | found => throw (.refused (.unexpectedToken .expression found row.span))

/-- Takes the further links of a chain of comparisons, in at most `more` turns. -/
def takeLinks (climb : Nat → Cursor Expr) (minimum : Nat) :
    (more : Nat) → Cursor (List (Comparison × Expr))
  | 0 => throw .unfinished
  | more + 1 => do
    match (← stream.peek).comparison? with
    | none => return []
    | some relation =>
      let _ ← stream.advance
      let operand ← climb minimum
      let links ← takeLinks climb minimum more
      return (relation, operand) :: links

/-- Takes an operator of a known tightness and its right operand. A token that no rule reads as an
operator is a mishap. -/
def takeOperator (climb : Nat → Cursor Expr) (left : Expr) (tightness : Nat) : Cursor Expr := do
  let row ← stream.advance
  match row.kind? with
  | some (.symbol (.comparison relation)) =>
    let right ← climb (tightness + 1)
    let links ← stream.takeLinks climb (tightness + 1) stream.rows.length
    return compared left relation right links
  | some (.symbol (.arithmetic .power)) =>
    let right ← climb 7
    return .binary (.arithmetic .power) left right (left.span.merge right.span)
  | some (.symbol (.arithmetic operation)) =>
    let right ← climb (tightness + 1)
    return .binary (.arithmetic operation) left right (left.span.merge right.span)
  | some (.symbol .and) =>
    let right ← climb (tightness + 1)
    return .and left right (left.span.merge right.span)
  | some (.symbol .or) =>
    let right ← climb (tightness + 1)
    return .or left right (left.span.merge right.span)
  | _ => throw (.noOperator row)

/-- Takes operators that bind at least as tightly as the minimum, in at most `more` turns. -/
def takeOperators (climb : Nat → Cursor Expr) (minimum : Nat) : (more : Nat) → Expr → Cursor Expr
  | 0, _ => throw .unfinished
  | more + 1, left => do
    if ← stream.atEnd then return left
    else
      let tightness := (← stream.peek).tightness
      if tightness = 0 ∨ tightness < minimum then return left
      else
        let wider ← stream.takeOperator climb left tightness
        takeOperators climb minimum more wider

/-- Takes an expression of operators that bind at least as tightly as the minimum. Climbs nest at
most `depth` deep. -/
def climb : (depth : Nat) → (minimum : Nat) → Cursor Expr
  | 0, _ => throw .tooDeep
  | depth + 1, minimum => do
    let left ← stream.takeOperand (climb depth)
    stream.takeOperators (climb depth) minimum stream.rows.length left

end

/-! ### Single moves -/

theorem branch_true {α : Type} {test : Cursor Bool} {yes no : Cursor α} {position next : Nat}
    (tested : test position = .ok true next) :
    (test >>= fun passed => if passed then yes else no) position = yes next := by
  rw [bind_apply, tested]
  rfl

theorem branch_false {α : Type} {test : Cursor Bool} {yes no : Cursor α} {position next : Nat}
    (tested : test position = .ok false next) :
    (test >>= fun passed => if passed then yes else no) position = no next := by
  rw [bind_apply, tested]
  rfl

theorem length_rows (stream : TokenStream) : stream.rows.length = stream.tokens.length + 1 := by
  rw [rows, List.length_append, List.length_map, List.length_singleton]

section

variable {stream : TokenStream} {position : Nat}

theorem row_of_nil (inRange : position ≤ stream.tokens.length)
    (ahead : stream.tokens.drop position = []) :
    stream.rows[position]? = some ⟨none, stream.stop⟩ := by
  have last : position = stream.tokens.length :=
    Nat.le_antisymm inRange (List.drop_eq_nil_iff.mp ahead)
  rw [rows, last, List.getElem?_append_right (by simp)]
  simp

theorem row_of_cons {token : Token} {rest : List Token}
    (ahead : stream.tokens.drop position = token :: rest) :
    stream.rows[position]? = some ⟨some token.kind, token.span⟩ := by
  have here : stream.tokens[position]? = some token := by
    rw [← Nat.add_zero position, ← List.getElem?_drop, ahead]
    rfl
  have inRange := (List.getElem?_eq_some_iff.mp here).1
  rw [rows, List.getElem?_append_left (by simpa using inRange), List.getElem?_map, here]
  rfl

theorem rest_of_cons {token : Token} {rest : List Token}
    (ahead : stream.tokens.drop position = token :: rest) :
    position + 1 ≤ stream.tokens.length ∧ rest = stream.tokens.drop (position + 1) := by
  constructor
  · refine Nat.lt_of_not_le fun beyond => ?_
    rw [List.drop_eq_nil_of_le beyond] at ahead
    cases ahead
  · rw [← List.tail_drop, ahead, List.tail_cons]

/-- The cursor stands at the token that is next, or at the end if none is left. -/
theorem exists_row (inRange : position ≤ stream.tokens.length) :
    ∃ row, stream.rows[position]? = some row ∧
      row.kind? = (kindsOf (stream.tokens.drop position)).head? := by
  cases ahead : stream.tokens.drop position with
  | nil => exact ⟨_, row_of_nil inRange ahead, rfl⟩
  | cons token rest => exact ⟨_, row_of_cons ahead, rfl⟩

theorem exists_row_comparison (inRange : position ≤ stream.tokens.length) :
    ∃ row, stream.rows[position]? = some row ∧
      row.comparison? = (nextComparison? (stream.tokens.drop position)).map Prod.fst := by
  cases ahead : stream.tokens.drop position with
  | nil => exact ⟨_, row_of_nil inRange ahead, rfl⟩
  | cons token rest =>
    refine ⟨_, row_of_cons ahead, ?_⟩
    obtain ⟨kind, span⟩ := token
    cases kind with
    | symbol symbol => cases symbol <;> rfl
    | _ => rfl

/-- The next token is of a kind. -/
theorem ahead_of_head {kind : TokenKind}
    (head : (kindsOf (stream.tokens.drop position)).head? = some kind) :
    ∃ span, stream.tokens.drop position = ⟨kind, span⟩ :: stream.tokens.drop (position + 1) ∧
      position + 1 ≤ stream.tokens.length ∧
      stream.rows[position]? = some ⟨some kind, span⟩ := by
  obtain ⟨kinds, same⟩ := List.head?_eq_some_iff.mp head
  obtain ⟨span, others, ahead, -⟩ := kindsOf_eq_cons same
  obtain ⟨inside, rfl⟩ := rest_of_cons ahead
  exact ⟨span, ahead, inside, row_of_cons ahead⟩

section

variable {row : Row} (here : stream.rows[position]? = some row)

include here

theorem rowAt_apply (other : Nat) : stream.rowAt position other = .ok row other := by
  rw [rowAt, here]
  rfl

theorem peek_apply : stream.peek position = .ok row position := by
  have inRange := (List.getElem?_eq_some_iff.mp here).1
  rw [peek, bind_apply, get_apply]
  simp only [Nat.min_eq_left (Nat.le_sub_one_of_lt inRange)]
  exact rowAt_apply here position

theorem atEnd_apply : stream.atEnd position = .ok row.kind?.isNone position := by
  rw [atEnd, bind_apply, peek_apply here]
  rfl

theorem advance_at_end (ends : row.kind? = none) : stream.advance position = .ok row position := by
  rw [advance, branch_true (by rw [atEnd_apply here, ends]; rfl)]
  exact peek_apply here

theorem advance_at_token {kind : TokenKind} (isToken : row.kind? = some kind) :
    stream.advance position = .ok row (position + 1) := by
  rw [advance, branch_false (by rw [atEnd_apply here, isToken]; rfl)]
  exact rowAt_apply here (position + 1)

theorem previousSpan_apply : stream.previousSpan (position + 1) = .ok row.span (position + 1) := by
  rw [previousSpan, bind_apply, get_apply]
  simp only [Nat.add_sub_cancel]
  rw [bind_apply, rowAt_apply here]
  rfl

end

variable {symbol : Symbol}

theorem check_found
    (found : (kindsOf (stream.tokens.drop position)).head? = some (.symbol symbol)) :
    stream.check symbol position = .ok true position := by
  obtain ⟨span, -, -, here⟩ := ahead_of_head found
  rw [check, branch_false (atEnd_apply here), bind_apply, peek_apply here]
  simp only [decide_true]
  rfl

theorem check_missing (inRange : position ≤ stream.tokens.length)
    (missing : (kindsOf (stream.tokens.drop position)).head? ≠ some (.symbol symbol)) :
    stream.check symbol position = .ok false position := by
  obtain ⟨row, here, same⟩ := exists_row inRange
  rw [← same] at missing
  cases kind : row.kind? with
  | none =>
    rw [check, branch_true (by rw [atEnd_apply here, kind]; rfl)]
    rfl
  | some other =>
    rw [check, branch_false (by rw [atEnd_apply here, kind]; rfl), bind_apply, peek_apply here]
    simp only [missing, decide_false]
    rfl

theorem takeIf_found
    (found : (kindsOf (stream.tokens.drop position)).head? = some (.symbol symbol)) :
    stream.takeIf symbol position = .ok true (position + 1) := by
  obtain ⟨span, -, -, here⟩ := ahead_of_head found
  rw [takeIf, branch_true (check_found found), bind_apply, advance_at_token here rfl]
  rfl

theorem takeIf_missing (inRange : position ≤ stream.tokens.length)
    (missing : (kindsOf (stream.tokens.drop position)).head? ≠ some (.symbol symbol)) :
    stream.takeIf symbol position = .ok false position := by
  rw [takeIf, branch_false (check_missing inRange missing)]
  rfl

end

/-! ### The reading of the tokens ahead, step by step -/

section

variable {stop : Span} {read : Reader} {tokens rest : List Token}

theorem arguments_last {first : Expr} {more : Nat} (found : read .or tokens = .ok (first, rest))
    (last : (kindsOf rest).head? ≠ some (.symbol .comma)) :
    arguments stop read more tokens = .ok ([first], rest) := by
  rw [arguments, found]
  simp only
  split
  · exact absurd rfl last
  · rfl

theorem arguments_comma {first : Expr} {span : Span} {more : Nat}
    (found : read .or tokens = .ok (first, ⟨.symbol .comma, span⟩ :: rest)) :
    arguments stop read (more + 1) tokens =
      (arguments stop read more rest).map fun others => (first :: others.1, others.2) := by
  rw [arguments]
  simp only [found]
  cases arguments stop read more rest <;> rfl

theorem callArguments_open (opens : (kindsOf tokens).head? ≠ some (.symbol .rightParen)) :
    callArguments stop read tokens =
      match arguments stop read tokens.length tokens with
      | .error error => .error error
      | .ok (values, rest) =>
        match closing stop rest with
        | .error error => .error error
        | .ok (span, rest) => .ok ((values, span), rest) := by
  unfold callArguments
  split
  · exact absurd rfl opens
  · rfl

end

/-! ### Following a reading of the tokens ahead -/

/-- A walk has come to what a reading has come to: to the same refusal, or to the same value at the
position where the reading ends, which is `least` or a later one. -/
inductive Follows (stream : TokenStream) {α : Type} (least : Nat) :
    EStateM.Result Mishap Nat α → Parsed α → Prop
  | refused (error : ExprError) (last : Nat) :
      Follows stream least (.error (.refused error) last) (.error error)
  | ok (value : α) {next : Nat} (lower : least ≤ next) (upper : next ≤ stream.tokens.length) :
      Follows stream least (.ok value next) (.ok (value, stream.tokens.drop next))

/-- From `low` on a way to climb follows a reader of operands. -/
def Agrees (stream : TokenStream) (low : Nat) (climb : Nat → Cursor Expr) (read : Reader) : Prop :=
  ∀ level position, low ≤ position → position ≤ stream.tokens.length →
    stream.Follows (position + 1) (climb level.rank position)
      (read level (stream.tokens.drop position))

section

variable {stream : TokenStream}

/-- A walk in two parts follows a reading that starts with what the first part follows, and that
fails where this does. -/
theorem Follows.step {α β : Type} {walk : Cursor α} {further : α → Cursor β} {parsed : Parsed α}
    {result : Parsed β} {position least final : Nat}
    (first : stream.Follows least (walk position) parsed)
    (failure : ∀ error, parsed = .error error → result = .error error)
    (second : ∀ value next, least ≤ next → next ≤ stream.tokens.length →
      parsed = .ok (value, stream.tokens.drop next) →
      stream.Follows final (further value next) result) :
    stream.Follows final ((walk >>= further) position) result := by
  rw [bind_apply]
  generalize walk position = walked at first
  cases first with
  | refused error last =>
    rw [failure error rfl]
    exact .refused error last
  | ok value lower upper => exact second value _ lower upper rfl

theorem Follows.mono {α : Type} {walked : EStateM.Result Mishap Nat α} {parsed : Parsed α}
    {least less : Nat} (follows : stream.Follows least walked parsed) (weaker : less ≤ least) :
    stream.Follows less walked parsed := by
  cases follows with
  | refused error last => exact .refused error last
  | ok value lower upper => exact .ok value (Nat.le_trans weaker lower) upper

theorem follows_takeClosing {position : Nat} (inRange : position ≤ stream.tokens.length) :
    stream.Follows (position + 1) (stream.takeClosing position)
      (closing stream.stop (stream.tokens.drop position)) := by
  rw [takeClosing]
  by_cases closes : (kindsOf (stream.tokens.drop position)).head? = some (.symbol .rightParen)
  · obtain ⟨span, ahead, inside, here⟩ := ahead_of_head closes
    rw [branch_true (check_found closes), bind_apply, advance_at_token here rfl, ahead,
      closing_eq_ok.mpr rfl]
    simp only
    rw [previousSpan_apply here]
    exact .ok span (Nat.le_refl _) inside
  · rw [branch_false (check_missing inRange closes), bind_apply]
    cases ahead : stream.tokens.drop position with
    | nil =>
      have here := row_of_nil inRange ahead
      rw [peek_apply here]
      simp only
      rw [branch_true (atEnd_apply here)]
      exact .refused _ _
    | cons token rest =>
      have here := row_of_cons ahead
      rw [peek_apply here, closing, if_neg (by simpa [ahead] using closes)]
      simp only
      rw [branch_false (atEnd_apply here)]
      exact .refused _ _

section

variable {climb : Nat → Cursor Expr} {read : Reader} {low : Nat}
  (agrees : stream.Agrees low climb read)

include agrees

theorem follows_takeArguments {position more bound : Nat} (lower : low ≤ position)
    (inRange : position ≤ stream.tokens.length) (turns : stream.tokens.length < position + more)
    (enough : stream.tokens.length ≤ position + bound) :
    stream.Follows (position + 1) (stream.takeArguments climb more position)
      (arguments stream.stop read bound (stream.tokens.drop position)) := by
  induction more generalizing position bound with
  | zero => omega
  | succ more inductionHypothesis =>
    rw [takeArguments]
    refine (agrees .or position lower inRange).step
      (fun error failed => by rw [arguments, failed]) fun first next later upper found => ?_
    by_cases comma : (kindsOf (stream.tokens.drop next)).head? = some (.symbol .comma)
    · obtain ⟨span, ahead, inside, -⟩ := ahead_of_head comma
      obtain ⟨fuel, rfl⟩ : ∃ fuel, bound = fuel + 1 := ⟨bound - 1, by omega⟩
      have others : stream.Follows (next + 2) (stream.takeArguments climb more (next + 1))
          (arguments stream.stop read fuel (stream.tokens.drop (next + 1))) :=
        inductionHypothesis (by omega) inside (by omega) (by omega)
      rw [branch_true (takeIf_found comma), arguments_comma (ahead ▸ found)]
      refine others.step (fun error failed => by rw [failed]; rfl)
        fun others last after upper found => ?_
      rw [found]
      exact .ok (first :: others) (by omega) upper
    · rw [branch_false (takeIf_missing upper comma), arguments_last found comma]
      exact .ok [first] later upper

theorem follows_takeCall {position : Nat} (lower : low ≤ position)
    (inRange : position ≤ stream.tokens.length) :
    stream.Follows (position + 1) (stream.takeCall climb position)
      (callArguments stream.stop read (stream.tokens.drop position)) := by
  rw [takeCall]
  by_cases closes : (kindsOf (stream.tokens.drop position)).head? = some (.symbol .rightParen)
  · obtain ⟨span, ahead, inside, -⟩ := ahead_of_head closes
    have same : closing stream.stop (stream.tokens.drop position) =
        .ok (span, stream.tokens.drop (position + 1)) := closing_eq_ok.mpr ahead
    rw [branch_true (check_found closes), ahead, callArguments]
    refine (follows_takeClosing inRange).step
      (fun error failed => nomatch same.symm.trans failed) fun last next after upper found => ?_
    obtain ⟨rfl, rest⟩ := Prod.mk.inj (Except.ok.inj (same.symm.trans found))
    rw [rest]
    exact .ok _ after upper
  · rw [branch_false (check_missing inRange closes), callArguments_open closes]
    have rows := stream.length_rows
    have values : stream.Follows (position + 1)
        (stream.takeArguments climb stream.rows.length position)
        (arguments stream.stop read (stream.tokens.drop position).length
          (stream.tokens.drop position)) :=
      follows_takeArguments agrees lower inRange (by omega) (by rw [List.length_drop]; omega)
    refine values.step (fun error failed => by rw [failed]) fun values next later upper found => ?_
    rw [found]
    refine (follows_takeClosing upper).step (fun error failed => by simp only [failed])
      fun last final after upper found => ?_
    simp only [found]
    exact .ok (values, last) (by omega) upper

omit agrees in
/-- A point is followed by the name of a field. -/
theorem follows_takeMember {position : Nat} (name : String) (span dot : Span)
    (inRange : position ≤ stream.tokens.length) :
    stream.Follows (position + 1) (stream.takeMember name span position)
      (named stream.stop read name span (⟨.symbol .dot, dot⟩ :: stream.tokens.drop position)) := by
  rw [takeMember, takeName]
  cases ahead : stream.tokens.drop position with
  | nil =>
    rw [bind_apply, bind_apply, peek_apply (row_of_nil inRange ahead)]
    exact .refused _ _
  | cons token rest =>
    obtain ⟨kind, last⟩ := token
    have here := row_of_cons ahead
    obtain ⟨inside, rfl⟩ := rest_of_cons ahead
    rw [bind_apply, bind_apply, peek_apply here]
    cases kind with
    | name field =>
      simp only
      rw [bind_apply, advance_at_token here rfl]
      simp only [pure_apply]
      rw [bind_apply, previousSpan_apply here]
      exact .ok _ (Nat.le_refl _) inside
    | _ => exact .refused _ _

/-- A name is followed by the arguments of a call, by a point and a field, or by neither. -/
theorem follows_takeNamed {position : Nat} (name : String) (span : Span) (lower : low ≤ position)
    (inRange : position ≤ stream.tokens.length) :
    stream.Follows position (stream.takeNamed climb name span position)
      (named stream.stop read name span (stream.tokens.drop position)) := by
  rw [takeNamed]
  by_cases isCall : (kindsOf (stream.tokens.drop position)).head? = some (.symbol .leftParen)
  · obtain ⟨_, ahead, inside, -⟩ := ahead_of_head isCall
    rw [branch_true (takeIf_found isCall), ahead, named]
    refine (follows_takeCall agrees (by omega) inside).step
      (fun error failed => by rw [failed]) fun call last after upper found => ?_
    rw [found]
    exact .ok _ (by omega) upper
  · rw [branch_false (takeIf_missing inRange isCall)]
    by_cases isMember : (kindsOf (stream.tokens.drop position)).head? = some (.symbol .dot)
    · obtain ⟨_, ahead, inside, -⟩ := ahead_of_head isMember
      rw [branch_true (takeIf_found isMember), ahead]
      exact (follows_takeMember name span _ inside).mono (by omega)
    · rw [branch_false (takeIf_missing inRange isMember), named_of_separates ⟨isCall, isMember⟩]
      exact .ok _ (Nat.le_refl _) inRange

theorem follows_takeSigned {position : Nat} (sign : Sign) (level : Level) (span : Span)
    (lower : low ≤ position) (inRange : position ≤ stream.tokens.length) :
    stream.Follows (position + 1) (takeSigned climb sign level.rank span position)
      (signedOperand read sign level span (stream.tokens.drop position)) := by
  rw [takeSigned]
  refine (agrees level position lower inRange).step
    (fun error failed => by rw [signedOperand, failed]) fun operand last after upper found => ?_
  rw [signedOperand, found]
  exact .ok _ after upper

/-- An operand takes at least the token it starts with. -/
theorem follows_takeOperand {position : Nat} (lower : low ≤ position + 1)
    (inRange : position ≤ stream.tokens.length) :
    stream.Follows (position + 1) (stream.takeOperand climb position)
      (operand stream.stop read (stream.tokens.drop position)) := by
  rw [takeOperand, bind_apply]
  cases ahead : stream.tokens.drop position with
  | nil =>
    rw [advance_at_end (row_of_nil inRange ahead) rfl]
    exact .refused _ _
  | cons token rest =>
    obtain ⟨kind, span⟩ := token
    obtain ⟨inside, rfl⟩ := rest_of_cons ahead
    rw [advance_at_token (row_of_cons ahead) rfl]
    cases kind with
    | name name => exact follows_takeNamed agrees name span lower inside
    | symbol symbol =>
      cases symbol with
      | leftParen =>
        refine (agrees .or (position + 1) lower inside).step
          (fun error failed => by simp only [operand, failed])
          fun inner next later upper found => ?_
        refine (follows_takeClosing upper).step
          (fun error failed => by simp only [operand, found, failed])
          fun last final after upper closes => ?_
        simp only [operand, found, closes]
        exact .ok _ (by omega) upper
      | arithmetic operation =>
        cases operation with
        | add => exact (follows_takeSigned agrees .plus .unary span lower inside).mono (by omega)
        | subtract =>
          exact (follows_takeSigned agrees .negate .unary span lower inside).mono (by omega)
        | _ => exact .refused _ _
      | not => exact (follows_takeSigned agrees .not .not span lower inside).mono (by omega)
      | _ => exact .refused _ _
    | _ => exact .ok _ (Nat.le_refl _) inside

/-- The links of a chain go on as long as the row of the cursor is a comparison. -/
theorem follows_takeLinks {position more bound : Nat} (lower : low ≤ position)
    (inRange : position ≤ stream.tokens.length) (turns : stream.tokens.length < position + more)
    (enough : stream.tokens.length ≤ position + bound) :
    stream.Follows position (stream.takeLinks climb Level.term.rank more position)
      (chainLinks read bound (stream.tokens.drop position)) := by
  induction more generalizing position bound with
  | zero => omega
  | succ more inductionHypothesis =>
    obtain ⟨row, here, same⟩ := exists_row_comparison inRange
    rw [takeLinks, bind_apply, peek_apply here]
    simp only [same]
    cases next : nextComparison? (stream.tokens.drop position) with
    | none =>
      have ends : chainLinks read bound (stream.tokens.drop position) =
          .ok ([], stream.tokens.drop position) := by
        cases bound with
        | zero => rfl
        | succ bound => rw [chainLinks, next]
      rw [ends]
      exact .ok [] (Nat.le_refl _) inRange
    | some found =>
      obtain ⟨relation, rest⟩ := found
      obtain ⟨span, ahead⟩ := nextComparison?_eq_some_iff.mp next
      obtain ⟨inside, rfl⟩ := rest_of_cons ahead
      obtain ⟨fuel, rfl⟩ : ∃ fuel, bound = fuel + 1 := ⟨bound - 1, by omega⟩
      rw [Option.map_some]
      simp only
      rw [bind_apply, advance_at_token (row_of_cons ahead) rfl, chainLinks, next]
      refine (agrees .term (position + 1) (by omega) inside).step
        (fun error failed => by simp only [failed]) fun operand last later upper found => ?_
      have links : stream.Follows last (stream.takeLinks climb Level.term.rank more last)
          (chainLinks read fuel (stream.tokens.drop last)) :=
        inductionHypothesis (by omega) upper (by omega) (by omega)
      refine links.step (fun error failed => by simp only [found, failed])
        fun links final after upper linked => ?_
      simp only [found, linked]
      exact .ok _ (by omega) upper

omit agrees in
/-- An operator that is no comparison makes a node with the operand to its right. -/
theorem takeOperator_plain {position : Nat} {operator : Operator} {span : Span} {rest : List Token}
    (plain : operator.isComparison = false) (left : Expr)
    (ahead : stream.tokens.drop position = ⟨operator.kind, span⟩ :: rest) :
    stream.takeOperator climb left operator.level.rank position =
      (climb operator.rightLevel.rank >>= fun right => pure (operator.node left right))
        (position + 1) := by
  rw [takeOperator, bind_apply, advance_at_token (row_of_cons ahead) rfl]
  cases operator with
  | comparison relation => cases plain
  | or => rfl
  | and => rfl
  | arithmetic operation => cases operation <;> rfl

/-- An operator takes its own token and at least one for its right operand. -/
theorem follows_takeOperator {position : Nat} {operator : Operator} {span : Span} (left : Expr)
    (lower : low ≤ position + 1)
    (ahead : stream.tokens.drop position =
      ⟨operator.kind, span⟩ :: stream.tokens.drop (position + 1)) :
    stream.Follows (position + 2) (stream.takeOperator climb left operator.level.rank position)
      (rightOperand read left operator (stream.tokens.drop (position + 1))) := by
  obtain ⟨inside, -⟩ := rest_of_cons ahead
  have right := agrees operator.rightLevel (position + 1) lower inside
  cases plain : operator.isComparison with
  | false =>
    rw [takeOperator_plain plain left ahead]
    refine right.step (fun error failed => by rw [rightOperand, failed])
      fun right last later upper found => ?_
    rw [rightOperand_plain plain found]
    exact .ok _ later upper
  | true =>
    obtain ⟨relation, rfl⟩ : ∃ relation, operator = .comparison relation := by
      cases operator with
      | comparison relation => exact ⟨relation, rfl⟩
      | _ => cases plain
    rw [takeOperator, bind_apply, advance_at_token (row_of_cons ahead) rfl]
    refine right.step (fun error failed => by rw [rightOperand, failed])
      fun right last later upper found => ?_
    have rows := stream.length_rows
    have links : stream.Follows last
        (stream.takeLinks climb Level.term.rank stream.rows.length last)
        (chainLinks read (stream.tokens.drop last).length (stream.tokens.drop last)) :=
      follows_takeLinks agrees (by omega) upper (by omega) (by rw [List.length_drop]; omega)
    refine links.step (fun error failed => by simp only [rightOperand, found, failed])
      fun links final after upper linked => ?_
    simp only [rightOperand, found, linked]
    exact .ok _ (by omega) upper

omit agrees in
theorem takeOperators_loose {position minimum more : Nat} {row : Row} {left : Expr}
    (here : stream.rows[position]? = some row)
    (loose : row.tightness = 0 ∨ row.tightness < minimum) :
    stream.takeOperators climb minimum (more + 1) left position = .ok left position := by
  rw [takeOperators]
  cases kind : row.kind? with
  | none =>
    rw [branch_true (by rw [atEnd_apply here, kind]; rfl)]
    rfl
  | some token =>
    rw [branch_false (by rw [atEnd_apply here, kind]; rfl), bind_apply, peek_apply here]
    simp only [if_pos loose]
    rfl

omit agrees in
theorem takeOperators_tight {position minimum more : Nat} {row : Row} {left : Expr}
    {kind : TokenKind} (here : stream.rows[position]? = some row) (isToken : row.kind? = some kind)
    (tight : ¬ (row.tightness = 0 ∨ row.tightness < minimum)) :
    stream.takeOperators climb minimum (more + 1) left position =
      (stream.takeOperator climb left row.tightness >>= fun wider =>
        stream.takeOperators climb minimum more wider) position := by
  rw [takeOperators, branch_false (by rw [atEnd_apply here, isToken]; rfl), bind_apply,
    peek_apply here]
  simp only [if_neg tight]

/-- Operators are taken up to the same one, if the minimum and the level leave out the same. -/
theorem follows_takeOperators {position more bound minimum : Nat} {level : Level} (left : Expr)
    (same : ∀ operator : Operator,
      operator.level.rank < minimum ↔ operator.level.rank < level.rank)
    (lower : low ≤ position) (inRange : position ≤ stream.tokens.length)
    (turns : stream.tokens.length < position + more)
    (enough : stream.tokens.length ≤ position + bound) :
    stream.Follows position (stream.takeOperators climb minimum more left position)
      (operators read level bound left (stream.tokens.drop position)) := by
  induction more generalizing position bound left with
  | zero => omega
  | succ more inductionHypothesis =>
    obtain ⟨row, here, head⟩ := exists_row inRange
    by_cases loose : row.tightness = 0 ∨ row.tightness < minimum
    · have stops : Stops level (kindsOf (stream.tokens.drop position)) := by
        intro operator next
        rw [Row.tightness_of_operator (head.trans next)] at loose
        exact (same operator).mp (loose.resolve_left (Nat.ne_of_gt operator.rank_pos))
      rw [takeOperators_loose here loose, operators_of_stops stops]
      exact .ok left (Nat.le_refl _) inRange
    · obtain ⟨operator, kind⟩ := row.exists_operator fun none => loose (.inl none)
      have binds : ¬ operator.level.rank < level.rank := by
        rw [Row.tightness_of_operator kind] at loose
        exact fun below => loose (.inr ((same operator).mpr below))
      obtain ⟨span, ahead, inside, -⟩ := ahead_of_head (head.symm.trans kind)
      obtain ⟨fuel, rfl⟩ : ∃ fuel, bound = fuel + 1 := ⟨bound - 1, by omega⟩
      rw [takeOperators_tight here kind loose, ahead, Row.tightness_of_operator kind]
      refine (follows_takeOperator agrees left (by omega) ahead).step ?_ ?_
      · intro error failed
        rw [operators]
        simp only [operator?_eq_some_iff.mpr rfl, if_neg binds, failed]
      · intro wider next later upper taken
        rw [operators_cons binds taken]
        exact (inductionHypothesis wider (by omega) upper (by omega) (by omega)).mono (by omega)

end

/-! ### Climbs -/

/-- A climb follows the reading of the tokens ahead, if it may nest as deep as there are rows
ahead. -/
theorem follows_climb {depth position minimum : Nat} {level : Level}
    (same : ∀ operator : Operator,
      operator.level.rank < minimum ↔ operator.level.rank < level.rank)
    (inRange : position ≤ stream.tokens.length) (deep : stream.rows.length ≤ position + depth) :
    stream.Follows (position + 1) (stream.climb depth minimum position)
      (expressionAt stream.stop depth level (stream.tokens.drop position)) := by
  have rows := stream.length_rows
  induction depth generalizing position minimum level with
  | zero => omega
  | succ depth inductionHypothesis =>
    -- every climb inside starts behind a token that was taken, so it has one row less ahead
    have agrees : stream.Agrees (position + 1) (stream.climb depth)
        (expressionAt stream.stop depth) := by
      intro level next later upper
      exact inductionHypothesis (fun _ => Iff.rfl) upper (by omega)
    rw [climb]
    refine (follows_takeOperand agrees (Nat.le_refl _) inRange).step
      (fun error failed => by rw [expressionAt, failed]) fun left next later upper found => ?_
    rw [expressionAt, found]
    exact (follows_takeOperators agrees left same later upper (by omega)
      (by rw [List.length_drop]; omega)).mono later

end

end TokenStream

/-- The level of the operators that bind at least as tightly as a minimum. -/
def Level.atLeast : (minimum : Nat) → Level
  | 0 => .or
  | 1 => .or
  | 2 => .and
  | 3 => .not
  | 4 => .comparison
  | 5 => .term
  | 6 => .factor
  | 7 => .unary
  | 8 => .power
  | _ + 9 => .primary

theorem Operator.rank_lt_primary (operator : Operator) :
    operator.level.rank < Level.primary.rank := by
  cases operator with
  | arithmetic operation => cases operation <;> decide
  | _ => exact of_decide_eq_true rfl

theorem Level.rank_lt_atLeast_iff (minimum : Nat) (operator : Operator) :
    operator.level.rank < minimum ↔ operator.level.rank < (Level.atLeast minimum).rank := by
  have positive := operator.rank_pos
  have bounded := operator.rank_lt_primary
  generalize operator.level.rank = rank at positive bounded ⊢
  unfold Level.atLeast
  split <;> simp only [Level.rank] at bounded ⊢ <;> omega

/-- From every position up to the end and for every minimum, a climb that may nest as deep as there
are rows ahead comes to what the reading of the tokens ahead comes to, and to no mishap: it is
refused, or it ends at a later position, by the end at the latest, and at a row that is the end, no
operator, or an operator looser than the minimum. -/
theorem climb_progress (stream : TokenStream) (minimum position depth : Nat)
    (inRange : position ≤ stream.tokens.length)
    (deep : stream.rows.length - position ≤ depth) :
    stream.Follows (position + 1) (stream.climb depth minimum position)
      (expressionAt stream.stop depth (Level.atLeast minimum) (stream.tokens.drop position)) ∧
    ((∃ error last, stream.climb depth minimum position = .error (.refused error) last) ∨
      ∃ expr next row, stream.climb depth minimum position = .ok expr next ∧
        position < next ∧ next ≤ stream.tokens.length ∧ stream.rows[next]? = some row ∧
        (row.kind? = none ∨ row.tightness = 0 ∨ row.tightness < minimum)) := by
  have follows := TokenStream.follows_climb (Level.rank_lt_atLeast_iff minimum) inRange
    (Nat.sub_le_iff_le_add'.mp deep)
  refine ⟨follows, ?_⟩
  generalize parsed : expressionAt stream.stop depth (Level.atLeast minimum)
    (stream.tokens.drop position) = result at follows
  generalize stream.climb depth minimum position = walked at follows ⊢
  cases follows with
  | refused error last => exact .inl ⟨error, last, rfl⟩
  | @ok expr next later upper =>
    obtain ⟨_, -, reads⟩ := traced_expressionAt stream.stop depth parsed
    obtain ⟨row, here, head⟩ := TokenStream.exists_row upper
    refine .inr ⟨expr, next, row, rfl, later, upper, here, .inr ?_⟩
    by_cases binds : row.tightness = 0
    · exact .inl binds
    · obtain ⟨operator, kind⟩ := row.exists_operator binds
      rw [Row.tightness_of_operator kind, Level.rank_lt_atLeast_iff]
      exact .inr (reads.stops operator (head.symm.trans kind))

/-- The operand of the sign in the exponent starts in the middle of the tokens and ends at an
operator that is looser than the sign. -/
theorem climb_looseExponent :
    2 ≤ looseExponent.tokens.length ∧ looseExponent.rows.length - 2 ≤ 15 ∧
      ∃ expr row, looseExponent.climb 15 3 2 = .ok expr 6 ∧ looseExponent.rows[6]? = some row ∧
        row.kind? = some (.symbol .and) ∧
        (row.kind? = none ∨ row.tightness = 0 ∨ row.tightness < 3) := by
  have inRange : 2 ≤ looseExponent.tokens.length := by decide
  have deep : looseExponent.rows.length - 2 ≤ 15 := by decide
  obtain ⟨expr, walked⟩ : ∃ expr, looseExponent.climb 15 3 2 = .ok expr 6 := ⟨_, rfl⟩
  refine ⟨inRange, deep, expr, ?_⟩
  obtain ⟨-, ⟨_, _, refused⟩ | ⟨_, next, row, walked', -, -, here, loose⟩⟩ :=
    climb_progress looseExponent 3 2 15 inRange deep
  · cases walked.symm.trans refused
  · cases walked.symm.trans walked'
    have kind : looseExponent.rows[6]?.bind Row.kind? = some (.symbol .and) := rfl
    rw [here] at kind
    exact ⟨row, walked, here, kind, loose⟩

end LineScript
