/-
Reading an expression from its tokens by operator precedence. An operand is read first; then, as
long as the next operator binds at least as tightly as asked for, it and its right operand are
taken in. Every operand costs at least one token, so the number of tokens bounds how deeply the
readings nest.
-/

import LineScript.Expr.Basic
import LineScript.Token.Scan

namespace LineScript

/-! ### Errors -/

/-- What the parser was looking for. -/
inductive Expected where
  | expression
  | fieldName
  | closingParen
  | nothingMore
deriving DecidableEq, Repr

/-- How messages name what was looked for. -/
def Expected.text : Expected → String
  | .expression => "expression"
  | .fieldName => "field name"
  | .closingParen => "')'"
  | .nothingMore => endText

/-- Why a text is no expression. `found` is none at the end of the text. -/
inductive ExprError where
  | unexpectedToken (expected : Expected) (found : Option TokenKind) (span : Span)
  | unexpectedEnd (span : Span)
  | unscannable (error : ScanError)
deriving DecidableEq

/-- The region an error points at. -/
def ExprError.span : ExprError → Span
  | .unexpectedToken _ _ span => span
  | .unexpectedEnd span => span
  | .unscannable error => error.span

/-- The description of an error. -/
def ExprError.message : ExprError → String
  | .unexpectedToken expected found span =>
    "Unexpected token '" ++ (found.map TokenKind.text).getD endText ++ "', expected " ++
      expected.text ++ " at column " ++ toString span.column
  | .unexpectedEnd _ => "Unexpected end of expression"
  | .unscannable error => error.message ++ " at column " ++ toString error.span.column

/-! ### Precedence -/

/-- How tightly an operator binds, from the loosest to the tightest. -/
inductive Level where
  | or
  | and
  | not
  | comparison
  | term
  | factor
  | unary
  | power
  | primary
deriving DecidableEq, Repr

/-- The place of a level in their order. -/
def Level.rank : Level → Nat
  | .or => 1
  | .and => 2
  | .not => 3
  | .comparison => 4
  | .term => 5
  | .factor => 6
  | .unary => 7
  | .power => 8
  | .primary => 9

/-- The next tighter level. -/
def Level.next : Level → Level
  | .or => .and
  | .and => .not
  | .not => .comparison
  | .comparison => .term
  | .term => .factor
  | .factor => .unary
  | .unary => .power
  | .power => .primary
  | .primary => .primary

/-- What may stand between two operands. -/
inductive Operator where
  | or
  | and
  | comparison (relation : Comparison)
  | arithmetic (operation : Arithmetic)
deriving DecidableEq, Repr

/-- How tightly an operator binds. -/
def Operator.level : Operator → Level
  | .or => .or
  | .and => .and
  | .comparison _ => .comparison
  | .arithmetic .add => .term
  | .arithmetic .subtract => .term
  | .arithmetic .multiply => .factor
  | .arithmetic .divide => .factor
  | .arithmetic .floorDivide => .factor
  | .arithmetic .modulo => .factor
  | .arithmetic .power => .power

/-- How tightly the right operand of an operator has to bind. Equal operators group to the left,
except for powers, which group to the right and take a sign in the exponent. -/
def Operator.rightLevel : Operator → Level
  | .arithmetic .power => .unary
  | operator => operator.level.next

/-- The operator that a token is between two operands. -/
def TokenKind.operator? : TokenKind → Option Operator
  | .symbol .or => some .or
  | .symbol .and => some .and
  | .symbol (.comparison relation) => some (.comparison relation)
  | .symbol (.arithmetic operation) => some (.arithmetic operation)
  | _ => none

/-- The comparison that comes next, and the tokens after it. -/
def nextComparison? : List Token → Option (Comparison × List Token)
  | ⟨.symbol (.comparison comparison), _⟩ :: rest => some (comparison, rest)
  | _ => none

/-! ### Reading -/

/-- What was read, and the tokens after it. -/
abbrev Parsed (α : Type) := Except ExprError (α × List Token)

/-- A reader of operands for a level. -/
abbrev Reader := Level → List Token → Parsed Expr

/-- The region of the next token, or of the end. -/
def nextSpan (stop : Span) : List Token → Span
  | [] => stop
  | token :: _ => token.span

/-- Takes the closing parenthesis, whose region is the result. -/
def closing (stop : Span) : List Token → Parsed Span
  | [] => .error (.unexpectedEnd stop)
  | token :: rest =>
    if token.kind = .symbol .rightParen then .ok (token.span, rest)
    else .error (.unexpectedToken .closingParen (some token.kind) token.span)

/-- Takes one or more expressions with commas between them. At most `more` follow the first. -/
def arguments (stop : Span) (read : Reader) : (more : Nat) → List Token → Parsed (List Expr)
  | more, tokens =>
    match read .or tokens with
    | .error error => .error error
    | .ok (first, rest) =>
      match more, rest with
      | more + 1, ⟨.symbol .comma, _⟩ :: rest =>
        match arguments stop read more rest with
        | .error error => .error error
        | .ok (others, rest) => .ok (first :: others, rest)
      | _, _ => .ok ([first], rest)

/-- Takes the arguments of a call and its closing parenthesis, whose region is part of the
result. -/
def callArguments (stop : Span) (read : Reader) (tokens : List Token) :
    Parsed (List Expr × Span) :=
  match tokens with
  | ⟨.symbol .rightParen, span⟩ :: rest => .ok (([], span), rest)
  | _ =>
    match arguments stop read tokens.length tokens with
    | .error error => .error error
    | .ok (values, rest) =>
      match closing stop rest with
      | .error error => .error error
      | .ok (span, rest) => .ok ((values, span), rest)

/-- Takes what may follow a name: the arguments of a call, or the field of a record. -/
def named (stop : Span) (read : Reader) (name : String) (span : Span) (tokens : List Token) :
    Parsed Expr :=
  match tokens with
  | ⟨.symbol .leftParen, _⟩ :: rest =>
    match callArguments stop read rest with
    | .error error => .error error
    | .ok ((values, last), rest) => .ok (.call name values (span.merge last), rest)
  | ⟨.symbol .dot, _⟩ :: rest =>
    match rest with
    | ⟨.name field, last⟩ :: rest => .ok (.member name field (span.merge last), rest)
    | _ =>
      .error (.unexpectedToken .fieldName (rest.head?.map Token.kind) (nextSpan stop rest))
  | _ => .ok (.var name span, tokens)

/-- Takes an operand with a sign in front. -/
def signedOperand (read : Reader) (sign : Sign) (level : Level) (span : Span)
    (tokens : List Token) : Parsed Expr :=
  match read level tokens with
  | .error error => .error error
  | .ok (operand, rest) => .ok (.unary sign operand (span.merge operand.span), rest)

/-- Takes an operand: a literal, a name and what belongs to it, an expression in parentheses, or
an operand with a sign in front. -/
def operand (stop : Span) (read : Reader) : List Token → Parsed Expr
  | [] => .error (.unexpectedEnd stop)
  | ⟨kind, span⟩ :: rest =>
    match kind with
    | .int n => .ok (.int n span, rest)
    | .float x => .ok (.float x span, rest)
    | .string text => .ok (.string text span, rest)
    | .bool b => .ok (.bool b span, rest)
    | .name name => named stop read name span rest
    | .symbol .leftParen =>
      match read .or rest with
      | .error error => .error error
      | .ok (inner, rest) =>
        match closing stop rest with
        | .error error => .error error
        | .ok (last, rest) => .ok (.group inner (span.merge last), rest)
    | .symbol (.arithmetic .subtract) => signedOperand read .negate .unary span rest
    | .symbol (.arithmetic .add) => signedOperand read .plus .unary span rest
    | .symbol .not => signedOperand read .not .not span rest
    | .symbol symbol => .error (.unexpectedToken .expression (some (.symbol symbol)) span)

/-- Takes the further links of a chain of comparisons, at most `more`. -/
def chainLinks (read : Reader) : (more : Nat) → List Token → Parsed (List (Comparison × Expr))
  | 0, tokens => .ok ([], tokens)
  | more + 1, tokens =>
    match nextComparison? tokens with
    | none => .ok ([], tokens)
    | some (comparison, rest) =>
      match read .term rest with
      | .error error => .error error
      | .ok (operand, rest) =>
        match chainLinks read more rest with
        | .error error => .error error
        | .ok (links, rest) => .ok ((comparison, operand) :: links, rest)

/-- The expression that comparisons make of their operands. One comparison is a binary node, more
are a chain. -/
def compared (first : Expr) (comparison : Comparison) (second : Expr)
    (links : List (Comparison × Expr)) : Expr :=
  let span := first.span.merge second.span
  match links with
  | [] => .binary (.comparison comparison) first second span
  | links =>
    .chain first ((comparison, second) :: links)
      (links.foldl (fun span link => span.merge link.2.span) span)

/-- Takes the right operand of an operator, and with a comparison all its further links. -/
def rightOperand (read : Reader) (left : Expr) (operator : Operator) (tokens : List Token) :
    Parsed Expr :=
  match read operator.rightLevel tokens with
  | .error error => .error error
  | .ok (right, rest) =>
    let span := left.span.merge right.span
    match operator with
    | .or => .ok (.or left right span, rest)
    | .and => .ok (.and left right span, rest)
    | .arithmetic operation => .ok (.binary (.arithmetic operation) left right span, rest)
    | .comparison comparison =>
      match chainLinks read rest.length rest with
      | .error error => .error error
      | .ok (links, rest) => .ok (compared left comparison right links, rest)

/-- Takes operators and their right operands as long as they bind at least as tightly as `level`,
at most `more` of them. -/
def operators (read : Reader) (level : Level) : (more : Nat) → Expr → List Token → Parsed Expr
  | 0, left, tokens => .ok (left, tokens)
  | more + 1, left, tokens =>
    match tokens with
    | [] => .ok (left, [])
    | token :: rest =>
      match token.kind.operator? with
      | none => .ok (left, tokens)
      | some operator =>
        if operator.level.rank < level.rank then .ok (left, tokens)
        else
          match rightOperand read left operator rest with
          | .error error => .error error
          | .ok (left, rest) => operators read level more left rest

/-- Takes an expression of operators that bind at least as tightly as the level. Readings nest at
most `depth` deep. -/
def expressionAt (stop : Span) : (depth : Nat) → Reader
  | 0, _, _ => .error (.unexpectedEnd stop)
  | depth + 1, level, tokens =>
    match operand stop (expressionAt stop depth) tokens with
    | .error error => .error error
    | .ok (left, rest) => operators (expressionAt stop depth) level rest.length left rest

/-- The expression that all the tokens make up together. -/
def TokenStream.parse (stream : TokenStream) : Except ExprError Expr :=
  match expressionAt stream.stop (stream.tokens.length + 1) .or stream.tokens with
  | .error error => .error error
  | .ok (expr, []) => .ok expr
  | .ok (_, token :: _) => .error (.unexpectedToken .nothingMore (some token.kind) token.span)

/-- The expression that a text spells. -/
def parseExpr (text : String) : Except ExprError Expr :=
  match scan text with
  | .error error => .error (.unscannable error)
  | .ok stream => stream.parse

end LineScript
