/-
Scanning: from the characters of an expression to its tokens. A lexeme is recognised by its
characters alone, wherever it stands; regions are attached by the walk over the text.
-/

import LineScript.Text.Name
import LineScript.Token.Basic

namespace LineScript

open Number Text

/-- Why a text is no list of tokens. -/
inductive ScanCause where
  | unexpectedChar (c : Char)
  | unterminatedString
  | invalidEscape (c : Char)
  | invalidNumber (text : String)
deriving DecidableEq, Repr

/-- A cause and the region read so far. -/
structure ScanError where
  cause : ScanCause
  span : Span
deriving DecidableEq, Repr

/-- The description of a cause. -/
def ScanCause.message : ScanCause → String
  | .unexpectedChar c => "Unexpected character '" ++ c.toString ++ "'"
  | .unterminatedString => "Unterminated string"
  | .invalidEscape c => "Invalid escape sequence '\\" ++ c.toString ++ "'"
  | .invalidNumber text => "Invalid number '" ++ text ++ "'"

/-- The description of an error, with the column where the lexeme starts. -/
def ScanError.message (error : ScanError) : String :=
  error.cause.message ++ " at column " ++ toString error.span.column

/-- A lexeme's outcome: what was read, or why not, each with the number of characters taken. -/
abbrev Lexeme (α : Type) := Except (ScanCause × Nat) (α × Nat)

/-! ### Strings -/

/-- The character that a letter stands for after a backslash. -/
def escape? : Char → Option Char
  | 'n' => some '\n'
  | 't' => some '\t'
  | 'r' => some '\r'
  | '\\' => some '\\'
  | '"' => some '"'
  | '\'' => some '\''
  | _ => none

/-- One more character in front of what was read, which took `length` characters of the text. -/
def Lexeme.cons (c : Char) (length : Nat) : Lexeme (List Char) → Lexeme (List Char)
  | .ok (chars, more) => .ok (c :: chars, length + more)
  | .error (cause, more) => .error (cause, length + more)

/-- The characters of a string up to its closing quote. A letter that no escape has is not
taken. -/
def stringBody (quote : Char) : List Char → Lexeme (List Char)
  | [] => .error (.unterminatedString, 0)
  | c :: rest =>
    if c = quote then .ok ([], 1)
    else if c = '\\' then
      match rest with
      | [] => .error (.unterminatedString, 1)
      | letter :: rest =>
        match escape? letter with
        | some escaped => Lexeme.cons escaped 2 (stringBody quote rest)
        | none => .error (.invalidEscape letter, 1)
    else Lexeme.cons c 1 (stringBody quote rest)

/-! ### Numbers -/

/-- What a number goes on with: its characters without underscores, the number of characters
taken, whether it is a float, and the character that ends it. -/
structure NumberTail where
  text : List Char
  length : Nat
  isFloat : Bool
  next : Option Char
deriving DecidableEq, Repr

/-- A character of the number in front. -/
def NumberTail.cons (c : Char) (tail : NumberTail) : NumberTail :=
  { tail with text := c :: tail.text, length := tail.length + 1 }

/-- A character in front that separates digits. -/
def NumberTail.skip (tail : NumberTail) : NumberTail :=
  { tail with length := tail.length + 1 }

/-- Whether a digit comes next. -/
def digitNext (chars : List Char) : Bool :=
  chars.head?.any isAsciiDigit

/-- Whether a character marks an exponent. -/
def isExponentMark (c : Char) : Bool :=
  c == 'e' || c == 'E'

/-- Whether a character is a sign. -/
def isSign (c : Char) : Bool :=
  c == '+' || c == '-'

/-- The rest of a number. A point belongs to it if there was neither a point nor an exponent yet,
an exponent mark if there was none yet and digits follow, with or without a sign. -/
def numberTail (isFloat hasExponent : Bool) : List Char → NumberTail
  | [] => ⟨[], 0, isFloat, none⟩
  | c :: rest =>
    if isAsciiDigit c then (numberTail isFloat hasExponent rest).cons c
    else if c == '.' && !isFloat && !hasExponent then (numberTail true hasExponent rest).cons c
    else if isExponentMark c && !hasExponent then
      if digitNext rest then (numberTail true true rest).cons c
      else
        match rest with
        | sign :: digits =>
          if isSign sign && digitNext digits then
            ((numberTail true true digits).cons sign).cons c
          else ⟨[], 0, isFloat, some c⟩
        | [] => ⟨[], 0, isFloat, some c⟩
    else if c == '_' then (numberTail isFloat hasExponent rest).skip
    else ⟨[], 0, isFloat, some c⟩

/-- The number literal that starts with this character. A name may not follow it directly. -/
def numberLexeme (first : Char) (rest : List Char) : Lexeme TokenKind :=
  let tail := numberTail (first == '.') false rest
  let text := first :: tail.text
  let length := tail.length + 1
  let value? :=
    if tail.next.any isNameStart then none
    else if tail.isFloat then (readFloat? text).map TokenKind.float
    else (readWhole? text).map TokenKind.int
  match value? with
  | some kind => .ok (kind, length)
  | none => .error (.invalidNumber (String.ofList text), length)

/-! ### Lexemes -/

/-- The symbol that may go on with `second`. -/
def twoCharLexeme (second : Char) (long short : Symbol) (rest : List Char) : Lexeme TokenKind :=
  if rest.head? = some second then .ok (.symbol long, 2) else .ok (.symbol short, 1)

/-- The symbol that must go on with `second`. -/
def pairLexeme (first second : Char) (symbol : Symbol) (rest : List Char) : Lexeme TokenKind :=
  if rest.head? = some second then .ok (.symbol symbol, 2)
  else .error (.unexpectedChar first, 1)

/-- The name or keyword that starts with this character. -/
def nameLexeme (first : Char) (rest : List Char) : Lexeme TokenKind :=
  let chars := first :: rest.takeWhile isNameChar
  let word := String.ofList chars
  .ok ((keyword? word).getD (.name word), chars.length)

/-- The string literal that this quote opens. -/
def stringLexeme (quote : Char) (rest : List Char) : Lexeme TokenKind :=
  match stringBody quote rest with
  | .ok (chars, length) => .ok (.string (String.ofList chars), length + 1)
  | .error (cause, length) => .error (cause, length + 1)

/-- The lexeme that starts with this character. -/
def lexeme (first : Char) (rest : List Char) : Lexeme TokenKind :=
  match first with
  | '(' => .ok (.symbol .leftParen, 1)
  | ')' => .ok (.symbol .rightParen, 1)
  | ',' => .ok (.symbol .comma, 1)
  | '+' => .ok (.symbol (.arithmetic .add), 1)
  | '-' => .ok (.symbol (.arithmetic .subtract), 1)
  | '%' => .ok (.symbol (.arithmetic .modulo), 1)
  | '.' => if digitNext rest then numberLexeme '.' rest else .ok (.symbol .dot, 1)
  | '*' => twoCharLexeme '*' (.arithmetic .power) (.arithmetic .multiply) rest
  | '/' => twoCharLexeme '/' (.arithmetic .floorDivide) (.arithmetic .divide) rest
  | '!' => twoCharLexeme '=' (.comparison .notEqual) .not rest
  | '<' => twoCharLexeme '=' (.comparison .lessEqual) (.comparison .less) rest
  | '>' => twoCharLexeme '=' (.comparison .greaterEqual) (.comparison .greater) rest
  | '=' => pairLexeme '=' '=' (.comparison .equal) rest
  | '&' => pairLexeme '&' '&' .and rest
  | '|' => pairLexeme '|' '|' .or rest
  | '"' => stringLexeme '"' rest
  | '\'' => stringLexeme '\'' rest
  | _ =>
    if isAsciiDigit first then numberLexeme first rest
    else if isNameStart first then nameLexeme first rest
    else .error (.unexpectedChar first, 1)

/-! ### The walk over the text -/

/-- Whether a character only separates tokens. -/
def isGap (c : Char) : Bool :=
  c == ' ' || c == '\t' || c == '\r' || c == '\n'

/-- The tokens of the characters from a position on, and the position at their end. The first
`skip` characters belong to a token that was already read. -/
def tokensFrom : (skip : Nat) → Position → List Char → Except ScanError (List Token × Position)
  | _, position, [] => .ok ([], position)
  | skip + 1, position, c :: rest => tokensFrom skip (position.next c) rest
  | 0, position, c :: rest =>
    if isGap c then tokensFrom 0 (position.next c) rest
    else
      match lexeme c rest with
      | .error (cause, length) => .error ⟨cause, position.cover ((c :: rest).take length)⟩
      | .ok (kind, length) =>
        match tokensFrom (length - 1) (position.next c) rest with
        | .error error => .error error
        | .ok (tokens, stop) =>
          .ok (⟨kind, position.cover ((c :: rest).take length)⟩ :: tokens, stop)

/-- The tokens of an expression. -/
def scan (text : String) : Except ScanError TokenStream :=
  match tokensFrom 0 .origin text.toList with
  | .error error => .error error
  | .ok (tokens, stop) => .ok ⟨tokens, stop.cover []⟩

/-! ### Identifiers -/

/-- Whether a text may name a variable, a record or a field: a name that is no keyword. -/
def isIdentifier (text : String) : Bool :=
  isName text && (keyword? text).isNone

end LineScript
