/-
This file shows that tokens are read as they are written. A string is written between quotes, with
a backslash in front of what would end it or be taken for something else. Every other token is
written as messages show it. A lexeme takes the characters of its token and leaves the space, or the
end of the text, that follows.
-/

import LineScript.Line.Alias
import LineScript.Proofs.Name
import LineScript.Token.Scan

namespace LineScript

open Number Text

/-! ### Escapes -/

/-- A character of a string as it is written between these quotes. -/
def escapedChar (quote c : Char) : List Char :=
  if c = '\\' then ['\\', '\\']
  else if c = quote then ['\\', quote]
  else if c = '\n' then ['\\', 'n']
  else if c = '\r' then ['\\', 'r']
  else [c]

/-- The characters of a string as they are written between these quotes. -/
def escaped (quote : Char) (chars : List Char) : List Char :=
  chars.flatMap (escapedChar quote)

theorem escaped_cons (quote c : Char) (chars : List Char) :
    escaped quote (c :: chars) = escapedChar quote c ++ escaped quote chars :=
  List.flatMap_cons

theorem isQuote_iff {c : Char} : isQuote c = true ↔ c = '"' ∨ c = '\'' := by
  rw [isQuote, Bool.or_eq_true, beq_iff_eq, beq_iff_eq]

theorem ne_backslash_of_isQuote {c : Char} (quotes : isQuote c = true) : c ≠ '\\' := by
  rintro rfl
  cases quotes

theorem stringBody_quote (quote : Char) (rest : List Char) :
    stringBody quote (quote :: rest) = .ok ([], 1) := by
  unfold stringBody
  rw [if_pos rfl]

theorem stringBody_escape {quote letter c : Char} (other : '\\' ≠ quote)
    (stands : escape? letter = some c) (rest : List Char) :
    stringBody quote ('\\' :: letter :: rest) = Lexeme.cons c 2 (stringBody quote rest) := by
  rw [stringBody, if_neg other, if_pos rfl, stands]

theorem stringBody_plain {quote c : Char} (other : c ≠ quote) (plain : c ≠ '\\')
    (rest : List Char) :
    stringBody quote (c :: rest) = Lexeme.cons c 1 (stringBody quote rest) := by
  rw [stringBody.eq_def]
  simp only [if_neg other, if_neg plain]

/-- An escaped character is read as the character. -/
theorem stringBody_escapedChar {quote : Char} (quotes : isQuote quote = true) (c : Char)
    (rest : List Char) :
    stringBody quote (escapedChar quote c ++ rest) =
      Lexeme.cons c (escapedChar quote c).length (stringBody quote rest) := by
  have other : '\\' ≠ quote := (ne_backslash_of_isQuote quotes).symm
  have letter : escape? quote = some quote := by
    rcases isQuote_iff.mp quotes with rfl | rfl <;> rfl
  fun_cases escapedChar quote c with
  | case1 same =>
    subst same
    exact stringBody_escape other rfl rest
  | case2 _ same =>
    subst same
    exact stringBody_escape other letter rest
  | case3 _ _ same =>
    subst same
    exact stringBody_escape other rfl rest
  | case4 _ _ _ same =>
    subst same
    exact stringBody_escape other rfl rest
  | case5 plain differs => exact stringBody_plain differs plain rest

/-- What is written between quotes is read up to the closing one. -/
theorem stringBody_escaped {quote : Char} (quotes : isQuote quote = true)
    (chars rest : List Char) :
    stringBody quote (escaped quote chars ++ quote :: rest) =
      .ok (chars, (escaped quote chars).length + 1) := by
  induction chars with
  | nil => exact stringBody_quote quote rest
  | cons c chars inductionHypothesis =>
    rw [escaped_cons, List.append_assoc, stringBody_escapedChar quotes, inductionHypothesis,
      Lexeme.cons, List.length_append, Nat.add_assoc]

/-! ### Written tokens -/

/-- A token as it is written in a source, with strings between these quotes. -/
def TokenKind.written (quote : Char) : TokenKind → String
  | .string text => String.ofList (quote :: (escaped quote text.toList ++ [quote]))
  | kind => kind.text

/-- Whether the source can hold a token: it has no negative numbers, and a name is no keyword.
Floats are left out. -/
def TokenKind.isWritable : TokenKind → Bool
  | .int n => decide (0 ≤ n)
  | .float _ => false
  | .string _ => true
  | .bool _ => true
  | .name text => isIdentifier text
  | .symbol _ => true

/-- Characters that end the lexeme in front of them: none, or a space first. -/
def EndsLexeme (chars : List Char) : Prop :=
  ∀ c, chars.head? = some c → c = ' '

theorem EndsLexeme.nil : EndsLexeme [] := nofun

theorem EndsLexeme.space (rest : List Char) : EndsLexeme (' ' :: rest) := by
  rintro _ ⟨⟩
  rfl

theorem EndsLexeme.head?_ne {chars : List Char} (ends : EndsLexeme chars) {c : Char}
    (other : c ≠ ' ') : chars.head? ≠ some c :=
  fun head => other (ends c head)

theorem EndsLexeme.eq {chars : List Char} (ends : EndsLexeme chars) :
    chars = [] ∨ ∃ rest, chars = ' ' :: rest := by
  cases chars with
  | nil => exact .inl rfl
  | cons c rest => exact .inr ⟨rest, by rw [ends c rfl]⟩

/-! ### Names -/

/-- No digit is a letter or an underscore. -/
theorem digits_apart : ∀ point ∈ List.range' 48 10,
    alphabeticRanges.holds point = false ∧ point ≠ '_'.toNat := by
  decide +kernel

theorem isNameStart_of_isAsciiDigit {c : Char} (digit : isAsciiDigit c = true) :
    isNameStart c = false := by
  obtain ⟨low, high⟩ := (Bool.and_eq_true _ _).mp digit
  have inside : c.toNat ∈ List.range' 48 10 := by
    rw [List.mem_range'_1]
    have least : 48 ≤ c.toNat := of_decide_eq_true low
    have greatest : c.toNat ≤ 57 := of_decide_eq_true high
    omega
  obtain ⟨noLetter, noUnderscore⟩ := digits_apart _ inside
  have other : c ≠ '_' := fun same => noUnderscore (congrArg Char.toNat same)
  unfold isNameStart isAlphabetic Ranges.has
  rw [noLetter, beq_false_of_ne other]
  rfl

/-- A letter or an underscore starts a word. -/
theorem lexeme_of_isNameStart {first : Char} (start : isNameStart first = true)
    (rest : List Char) : lexeme first rest = nameLexeme first rest := by
  fun_cases lexeme first rest with
  | case19 _ digit =>
    rw [isNameStart_of_isAsciiDigit digit] at start
    cases start
  | case20 _ noDigit => rw [if_neg noDigit, if_pos start]
  | case21 _ _ other => exact absurd start other
  | _ => exact absurd start (by decide +kernel)

/-- A digit starts a number. -/
theorem lexeme_of_isAsciiDigit {first : Char} (digit : isAsciiDigit first = true)
    (rest : List Char) : lexeme first rest = numberLexeme first rest := by
  fun_cases lexeme first rest with
  | case19 => rw [if_pos digit]
  | case20 _ other => exact absurd digit other
  | case21 _ other => exact absurd digit other
  | _ => exact absurd digit (by decide)

/-- A word is read up to the character that ends it, as a keyword or as a name. -/
theorem lexeme_word {first : Char} {more : List Char} (start : isNameStart first = true)
    (others : more.all isNameChar = true) {tail : List Char} (ends : EndsLexeme tail) :
    lexeme first (more ++ tail) =
      .ok ((keyword? (String.ofList (first :: more))).getD (.name (String.ofList (first :: more))),
        more.length + 1) := by
  have taken : (more ++ tail).takeWhile isNameChar = more := by
    rw [List.takeWhile_append_of_pos (List.all_eq_true.mp others)]
    rcases ends.eq with rfl | ⟨rest, rfl⟩
    · rw [List.takeWhile_nil, List.append_nil]
    · rw [List.takeWhile_cons_of_neg (by decide +kernel), List.append_nil]
  rw [lexeme_of_isNameStart start, nameLexeme]
  simp only [taken, List.length_cons]

/-! ### Numbers -/

/-- What a whole literal goes on with: digits, and underscores between them. -/
def isWholeChar (c : Char) : Bool :=
  isAsciiDigit c || c == '_'

theorem numberTail_whole {chars : List Char} (all : chars.all isWholeChar = true)
    {tail : List Char} (ends : EndsLexeme tail) :
    numberTail false false (chars ++ tail) =
      ⟨chars.filter isAsciiDigit, chars.length, false, tail.head?⟩ := by
  induction chars with
  | nil =>
    rcases ends.eq with rfl | ⟨rest, rfl⟩
    · rfl
    · rw [List.nil_append, numberTail.eq_def]
      rfl
  | cons c chars inductionHypothesis =>
    obtain ⟨first, others⟩ := (Bool.and_eq_true _ _).mp (List.all_cons ▸ all)
    rw [List.cons_append, numberTail.eq_def]
    cases digit : isAsciiDigit c with
    | true =>
      simp only [digit, if_true, inductionHypothesis others, List.filter_cons_of_pos]
      rfl
    | false =>
      obtain rfl : c = '_' := by
        rw [isWholeChar, digit, Bool.false_or] at first
        exact beq_iff_eq.mp first
      rw [List.filter_cons_of_neg (by decide)]
      exact congrArg NumberTail.skip (inductionHypothesis others)

theorem all_isAsciiDigit_toDigits (n : Nat) : (Nat.toDigits 10 n).all isAsciiDigit = true :=
  List.all_eq_true.mpr fun _ member =>
    Nat.isDigit_of_mem_toDigits (by decide) (Nat.le_refl _) member

/-- The digits of a number spell it. -/
theorem readDigits?_toDigits (n : Nat) : readDigits? (Nat.toDigits 10 n) = some n := by
  have value : digitsValue (Nat.toDigits 10 n) = n :=
    Nat.ofDigitChars_eq_foldl.symm.trans Nat.ofDigitChars_ten_toDigits
  rw [readDigits?, if_pos ⟨Nat.toDigits_ne_nil, all_isAsciiDigit_toDigits n⟩, value]

theorem fit?_toInt (n : Int64) : fit? n.toInt = some n := by
  rw [fit?, if_pos ⟨n.minValue_le_toInt, n.toInt_le⟩, Int64.ofInt_toInt]

theorem readWhole?_of_isAsciiDigit {first : Char} (digit : isAsciiDigit first = true)
    (more : List Char) :
    readWhole? (first :: more) = (readDigits? (first :: more)).bind fun n => fit? n := by
  unfold readWhole?
  split
  · rename_i same
    cases same
    cases digit
  · rename_i same
    cases same
    cases digit
  · rfl

/-! ### One token -/

/-- Characters that are read as one token, if what follows ends it. -/
def IsLexeme (kind : TokenKind) (chars : List Char) : Prop :=
  ∃ first more, chars = first :: more ∧ isGap first = false ∧
    ∀ tail, EndsLexeme tail → lexeme first (more ++ tail) = .ok (kind, more.length + 1)

/-- The characters of a class without the gaps are no gaps. -/
theorem isGap_of_class {holds : Char → Bool}
    (free : holds ' ' = false ∧ holds '\t' = false ∧ holds '\r' = false ∧ holds '\n' = false)
    {c : Char} (member : holds c = true) : isGap c = false := by
  cases gap : isGap c with
  | false => rfl
  | true =>
    simp only [isGap, Bool.or_eq_true, beq_iff_eq] at gap
    rcases gap with ((rfl | rfl) | rfl) | rfl <;> simp [free] at member

/-- A word is a keyword or a name. -/
theorem isLexeme_word (word : String) (name : isName word = true) :
    IsLexeme ((keyword? word).getD (.name word)) word.toList := by
  unfold isName at name
  cases chars : word.toList with
  | nil =>
    rw [chars] at name
    cases name
  | cons first more =>
    rw [chars] at name
    obtain ⟨start, others⟩ := (Bool.and_eq_true _ _).mp name
    refine ⟨first, more, rfl, isGap_of_class (by decide +kernel) start, fun tail ends => ?_⟩
    rw [lexeme_word start others ends, ← chars, String.ofList_toList]

/-- A digit and what a whole literal goes on with are the number that the digits spell. -/
theorem isLexeme_digits {first : Char} {rest : List Char} {n : Int64}
    (digit : isAsciiDigit first = true) (others : rest.all isWholeChar = true)
    (reads : readWhole? (first :: rest.filter isAsciiDigit) = some n) :
    IsLexeme (.int n) (first :: rest) := by
  refine ⟨first, rest, rfl, isGap_of_class (by decide) digit, fun tail ends => ?_⟩
  have noName : tail.head?.any isNameStart = false := by
    rcases ends.eq with rfl | ⟨rest, rfl⟩
    · rfl
    · exact (by decide +kernel : isNameStart ' ' = false)
  have noPoint : (first == '.') = false := by
    refine beq_false_of_ne ?_
    rintro rfl
    cases digit
  rw [lexeme_of_isAsciiDigit digit, numberLexeme, noPoint, numberTail_whole others ends]
  simp only [noName, reads]
  rfl

/-- A number that is not negative is a literal. -/
theorem isLexeme_whole {n : Int64} (natural : 0 ≤ n) : IsLexeme (.int n) (wholeText n).toList := by
  have positive : 0 ≤ n.toInt := Int64.le_iff_toInt_le.mp natural
  obtain ⟨value, same⟩ := Int.eq_ofNat_of_zero_le positive
  have text : (wholeText n).toList = Nat.toDigits 10 value := by
    rw [wholeText, same]
    exact (congrArg String.toList Nat.toString_eq_ofList_toDigits).trans String.toList_ofList
  have all := all_isAsciiDigit_toDigits value
  have spells := readDigits?_toDigits value
  rw [text]
  cases digits : Nat.toDigits 10 value with
  | nil => exact absurd digits Nat.toDigits_ne_nil
  | cons first more =>
    rw [digits] at all spells
    obtain ⟨digit, others⟩ := (Bool.and_eq_true _ _).mp (List.all_cons ▸ all)
    rw [List.all_eq_true] at others
    refine isLexeme_digits digit (List.all_eq_true.mpr fun c member => ?_) ?_
    · rw [isWholeChar, others c member, Bool.true_or]
    · rw [List.filter_eq_self.mpr others, readWhole?_of_isAsciiDigit digit, spells,
        Option.bind_some, ← same, fit?_toInt]

theorem isLexeme_string {quote : Char} (quotes : isQuote quote = true) (text : String) :
    IsLexeme (.string text) (quote :: (escaped quote text.toList ++ [quote])) := by
  have opens : ∀ rest, lexeme quote rest = stringLexeme quote rest := by
    rcases isQuote_iff.mp quotes with rfl | rfl <;> exact fun rest => rfl
  have noGap : isGap quote = false := by
    rcases isQuote_iff.mp quotes with rfl | rfl <;> rfl
  refine ⟨quote, _, rfl, noGap, fun tail _ => ?_⟩
  rw [opens, stringLexeme, List.append_assoc, List.singleton_append, stringBody_escaped quotes]
  simp

theorem twoCharLexeme_short {second : Char} (other : second ≠ ' ') (long short : Symbol)
    {tail : List Char} (ends : EndsLexeme tail) :
    twoCharLexeme second long short tail = .ok (.symbol short, 1) :=
  if_neg (ends.head?_ne other)

theorem isLexeme_symbol (mark : Symbol) : IsLexeme (.symbol mark) mark.text.toList := by
  cases mark with
  | arithmetic operation =>
    cases operation with
    | add => exact ⟨'+', [], rfl, rfl, fun _ _ => rfl⟩
    | subtract => exact ⟨'-', [], rfl, rfl, fun _ _ => rfl⟩
    | multiply => exact ⟨'*', [], rfl, rfl, fun _ => twoCharLexeme_short (by decide) _ _⟩
    | divide => exact ⟨'/', [], rfl, rfl, fun _ => twoCharLexeme_short (by decide) _ _⟩
    | floorDivide => exact ⟨'/', ['/'], rfl, rfl, fun _ _ => rfl⟩
    | modulo => exact ⟨'%', [], rfl, rfl, fun _ _ => rfl⟩
    | power => exact ⟨'*', ['*'], rfl, rfl, fun _ _ => rfl⟩
  | comparison relation =>
    cases relation with
    | equal => exact ⟨'=', ['='], rfl, rfl, fun _ _ => rfl⟩
    | notEqual => exact ⟨'!', ['='], rfl, rfl, fun _ _ => rfl⟩
    | less => exact ⟨'<', [], rfl, rfl, fun _ => twoCharLexeme_short (by decide) _ _⟩
    | lessEqual => exact ⟨'<', ['='], rfl, rfl, fun _ _ => rfl⟩
    | greater => exact ⟨'>', [], rfl, rfl, fun _ => twoCharLexeme_short (by decide) _ _⟩
    | greaterEqual => exact ⟨'>', ['='], rfl, rfl, fun _ _ => rfl⟩
  | not => exact isLexeme_word "not" (by decide +kernel)
  | and => exact isLexeme_word "and" (by decide +kernel)
  | or => exact isLexeme_word "or" (by decide +kernel)
  | leftParen => exact ⟨'(', [], rfl, rfl, fun _ _ => rfl⟩
  | rightParen => exact ⟨')', [], rfl, rfl, fun _ _ => rfl⟩
  | comma => exact ⟨',', [], rfl, rfl, fun _ _ => rfl⟩
  | dot =>
    refine ⟨'.', [], rfl, rfl, fun tail ends => ?_⟩
    rcases ends.eq with rfl | ⟨rest, rfl⟩ <;> rfl

/-- Every token that a source can hold is read as it is written. -/
theorem isLexeme_written {quote : Char} (quotes : isQuote quote = true) {kind : TokenKind}
    (writable : kind.isWritable = true) : IsLexeme kind (kind.written quote).toList := by
  cases kind with
  | int n => exact isLexeme_whole (of_decide_eq_true writable)
  | float x => cases writable
  | string text =>
    rw [TokenKind.written, String.toList_ofList]
    exact isLexeme_string quotes text
  | bool b =>
    cases b with
    | false => exact isLexeme_word "false" (by decide +kernel)
    | true => exact isLexeme_word "true" (by decide +kernel)
  | name text =>
    obtain ⟨name, noKeyword⟩ := (Bool.and_eq_true _ _).mp writable
    have reads := isLexeme_word text name
    rw [Option.isNone_iff_eq_none.mp noKeyword] at reads
    exact reads
  | symbol mark => exact isLexeme_symbol mark

end LineScript
