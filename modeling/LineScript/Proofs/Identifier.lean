/-
This file shows that identifiers are exactly the texts that are one name to the scanner. Names are
checked in one place and read in another, and both go by the same characters and the same keywords.
So the text of an identifier is an expression that looks the name up, and two identifiers with a
point between them are one that looks up a field. A point could also start a number, but no digit
starts an identifier.
-/

import LineScript.Proofs.WholeText

namespace LineScript

open Text

/-! ### One name -/

theorem exists_of_isName {name : String} (isName : isName name = true) :
    ∃ first more, name.toList = first :: more ∧ isNameStart first = true ∧
      more.all isNameChar = true := by
  unfold Text.isName at isName
  cases chars : name.toList with
  | nil =>
    rw [chars] at isName
    cases isName
  | cons first more =>
    rw [chars] at isName
    exact ⟨first, more, rfl, (Bool.and_eq_true _ _).mp isName⟩

/-- A lexeme is a name only if it is an identifier. -/
def NamesIdentifier (read : Lexeme TokenKind) : Prop :=
  ∀ ⦃name length⦄, read = .ok (.name name, length) → isIdentifier name = true

namespace NamesIdentifier

theorem error (failure : ScanCause × Nat) : NamesIdentifier (.error failure) :=
  nofun

theorem symbol (mark : Symbol) (length : Nat) : NamesIdentifier (.ok (.symbol mark, length)) :=
  nofun

theorem twoCharLexeme (second : Char) (long short : Symbol) (rest : List Char) :
    NamesIdentifier (LineScript.twoCharLexeme second long short rest) := by
  unfold LineScript.twoCharLexeme
  split
  · exact symbol long 2
  · exact symbol short 1

theorem pairLexeme (first second : Char) (mark : Symbol) (rest : List Char) :
    NamesIdentifier (LineScript.pairLexeme first second mark rest) := by
  unfold LineScript.pairLexeme
  split
  · exact symbol mark 2
  · exact error _

theorem stringLexeme (quote : Char) (rest : List Char) :
    NamesIdentifier (LineScript.stringLexeme quote rest) := by
  unfold LineScript.stringLexeme
  split
  · exact nofun
  · exact error _

theorem numberLexeme (first : Char) (rest : List Char) :
    NamesIdentifier (LineScript.numberLexeme first rest) := by
  intro name length read
  unfold LineScript.numberLexeme at read
  simp only at read
  split at read
  · rename_i found
    cases read
    split_ifs at found
    · obtain ⟨value, -, other⟩ := Option.map_eq_some_iff.mp found
      cases other
    · obtain ⟨value, -, other⟩ := Option.map_eq_some_iff.mp found
      cases other
  · cases read

/-- A word is a name if it is no keyword, and no keyword is taken for a name. -/
theorem nameLexeme {first : Char} (starts : isNameStart first = true) (rest : List Char) :
    NamesIdentifier (LineScript.nameLexeme first rest) := by
  intro name length read
  unfold LineScript.nameLexeme at read
  simp only [Except.ok.injEq, Prod.mk.injEq] at read
  obtain ⟨kind, -⟩ := read
  cases keyword : keyword? (String.ofList (first :: rest.takeWhile isNameChar)) with
  | none =>
    rw [keyword] at kind
    cases kind
    unfold isIdentifier isName
    rw [keyword, String.toList_ofList, isNameChars, starts, List.all_takeWhile]
    rfl
  | some other =>
    rw [keyword] at kind
    cases kind
    unfold keyword? at keyword
    split_ifs at keyword <;> cases keyword

end NamesIdentifier

theorem namesIdentifier_lexeme (first : Char) (rest : List Char) :
    NamesIdentifier (lexeme first rest) := by
  fun_cases lexeme first rest with
  | case7 => exact .numberLexeme '.' rest
  | case9 => exact .twoCharLexeme '*' _ _ rest
  | case10 => exact .twoCharLexeme '/' _ _ rest
  | case11 => exact .twoCharLexeme '=' _ _ rest
  | case12 => exact .twoCharLexeme '=' _ _ rest
  | case13 => exact .twoCharLexeme '=' _ _ rest
  | case14 => exact .pairLexeme '=' '=' _ rest
  | case15 => exact .pairLexeme '&' '&' _ rest
  | case16 => exact .pairLexeme '|' '|' _ rest
  | case17 => exact .stringLexeme '"' rest
  | case18 => exact .stringLexeme '\'' rest
  | case19 _ digit =>
    rw [if_pos digit]
    exact .numberLexeme first rest
  | case20 _ noDigit starts =>
    rw [if_neg noDigit, if_pos starts]
    exact .nameLexeme starts rest
  | case21 _ noDigit noName =>
    rw [if_neg noDigit, if_neg noName]
    exact .error _
  | _ => exact .symbol _ 1

/-- Every name among the tokens of a text is an identifier. -/
theorem Scans.isIdentifier {position : Position} {own rest : List Char} {tokens : List Token}
    (walk : Scans position own rest tokens) {name : String}
    (member : .name name ∈ tokens.map Token.kind) : isIdentifier name = true := by
  induction walk with
  | nothing => cases member
  | gap _ _ inductionHypothesis => exact inductionHypothesis member
  | token _ read _ inductionHypothesis =>
    rcases List.mem_cons.mp member with same | later
    · cases same
      exact namesIdentifier_lexeme _ _ read
    · exact inductionHypothesis later

/-- An identifier is read as a name up to the first character that names do not have. -/
theorem scans_identifier {name : String} (identifier : isIdentifier name = true)
    (position : Position) {own : List Char} {tokens : List Token}
    (ends : own.head?.any isNameChar = false)
    (others : Scans (position.advance name.toList) own [] tokens) :
    Scans position (name.toList ++ own) []
      (⟨.name name, position.cover name.toList⟩ :: tokens) := by
  obtain ⟨isName, noKeyword⟩ := (Bool.and_eq_true _ _).mp identifier
  obtain ⟨first, more, chars, start, all⟩ := exists_of_isName isName
  have taken : (more ++ own).takeWhile isNameChar = more := by
    rw [List.takeWhile_append_of_pos (List.all_eq_true.mp all)]
    cases own with
    | nil => rw [List.takeWhile_nil, List.append_nil]
    | cons c own =>
      have stops : isNameChar c = false := ends
      rw [List.takeWhile_cons_of_neg (Bool.eq_false_iff.mp stops), List.append_nil]
  have word : String.ofList (first :: more) = name := by
    rw [← chars, String.ofList_toList]
  rw [chars] at others ⊢
  refine .token (isGap_of_class (by decide +kernel) start) ?_ others
  rw [List.append_nil, lexeme_of_isNameStart start, nameLexeme]
  simp only [taken, word, Option.isNone_iff_eq_none.mp noKeyword, List.length_cons]
  rfl

theorem scans_identifier_alone {name : String} (identifier : isIdentifier name = true)
    (position : Position) :
    Scans position name.toList [] [⟨.name name, position.cover name.toList⟩] := by
  have walk := scans_identifier identifier position rfl (.nothing _ [])
  rw [List.append_nil] at walk
  exact walk

/-- An identifier is the one token of its own text, and nothing else is. -/
theorem isIdentifier_iff_scan {name : String} :
    isIdentifier name = true ↔
      ∃ stream, scan name = .ok stream ∧ stream.tokens.map Token.kind = [.name name] := by
  constructor
  · intro identifier
    exact ⟨⟨_, _⟩, scan_eq_ok_iff.mpr ⟨scans_identifier_alone identifier .origin, rfl⟩, rfl⟩
  · rintro ⟨stream, scanned, kinds⟩
    refine (scan_eq_ok_iff.mp scanned).1.isIdentifier ?_
    rw [kinds]
    exact List.mem_singleton_self _

/-! ### Two names with a point between them -/

theorem toList_member (record field : String) :
    (record ++ "." ++ field).toList = record.toList ++ '.' :: field.toList := by
  rw [String.toList_append, String.toList_append, List.append_assoc]
  rfl

section Member

variable {record field : String} (identifier : isIdentifier record = true)
  (fieldIdentifier : isIdentifier field = true)

include fieldIdentifier

/-- A digit after the point would make them a number. -/
theorem lexeme_point : lexeme '.' field.toList = .ok (.symbol .dot, 1) := by
  obtain ⟨first, more, chars, start, -⟩ := exists_of_isName (isName_of_isIdentifier fieldIdentifier)
  have noDigit : isAsciiDigit first ≠ true := by
    intro digit
    rw [isNameStart_of_isAsciiDigit digit] at start
    cases start
  rw [chars]
  exact if_neg noDigit

include identifier

theorem scans_member :
    ∃ first point second, Scans .origin (record ++ "." ++ field).toList []
      [⟨.name record, first⟩, ⟨.symbol .dot, point⟩, ⟨.name field, second⟩] := by
  have ends : isNameChar '.' = false := by decide +kernel
  have point : lexeme '.' ([] ++ (field.toList ++ [])) = .ok (.symbol .dot, 1) := by
    rw [List.nil_append, List.append_nil]
    exact lexeme_point fieldIdentifier
  rw [toList_member]
  exact ⟨_, _, _, scans_identifier identifier .origin ends
    (.token rfl point (scans_identifier_alone fieldIdentifier _))⟩

theorem isWord_member : IsWord (record ++ "." ++ field) where
  filled := by
    intro empty
    have chars := toList_member record field
    rw [empty] at chars
    exact List.append_ne_nil_of_right_ne_nil _ (List.cons_ne_nil _ _) chars.symm
  solid := by
    intro c member
    rw [toList_member] at member
    rcases List.mem_append.mp member with inRecord | behind
    · exact (isWord_of_isIdentifier identifier).solid c inRecord
    · rcases List.mem_cons.mp behind with rfl | inField
      · decide
      · exact (isWord_of_isIdentifier fieldIdentifier).solid c inField

end Member

/-! ### Looking up -/

/-- A text that starts like a name does not start with a quote. -/
theorem quoted?_of_isNameStart {text : String} {first : Char} {more : List Char}
    (chars : text.toList = first :: more) (start : isNameStart first = true) :
    quoted? text = none := by
  rw [quoted?, chars]
  split
  · rename_i same
    cases same
    exact absurd start (by decide +kernel)
  · rfl

theorem evaluate_of_scans {text : String} (isWord : IsWord text) (unquoted : quoted? text = none)
    {tokens : List Token} (walk : Scans .origin text.toList [] tokens) {expr : Expr}
    (parsed : TokenStream.parse ⟨tokens, (Position.origin.advance text.toList).cover []⟩ = .ok expr)
    {bindings : Bindings} {value : Value} (known : expr.eval bindings = .ok value) :
    evaluate bindings text = .ok value := by
  rw [evaluate, isWord.isLineText.trimmed, evaluateTrimmed, unquoted, parseExpr_of_scans walk,
    parsed]
  simp only [Option.filter_none, known]

/-- An identifier is an expression that looks it up. A constant of the same name is not seen. -/
theorem evaluate_identifier {name : String} (identifier : isIdentifier name = true)
    {bindings : Bindings} {value : Value} (bound : bindings.lookup name = some value) :
    evaluate bindings name = .ok value := by
  obtain ⟨first, more, chars, start, -⟩ := exists_of_isName (isName_of_isIdentifier identifier)
  refine evaluate_of_scans (isWord_of_isIdentifier identifier)
    (quoted?_of_isNameStart chars start) (scans_identifier_alone identifier .origin) rfl ?_
  rw [Expr.eval, Bindings.value, bound, Option.some_or]

/-- Two identifiers with a point between them are an expression that looks up a field. -/
theorem evaluate_member {record field : String} (identifier : isIdentifier record = true)
    (fieldIdentifier : isIdentifier field = true) {bindings : Bindings} {value : Value}
    (bound : bindings.lookupField record field = some value) :
    evaluate bindings (record ++ "." ++ field) = .ok value := by
  obtain ⟨first, more, chars, start, -⟩ := exists_of_isName (isName_of_isIdentifier identifier)
  have text := toList_member record field
  rw [chars] at text
  obtain ⟨_, _, _, walk⟩ := scans_member identifier fieldIdentifier
  refine evaluate_of_scans (isWord_member identifier fieldIdentifier)
    (quoted?_of_isNameStart text start) walk rfl ?_
  rw [Expr.eval, Bindings.fieldValue, bound]

end LineScript
