/-
This file compares the two ways in which a text between double quotes is evaluated. On its own it is
taken as it is, and nothing in it is looked at. Inside parentheses it is scanned as a literal, and
its escapes are read. Without a backslash both give the same text. With one they never do: an escape
is longer than what it stands for, so the literal is shorter than the text, unless it is no literal
at all because an escape is unknown or the last backslash takes the closing quote.
-/

import LineScript.Proofs.ShownText
import LineScript.Proofs.WholeText

namespace LineScript

open Text

/-! ### Escapes read back -/

/-- What the characters of a literal stand for. There is nothing for an escape that is unknown or
not finished. -/
def unescaped? : List Char → Option (List Char)
  | [] => some []
  | c :: rest =>
    if c = '\\' then
      match rest with
      | [] => none
      | letter :: rest => (escape? letter).bind fun escaped => (unescaped? rest).map (escaped :: ·)
    else (unescaped? rest).map (c :: ·)

theorem unescaped?_of_plain {chars : List Char} (plain : '\\' ∉ chars) :
    unescaped? chars = some chars := by
  fun_induction unescaped? chars with
  | case1 => rfl
  | case2 => exact absurd List.mem_cons_self plain
  | case3 => exact absurd List.mem_cons_self plain
  | case4 c rest _ inductionHypothesis =>
    rw [inductionHypothesis (List.not_mem_of_not_mem_cons plain), Option.map_some]

/-- An escape is longer than what it stands for. -/
theorem length_unescaped? {chars text : List Char} (read : unescaped? chars = some text) :
    text.length ≤ chars.length ∧ ('\\' ∈ chars → text.length < chars.length) := by
  fun_induction unescaped? chars generalizing text with
  | case1 =>
    cases read
    exact ⟨Nat.le_refl _, fun absent => absurd absent List.not_mem_nil⟩
  | case2 => cases read
  | case3 letter rest inductionHypothesis =>
    obtain ⟨escaped, -, readRest⟩ := Option.bind_eq_some_iff.mp read
    obtain ⟨others, known, rfl⟩ := Option.map_eq_some_iff.mp readRest
    have shorter := (inductionHypothesis known).1
    simp only [List.length_cons]
    omega
  | case4 c rest other inductionHypothesis =>
    obtain ⟨others, known, rfl⟩ := Option.map_eq_some_iff.mp read
    obtain ⟨short, shorter⟩ := inductionHypothesis known
    refine ⟨Nat.succ_le_succ short, fun inside => Nat.succ_lt_succ (shorter ?_)⟩
    exact (List.mem_cons.mp inside).resolve_left (Ne.symm other)

/-- Exactly the characters without a backslash stand for themselves. -/
theorem unescaped?_eq_self_iff {chars : List Char} :
    unescaped? chars = some chars ↔ '\\' ∉ chars :=
  ⟨fun read inside => Nat.lt_irrefl _ ((length_unescaped? read).2 inside), unescaped?_of_plain⟩

/-! ### Literals -/

theorem stringBody_unknown {quote letter : Char} (other : '\\' ≠ quote)
    (unknown : escape? letter = none) (rest : List Char) :
    stringBody quote ('\\' :: letter :: rest) = .error (.invalidEscape letter, 1) := by
  rw [stringBody, if_neg other, if_pos rfl, unknown]

theorem stringBody_of_unescaped? {chars text : List Char} (closed : '"' ∉ chars)
    (read : unescaped? chars = some text) (rest : List Char) :
    stringBody '"' (chars ++ '"' :: rest) = .ok (text, chars.length + 1) := by
  fun_induction unescaped? chars generalizing text with
  | case1 =>
    cases read
    exact stringBody_quote '"' rest
  | case2 => cases read
  | case3 letter others inductionHypothesis =>
    obtain ⟨escaped, stands, readOthers⟩ := Option.bind_eq_some_iff.mp read
    obtain ⟨text, known, rfl⟩ := Option.map_eq_some_iff.mp readOthers
    have later := List.not_mem_of_not_mem_cons (List.not_mem_of_not_mem_cons closed)
    rw [List.cons_append, List.cons_append, stringBody_escape (by decide) stands,
      inductionHypothesis later known]
    exact congrArg (fun length => Except.ok (escaped :: text, length)) (Nat.add_comm 2 _)
  | case4 c others other inductionHypothesis =>
    obtain ⟨text, known, rfl⟩ := Option.map_eq_some_iff.mp read
    obtain ⟨first, later⟩ := List.ne_and_not_mem_of_not_mem_cons closed
    rw [List.cons_append, stringBody_plain first.symm other, inductionHypothesis later known]
    exact congrArg (fun length => Except.ok (c :: text, length)) (Nat.add_comm 1 _)

theorem exists_error_cons {read : Lexeme (List Char)} (failed : ∃ failure, read = .error failure)
    (c : Char) (length : Nat) : ∃ failure, Lexeme.cons c length read = .error failure := by
  obtain ⟨⟨cause, more⟩, rfl⟩ := failed
  exact ⟨_, rfl⟩

/-- A literal that is never closed is not read. -/
theorem stringBody_unclosed {rest : List Char} (unclosed : '"' ∉ rest) :
    ∃ failure, stringBody '"' rest = .error failure := by
  fun_induction stringBody '"' rest with
  | case1 => exact ⟨_, rfl⟩
  | case2 => exact absurd List.mem_cons_self unclosed
  | case3 => exact ⟨_, rfl⟩
  | case4 letter rest escaped _ _ inductionHypothesis =>
    have later := List.not_mem_of_not_mem_cons (List.not_mem_of_not_mem_cons unclosed)
    exact exists_error_cons (inductionHypothesis later) escaped 2
  | case5 => exact ⟨_, rfl⟩
  | case6 c rest _ _ inductionHypothesis =>
    exact exists_error_cons (inductionHypothesis (List.not_mem_of_not_mem_cons unclosed)) c 1

/-- If an escape is unknown there is no literal, and none if the last backslash takes the closing
quote and no other one follows. -/
theorem stringBody_of_unescaped?_eq_none {chars rest : List Char} (closed : '"' ∉ chars)
    (unread : unescaped? chars = none) (unclosed : '"' ∉ rest) :
    ∃ failure, stringBody '"' (chars ++ '"' :: rest) = .error failure := by
  fun_induction unescaped? chars with
  | case1 => cases unread
  | case2 =>
    rw [List.cons_append, List.nil_append, stringBody_escape (by decide) rfl]
    exact exists_error_cons (stringBody_unclosed unclosed) _ _
  | case3 letter others inductionHypothesis =>
    have later := List.not_mem_of_not_mem_cons (List.not_mem_of_not_mem_cons closed)
    rw [List.cons_append, List.cons_append]
    cases stands : escape? letter with
    | none => exact ⟨_, stringBody_unknown (by decide) stands _⟩
    | some escaped =>
      rw [stands, Option.bind_some, Option.map_eq_none_iff] at unread
      rw [stringBody_escape (by decide) stands]
      exact exists_error_cons (inductionHypothesis later unread) escaped 2
  | case4 c others other inductionHypothesis =>
    rw [Option.map_eq_none_iff] at unread
    obtain ⟨first, later⟩ := List.ne_and_not_mem_of_not_mem_cons closed
    rw [List.cons_append, stringBody_plain first.symm other]
    exact exists_error_cons (inductionHypothesis later unread) c 1

/-! ### Texts in parentheses -/

/-- A text between double quotes and parentheses. -/
def parenthesised (text : String) : String :=
  "(" ++ doubleQuoted text ++ ")"

theorem toList_parenthesised (text : String) :
    (parenthesised text).toList = '(' :: ('"' :: (text.toList ++ ['"']) ++ [')']) := by
  simp only [parenthesised, String.toList_append, toList_doubleQuoted]
  rfl

theorem trim_doubleQuoted (text : String) : trim (doubleQuoted text) = doubleQuoted text := by
  rw [trim_eq_self_iff, toList_doubleQuoted]
  exact isTrimmed_of_ends (by decide) (by decide) _

theorem trim_parenthesised (text : String) : trim (parenthesised text) = parenthesised text := by
  rw [trim_eq_self_iff, toList_parenthesised]
  exact isTrimmed_of_ends (by decide) (by decide) _

theorem quoted?_parenthesised (text : String) : quoted? (parenthesised text) = none := by
  rw [quoted?, toList_parenthesised]
  rfl

section Literal

variable {text : String} (closed : '"' ∉ text.toList)

include closed

/-- Between parentheses, a text stands for what its escapes say. -/
theorem parseExpr_parenthesised {chars : List Char} (read : unescaped? text.toList = some chars) :
    ∃ inner outer, parseExpr (parenthesised text) =
      .ok (.group (.string (String.ofList chars) inner) outer) := by
  have literal : lexeme '"' (text.toList ++ ['"'] ++ ([')'] ++ [])) =
      .ok (.string (String.ofList chars), (text.toList ++ ['"']).length + 1) := by
    have body := stringBody_of_unescaped? closed read [')']
    rw [List.append_assoc, List.length_append]
    show stringLexeme '"' (text.toList ++ '"' :: [')']) = _
    rw [stringLexeme, body]
    rfl
  have ending (position : Position) : Scans position (')' :: ([] ++ [])) [] _ :=
    .token rfl rfl (.nothing _ [])
  have walk : Scans .origin ('(' :: ([] ++ ('"' :: (text.toList ++ ['"'] ++ [')'])))) [] _ :=
    .token rfl rfl (.token rfl literal (ending _))
  rw [List.nil_append, ← List.cons_append, ← toList_parenthesised] at walk
  rw [parseExpr_of_scans walk]
  exact ⟨_, _, rfl⟩

/-- A text that is no literal is no expression in parentheses either. -/
theorem parseExpr_parenthesised_eq_error (unread : unescaped? text.toList = none) :
    ∃ error, parseExpr (parenthesised text) = .error error := by
  obtain ⟨⟨cause, length⟩, body⟩ :=
    stringBody_of_unescaped?_eq_none closed unread (show '"' ∉ [')'] by decide)
  have literal : lexeme '"' (text.toList ++ ['"'] ++ [')']) = .error (cause, length + 1) := by
    rw [List.append_assoc]
    show stringLexeme '"' (text.toList ++ '"' :: [')']) = _
    rw [stringLexeme, body]
  have inner (position : Position) : ∃ error,
      tokensFrom 0 position ('"' :: (text.toList ++ ['"']) ++ [')']) = .error error := by
    rw [List.cons_append, tokensFrom, if_neg (by decide), literal]
    exact ⟨_, rfl⟩
  obtain ⟨error, failed⟩ := inner (Position.origin.next '(')
  refine ⟨.unscannable error, ?_⟩
  have opened : lexeme '(' ('"' :: (text.toList ++ ['"']) ++ [')']) =
    .ok (.symbol .leftParen, 1) := rfl
  rw [parseExpr, scan, toList_parenthesised, tokensFrom, if_neg (by decide), opened]
  simp only [Nat.sub_self, failed]

end Literal

theorem evaluate_doubleQuoted_of_closed {text : String} (closed : '"' ∉ text.toList)
    (bindings : Bindings) : evaluate bindings (doubleQuoted text) = .ok (.string text) := by
  rw [evaluate, trim_doubleQuoted, evaluateTrimmed, quoted?_doubleQuoted]
  simp [Option.filter_some, closed]

/-- In parentheses, a text has the value that its escapes say, or none. -/
theorem evaluate_parenthesised_eq_ok_iff {text : String} (closed : '"' ∉ text.toList)
    {bindings : Bindings} {value : Value} :
    evaluate bindings (parenthesised text) = .ok value ↔
      ∃ chars, unescaped? text.toList = some chars ∧ value = .string (String.ofList chars) := by
  rw [evaluate, trim_parenthesised, evaluateTrimmed, quoted?_parenthesised]
  cases read : unescaped? text.toList with
  | none =>
    obtain ⟨error, failed⟩ := parseExpr_parenthesised_eq_error closed read
    simp [failed]
  | some chars =>
    obtain ⟨inner, outer, parsed⟩ := parseExpr_parenthesised closed read
    simp [parsed, Expr.eval, eq_comm]

/-- A text between double quotes without one inside is taken as it is. It has the same value in
parentheses, where it is read as a literal, exactly if it holds no backslash. -/
theorem parentheses_keep_iff_no_backslash {text : String} (closed : '"' ∉ text.toList)
    (bindings : Bindings) :
    evaluate bindings (doubleQuoted text) = .ok (.string text) ∧
      (evaluate bindings (parenthesised text) = evaluate bindings (doubleQuoted text) ↔
        '\\' ∉ text.toList) := by
  have bypass := evaluate_doubleQuoted_of_closed closed bindings
  refine ⟨bypass, ?_⟩
  rw [bypass, evaluate_parenthesised_eq_ok_iff closed, ← unescaped?_eq_self_iff]
  constructor
  · rintro ⟨chars, read, same⟩
    rw [read, Value.string.inj same, String.toList_ofList]
  · intro read
    exact ⟨text.toList, read, congrArg Value.string String.ofList_toList.symm⟩

/-- Line breaks and letters of several bytes stay, and a backslash at the end makes a difference. -/
theorem parentheses_keep_line_break :
    '"' ∉ "zwölf\n€ \\".toList ∧
      evaluate .empty (doubleQuoted "zwölf\n€ \\") = .ok (.string "zwölf\n€ \\") ∧
      (evaluate .empty (parenthesised "zwölf\n€ \\") =
          evaluate .empty (doubleQuoted "zwölf\n€ \\") ↔
        '\\' ∉ "zwölf\n€ \\".toList) :=
  have closed : '"' ∉ "zwölf\n€ \\".toList := by decide
  ⟨closed, parentheses_keep_iff_no_backslash closed .empty⟩

end LineScript
