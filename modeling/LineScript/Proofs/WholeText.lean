/-
This file shows how the text of a whole number is read back. There are no negative literals: the
text of a negative number is a minus sign and a literal, and the value is found by negating the
literal. So the literal has to be in range as well, which it is for all numbers but the least. The
function that turns a text into a number takes the sign and the digits together, and reads all of
them.
-/

import LineScript.Proofs.Exact
import LineScript.Proofs.LineText
import LineScript.Proofs.Walk

namespace LineScript

open Number Text

/-! ### The characters of a number -/

theorem toList_repr (n : Nat) : n.repr.toList = Nat.toDigits 10 n := by
  rw [Nat.repr_eq_ofList_toDigits, String.toList_ofList]

theorem toList_wholeText_of_nonneg {n : Int64} (natural : 0 ≤ n.toInt) :
    (wholeText n).toList = Nat.toDigits 10 n.toInt.toNat := by
  rw [wholeText, Int.toString_eq_repr, Int.repr_eq_if, if_pos natural, toList_repr]

theorem toList_wholeText_of_neg {n : Int64} (negative : n.toInt < 0) :
    (wholeText n).toList = '-' :: Nat.toDigits 10 (-n.toInt).toNat := by
  rw [wholeText, Int.toString_eq_repr, Int.repr_eq_if, if_neg (Int.not_le.mpr negative),
    String.toList_append, toList_repr]
  rfl

theorem exists_toDigits (n : Nat) :
    ∃ first more, Nat.toDigits 10 n = first :: more ∧ isAsciiDigit first = true ∧
      more.all isAsciiDigit = true := by
  have all := all_isAsciiDigit_toDigits n
  cases digits : Nat.toDigits 10 n with
  | nil => exact absurd digits Nat.toDigits_ne_nil
  | cons first more =>
    rw [digits] at all
    exact ⟨first, more, rfl, (Bool.and_eq_true _ _).mp (List.all_cons ▸ all)⟩

/-- The characters that numbers are written with are no blanks. -/
theorem blankRanges_signless : ∀ range ∈ blankRanges, ∀ point ∈ List.range' range.1
    (range.2 + 1 - range.1), point ≠ '-'.toNat ∧ ¬ ('0'.toNat ≤ point ∧ point ≤ '9'.toNat) := by
  decide +kernel

theorem isBlank_of_isAsciiDigit {c : Char} (digit : isAsciiDigit c = true) :
    isBlank c = false := by
  obtain ⟨low, high⟩ := (Bool.and_eq_true _ _).mp digit
  rw [Bool.eq_false_iff]
  intro blank
  exact (of_isBlank blankRanges_signless blank).2 ⟨of_decide_eq_true low, of_decide_eq_true high⟩

/-- The text of a number starts with a digit or a minus sign, and digits follow. -/
theorem exists_wholeText (n : Int64) :
    ∃ first more, (wholeText n).toList = first :: more ∧
      (first = '-' ∨ isAsciiDigit first = true) ∧ more.all isAsciiDigit = true := by
  by_cases natural : 0 ≤ n.toInt
  · obtain ⟨first, more, digits, starts, others⟩ := exists_toDigits n.toInt.toNat
    exact ⟨first, more, (toList_wholeText_of_nonneg natural).trans digits, .inr starts, others⟩
  · exact ⟨_, _, toList_wholeText_of_neg (Int.not_le.mp natural), .inl rfl,
      all_isAsciiDigit_toDigits _⟩

theorem isWord_wholeText (n : Int64) : IsWord (wholeText n) := by
  obtain ⟨first, more, chars, starts, digits⟩ := exists_wholeText n
  constructor
  · intro empty
    rw [empty] at chars
    cases chars
  · intro c member
    rw [chars] at member
    rcases List.mem_cons.mp member with rfl | later
    · rcases starts with rfl | digit
      · decide
      · exact isBlank_of_isAsciiDigit digit
    · exact isBlank_of_isAsciiDigit (List.all_eq_true.mp digits c later)

/-- The text of a number does not start with a quote, so it is read as an expression. -/
theorem quoted?_wholeText (n : Int64) : quoted? (wholeText n) = none := by
  obtain ⟨first, more, chars, starts, -⟩ := exists_wholeText n
  rw [quoted?, chars]
  rcases starts with rfl | digit
  · rfl
  · split
    · rename_i same
      cases same
      cases digit
    · rfl

/-! ### Sign and digits together -/

theorem readWhole?_wholeText (n : Int64) : readWhole? (wholeText n).toList = some n := by
  by_cases natural : 0 ≤ n.toInt
  · obtain ⟨first, more, digits, starts, -⟩ := exists_toDigits n.toInt.toNat
    have spells := readDigits?_toDigits n.toInt.toNat
    rw [toList_wholeText_of_nonneg natural, digits, readWhole?_of_isAsciiDigit starts, ← digits,
      spells, Option.bind_some, Int.toNat_of_nonneg natural, fit?_toInt]
  · have negative := Int.not_le.mp natural
    have spells := readDigits?_toDigits (-n.toInt).toNat
    have value : -((-n.toInt).toNat : Int) = n.toInt := by omega
    rw [toList_wholeText_of_neg negative, readWhole?, spells, Option.bind_some, value, fit?_toInt]

/-! ### Digits as a literal -/

theorem IsLexeme.scans {kind : TokenKind} {chars : List Char} (reads : IsLexeme kind chars)
    (position : Position) : Scans position chars [] [⟨kind, position.cover chars⟩] := by
  obtain ⟨first, more, rfl, noGap, read⟩ := reads
  have walk : Scans position (first :: (more ++ [])) [] [⟨kind, position.cover (first :: more)⟩] :=
    .token noGap (read [] .nil) (.nothing _ [])
  rw [List.append_nil] at walk
  exact walk

theorem parseExpr_of_scans {text : String} {tokens : List Token}
    (walk : Scans .origin text.toList [] tokens) :
    parseExpr text =
      TokenStream.parse ⟨tokens, (Position.origin.advance text.toList).cover []⟩ := by
  have scanned : scan text = .ok ⟨tokens, (Position.origin.advance text.toList).cover []⟩ :=
    scan_eq_ok_iff.mpr ⟨walk, rfl⟩
  rw [parseExpr, scanned]

/-- The text of a number that is not negative is its literal. -/
theorem parseExpr_wholeText_of_nonneg {n : Int64} (natural : 0 ≤ n) :
    ∃ span, parseExpr (wholeText n) = .ok (.int n span) :=
  ⟨_, parseExpr_of_scans ((isLexeme_whole natural).scans .origin)⟩

/-- The text of a negative number is a literal under a sign, if the opposite number is in range. -/
theorem parseExpr_wholeText_of_neg {n opposite : Int64} (negative : n.toInt < 0)
    (same : opposite.toInt = -n.toInt) :
    ∃ inner outer, parseExpr (wholeText n) = .ok (.unary .negate (.int opposite inner) outer) := by
  have positive : 0 ≤ opposite.toInt := by omega
  have natural : 0 ≤ opposite := Int64.le_iff_toInt_le.mpr positive
  have chars : (wholeText n).toList = '-' :: ([] ++ (wholeText opposite).toList) := by
    rw [toList_wholeText_of_neg negative, toList_wholeText_of_nonneg positive, same]
    rfl
  have walk : Scans .origin (wholeText n).toList []
      [⟨.symbol (.arithmetic .subtract), Position.origin.cover ['-']⟩,
        ⟨.int opposite,
          (Position.origin.advance ['-']).cover (wholeText opposite).toList⟩] := by
    rw [chars]
    exact .token rfl rfl ((isLexeme_whole natural).scans _)
  exact ⟨_, _, parseExpr_of_scans walk⟩

/-! ### Numbers that are read back -/

theorem callFunction_int (value : Value) : callFunction "int" [value] = toInt value := rfl

theorem evaluate_wholeText {bindings : Bindings} {n : Int64} {expr : Expr}
    (parsed : parseExpr (wholeText n) = .ok expr) (value : expr.eval bindings = .ok (.int n)) :
    evaluate bindings (wholeText n) = .ok (.int n) := by
  rw [evaluate, (isWord_wholeText n).isLineText.trimmed, evaluateTrimmed, quoted?_wholeText, parsed]
  simp only [Option.filter_none, value]

theorem evaluate_wholeText_of_ne {n : Int64} (inside : n ≠ Int64.minValue) (bindings : Bindings) :
    evaluate bindings (wholeText n) = .ok (.int n) := by
  by_cases natural : 0 ≤ n.toInt
  · obtain ⟨span, parsed⟩ := parseExpr_wholeText_of_nonneg (Int64.le_iff_toInt_le.mpr natural)
    exact evaluate_wholeText parsed rfl
  · have opposite : (Int64.ofInt (-n.toInt)).toInt = -n.toInt := by
      have above : n.toInt ≠ -2 ^ 63 := by
        rw [← Int64.toInt_minValue]
        exact mt Int64.toInt_inj.mp inside
      have range := fits_toInt n
      refine toInt_ofInt_of_fits ?_
      unfold Fits at *
      omega
    obtain ⟨inner, outer, parsed⟩ := parseExpr_wholeText_of_neg (Int.not_le.mp natural) opposite
    refine evaluate_wholeText parsed ?_
    have negated : Sign.apply .negate (.int (Int64.ofInt (-n.toInt))) = .ok (.int n) := by
      rw [Sign.apply, opposite, Int.neg_neg, wholeValue_toInt]
    exact congrArg lift negated

/-- The text of the least number has a literal that is out of range. -/
theorem evaluate_wholeText_minValue (bindings : Bindings) :
    evaluate bindings (wholeText Int64.minValue) =
      .error ⟨.malformed (.unscannable ⟨.invalidNumber "9223372036854775808", ⟨1, 20, 1, 2⟩⟩),
        "-9223372036854775808", none⟩ := by
  have scanned : scan (wholeText Int64.minValue) =
      .error ⟨.invalidNumber "9223372036854775808", ⟨1, 20, 1, 2⟩⟩ := by
    decide +kernel
  have text : wholeText Int64.minValue = "-9223372036854775808" := by decide +kernel
  rw [evaluate, (isWord_wholeText _).isLineText.trimmed, evaluateTrimmed, quoted?_wholeText,
    parseExpr, scanned, text]
  rfl

/-- The text of a whole number is read back as this number, by evaluation and by conversion. Only
the evaluation of the least number's text fails, for its digits alone are out of range. -/
theorem whole_read_back (bindings : Bindings) (n : Int64) :
    evaluate bindings (Value.int n).text =
        (if n = Int64.minValue then
          .error ⟨.malformed (.unscannable ⟨.invalidNumber "9223372036854775808", ⟨1, 20, 1, 2⟩⟩),
            "-9223372036854775808", none⟩
        else .ok (.int n)) ∧
      callFunction "int" [.string (Value.int n).text] = .ok (.int n) := by
  constructor
  · split_ifs with least
    · rw [least]
      exact evaluate_wholeText_minValue bindings
    · exact evaluate_wholeText_of_ne least bindings
  · rw [callFunction_int, Value.text, toInt, (isWord_wholeText n).isLineText.trimmed,
      readWhole?_wholeText]

/-- The least number is the value of an expression, and yet its text has no value. -/
theorem least_not_read_back :
    evaluate .empty "-9223372036854775807 - 1" = .ok (.int Int64.minValue) ∧
      (Value.int Int64.minValue).text = "-9223372036854775808" ∧
      evaluate .empty "-9223372036854775808" ≠ .ok (.int Int64.minValue) := by
  decide +kernel

end LineScript
