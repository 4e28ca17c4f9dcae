/-
This file says what aliasing leaves alone. In a stretch between literals only a key that stands
there as a word is replaced, so the word `show` and the blank after it stay if no alias is for
`show`. A literal is copied. The characters inside it are passed one by one, up to the quote that
closes it, and a character after a backslash closes nothing.
-/

import LineScript.Proofs.Lexeme
import LineScript.Proofs.SourceLines

namespace LineScript

open Text

/-! ### Stretches -/

/-- An alias stands in a stretch: its key is found there with a word boundary on both sides. -/
def Alias.StandsIn (candidate : Alias) (stretch : List Char) : Prop :=
  ∃ front back, stretch = front ++ (candidate.key ++ back) ∧
    candidate.matchesAt front.getLast? (candidate.key ++ back) = true

theorem Alias.StandsIn.key_subset {candidate : Alias} {stretch : List Char}
    (stands : candidate.StandsIn stretch) : candidate.key ⊆ stretch := by
  obtain ⟨front, back, rfl, -⟩ := stands
  exact fun c member => List.mem_append_right _ (List.mem_append_left _ member)

/-- None of the aliases stands in a stretch. -/
def AbsentFrom (aliases : List Alias) (stretch : List Char) : Prop :=
  ∀ candidate ∈ aliases, ¬ candidate.StandsIn stretch

theorem AbsentFrom.findAlias? {aliases : List Alias} {front rest : List Char}
    (absent : AbsentFrom aliases (front ++ rest)) :
    findAlias? aliases front.getLast? rest = none := by
  cases search : LineScript.findAlias? aliases front.getLast? rest with
  | none => rfl
  | some found =>
    have matched := List.find?_some search
    have starts : found.key.isPrefixOf rest = true := by
      simp only [Alias.matchesAt, Bool.and_eq_true] at matched
      exact matched.1.1
    obtain ⟨back, rfl⟩ := List.isPrefixOf_iff_prefix.mp starts
    exact absurd ⟨front, back, rfl, matched⟩ (absent found (List.mem_of_find?_eq_some search))

/-- What is behind some characters of a stretch stays as it is, if no alias stands in it. -/
theorem AbsentFrom.substituteFrom {aliases : List Alias} (front rest : List Char)
    (absent : AbsentFrom aliases (front ++ rest)) (ended : Bool) :
    substituteFrom aliases 0 front.getLast? ended rest = rest := by
  -- The characters in front are kept, since a boundary looks back at the last of them.
  induction rest generalizing front ended with
  | nil => rw [LineScript.substituteFrom, absent.findAlias?]
  | cons c rest inductionHypothesis =>
    have later : AbsentFrom aliases ((front ++ [c]) ++ rest) := by
      rw [List.append_assoc]
      exact absent
    have read := inductionHypothesis (front ++ [c]) later false
    rw [List.getLast?_concat] at read
    rw [LineScript.substituteFrom, absent.findAlias?]
    exact congrArg (c :: ·) read

theorem AbsentFrom.substitute_eq {aliases : List Alias} {stretch : List Char}
    (absent : AbsentFrom aliases stretch) : substitute aliases stretch = stretch :=
  AbsentFrom.substituteFrom [] stretch absent false

/-! ### Aliases that leave `show` alone -/

/-- Aliases that are for words, and not for `show`. -/
def KeepShow (aliases : List Alias) : Prop :=
  ∀ candidate ∈ aliases, candidate.key ≠ [] ∧ candidate.key ≠ "show".toList

theorem keepShow_of_validate {settings : Settings} (accepted : settings.validate = .ok settings)
    (free : "show" ∉ settings.aliases.entries.map Prod.fst) :
    KeepShow (aliasList settings.aliases) := by
  intro candidate member
  obtain ⟨entry, inTable, rfl⟩ := List.mem_map.mp member
  have name := ((Bool.and_eq_true _ _).mp (isWordPair_of_validate accepted inTable)).1
  refine ⟨toList_ne_nil (ne_empty_of_isName name), fun same => free ?_⟩
  exact String.toList_inj.mp same ▸ List.mem_map_of_mem inTable

/-- The word boundaries of `show` and a blank are the ends of the word. -/
theorem boundaries_of_show : ∀ i < 6, ∀ j < 6,
    isBoundary ("show ".toList.take i).getLast? ("show ".toList.drop i).head? = true →
    isBoundary ((("show ".toList.drop i).take j).getLast?.or ("show ".toList.take i).getLast?)
      ("show ".toList.drop (i + j)).head? = true →
    j = 0 ∨ ("show ".toList.drop i).take j = "show".toList := by
  decide +kernel

theorem KeepShow.absentFrom_show {aliases : List Alias} (keep : KeepShow aliases) :
    AbsentFrom aliases "show ".toList := by
  rintro candidate member ⟨front, back, same, matched⟩
  obtain ⟨filled, other⟩ := keep candidate member
  have size : 5 = front.length + (candidate.key.length + back.length) := by
    rw [← List.length_append, ← List.length_append, ← same]
    rfl
  have ends := boundaries_of_show front.length (by omega) candidate.key.length (by omega)
  simp only [Alias.matchesAt, Bool.and_eq_true, List.drop_left] at matched
  simp only [same, List.take_left, List.drop_left, List.drop_length_add_append] at ends
  rcases ends matched.1.2 matched.2 with empty | shown
  · exact filled (List.length_eq_zero_iff.mp empty)
  · exact other shown

theorem KeepShow.inForce [PatternEngine] {aliases : Table String}
    (keep : KeepShow (aliasList aliases)) : KeepShow (aliasList (aliasesInForce aliases)) :=
  fun candidate member => keep candidate (aliasList_aliasesInForce_subset member)

theorem KeepShow.absentFrom_nil {aliases : List Alias} (keep : KeepShow aliases) :
    AbsentFrom aliases [] := by
  rintro candidate member ⟨front, back, same, -⟩
  have parts := List.append_eq_nil_iff.mp same.symm
  exact (keep candidate member).1 (List.append_eq_nil_iff.mp parts.2).1

/-! ### The walk through a line -/

/-- The rest of a line with its aliases replaced. -/
def aliased (aliases : List Alias) (place : Place) (chars : List Char) : List Char :=
  (piecesFrom place chars).flatMap (Piece.substitute aliases)

/-- Where no alias stands in a stretch between literals, nothing is changed. -/
theorem aliased_of_absent {aliases : List Alias} {place : Place} {chars : List Char}
    (absent : ∀ stretch, .code stretch ∈ piecesFrom place chars → AbsentFrom aliases stretch) :
    aliased aliases place chars = chars := by
  have same : ∀ piece ∈ piecesFrom place chars, piece.substitute aliases = piece.chars := by
    intro piece member
    cases piece with
    | code stretch => exact (absent stretch member).substitute_eq
    | literal chars => rfl
  rw [aliased, List.flatMap_congr same, flatMap_chars_piecesFrom]

theorem toList_applyAliases [PatternEngine] (aliases : Table String) (line : String) :
    (applyAliases aliases line).toList =
      aliased (aliasList (aliasesInForce aliases)) .code line.toList := by
  unfold applyAliases rewriteLine
  split
  · rename_i empty
    have none : aliasList (aliasesInForce aliases) = [] := by
      rw [aliasList, List.isEmpty_iff.mp empty, List.map_nil]
    rw [none, aliased_of_absent fun _ _ _ member => absurd member List.not_mem_nil]
  · rw [String.toList_ofList, aliased]

theorem toList_applyAliases_of_built [PatternEngine] {aliases : Table String}
    (built : aliasRefusal? aliases = none) (line : String) :
    (applyAliases aliases line).toList = aliased (aliasList aliases) .code line.toList := by
  rw [toList_applyAliases, aliasesInForce_of_built built]

theorem Place.literal_ne_code (quote : Char) : Place.literal quote ≠ .code := nofun

theorem Place.escaped_ne_code (quote : Char) : Place.escaped quote ≠ .code := nofun

/-- Inside a literal the next piece is the literal itself. -/
theorem piecesFrom_literal {place : Place} (inside : place ≠ .code) (chars : List Char) :
    ∃ first rest, piecesFrom place chars = .literal first :: rest := by
  induction chars generalizing place with
  | nil => cases place with
    | code => exact absurd rfl inside
    | literal quote => exact ⟨[], [], rfl⟩
    | escaped quote => exact ⟨[], [], rfl⟩
  | cons c chars inductionHypothesis =>
    have longer : ∀ {next : Place}, next ≠ .code →
        ∃ first rest, consFirst c (piecesFrom next chars) = .literal first :: rest := by
      intro next stays
      obtain ⟨first, rest, same⟩ := inductionHypothesis stays
      exact ⟨c :: first, rest, by rw [same]; rfl⟩
    cases place with
    | code => exact absurd rfl inside
    | literal quote =>
      rw [piecesFrom]
      split
      · exact longer (Place.escaped_ne_code quote)
      · split
        · exact ⟨[c], _, rfl⟩
        · exact longer (Place.literal_ne_code quote)
    | escaped quote => exact longer (Place.literal_ne_code quote)

variable {aliases : List Alias} {quote : Char}

/-- A character in front of the rest of a literal is copied. -/
theorem flatMap_consFirst (place : Place) (inside : place ≠ .code) (c : Char) (chars : List Char) :
    (consFirst c (piecesFrom place chars)).flatMap (Piece.substitute aliases) =
      c :: aliased aliases place chars := by
  obtain ⟨first, rest, same⟩ := piecesFrom_literal inside chars
  rw [aliased, same]
  rfl

theorem aliased_escaped_cons (c : Char) (rest : List Char) :
    aliased aliases (.escaped quote) (c :: rest) = c :: aliased aliases (.literal quote) rest := by
  rw [aliased, piecesFrom]
  exact flatMap_consFirst (.literal quote) (Place.literal_ne_code quote) c rest

theorem aliased_backslash (rest : List Char) :
    aliased aliases (.literal quote) ('\\' :: rest) =
      '\\' :: aliased aliases (.escaped quote) rest := by
  rw [aliased, piecesFrom, if_pos rfl]
  exact flatMap_consFirst (.escaped quote) (Place.escaped_ne_code quote) '\\' rest

theorem aliased_plain {c : Char} (plain : c ≠ '\\') (other : c ≠ quote) (rest : List Char) :
    aliased aliases (.literal quote) (c :: rest) = c :: aliased aliases (.literal quote) rest := by
  rw [aliased, piecesFrom, if_neg plain, if_neg other]
  exact flatMap_consFirst (.literal quote) (Place.literal_ne_code quote) c rest

theorem aliased_closing (quotes : isQuote quote = true) (rest : List Char) :
    aliased aliases (.literal quote) (quote :: rest) = quote :: aliased aliases .code rest := by
  have plain := ne_backslash_of_isQuote quotes
  rw [aliased, piecesFrom, if_neg plain, if_pos rfl]
  rfl

theorem aliased_closing_nil (keep : KeepShow aliases) (quotes : isQuote quote = true) :
    aliased aliases (.literal quote) [quote] = [quote] := by
  have nothing : aliased aliases .code [] = [] := by
    refine aliased_of_absent fun stretch member => ?_
    cases List.mem_singleton.mp member
    exact keep.absentFrom_nil
  rw [aliased_closing quotes, nothing]

/-- Characters of which none opens a literal. -/
def QuoteFree (chars : List Char) : Prop :=
  ∀ c ∈ chars, isQuote c = false

/-- Characters that open no literal lengthen the stretch they stand in front of. -/
theorem piecesFrom_code {front : List Char} (free : QuoteFree front) {rest stretch : List Char}
    {pieces : List Piece} (cut : piecesFrom .code rest = .code stretch :: pieces) :
    piecesFrom .code (front ++ rest) = .code (front ++ stretch) :: pieces := by
  induction front with
  | nil => exact cut
  | cons c front inductionHypothesis =>
    obtain ⟨first, others⟩ := List.forall_mem_cons.mp free
    rw [List.cons_append, piecesFrom, first, inductionHypothesis others]
    rfl

/-- In front of a literal, the stretch is a piece of its own. -/
theorem aliased_opening (quotes : isQuote quote = true) {front : List Char}
    (free : QuoteFree front) (rest : List Char) :
    aliased aliases .code (front ++ quote :: rest) =
      substitute aliases front ++ quote :: aliased aliases (.literal quote) rest := by
  have opened : piecesFrom .code (quote :: rest) =
      .code [] :: consFirst quote (piecesFrom (.literal quote) rest) := by
    rw [piecesFrom, if_pos quotes]
  rw [aliased, piecesFrom_code free opened, List.append_nil, List.flatMap_cons]
  exact congrArg (substitute aliases front ++ ·)
    (flatMap_consFirst (.literal quote) (Place.literal_ne_code quote) quote rest)

theorem aliased_opening_nil (keep : KeepShow aliases) (quotes : isQuote quote = true)
    (rest : List Char) :
    aliased aliases .code (quote :: rest) = quote :: aliased aliases (.literal quote) rest := by
  have opened : aliased aliases .code (quote :: rest) = _ :=
    aliased_opening quotes (List.forall_mem_nil _) rest
  rw [opened, keep.absentFrom_nil.substitute_eq, List.nil_append]

/-! ### Literals -/

/-- An escaped character is copied, and the literal goes on. -/
theorem aliased_escapedChar (quote c : Char) (rest : List Char) :
    aliased aliases (.literal quote) (escapedChar quote c ++ rest) =
      escapedChar quote c ++ aliased aliases (.literal quote) rest := by
  have pair : ∀ letter, aliased aliases (.literal quote) ('\\' :: letter :: rest) =
      '\\' :: letter :: aliased aliases (.literal quote) rest := fun letter => by
    rw [aliased_backslash, aliased_escaped_cons]
  fun_cases escapedChar quote c with
  | case1 => exact pair '\\'
  | case2 => exact pair quote
  | case3 => exact pair 'n'
  | case4 => exact pair 'r'
  | case5 plain other => exact aliased_plain plain other rest

/-- A string that is written with escapes is one literal, and stays as it is. -/
theorem aliased_escaped (keep : KeepShow aliases) (quotes : isQuote quote = true)
    (chars : List Char) :
    aliased aliases (.literal quote) (escaped quote chars ++ [quote]) =
      escaped quote chars ++ [quote] := by
  induction chars with
  | nil => exact aliased_closing_nil keep quotes
  | cons c chars inductionHypothesis =>
    rw [escaped_cons, List.append_assoc, aliased_escapedChar, inductionHypothesis]

/-- A literal without its own quote inside stays as it is, even if its last character is a
backslash and the closing quote does not count. -/
theorem aliased_of_not_mem (keep : KeepShow aliases) (quotes : isQuote quote = true)
    {chars : List Char} (free : quote ∉ chars) :
    aliased aliases (.literal quote) (chars ++ [quote]) = chars ++ [quote] ∧
      aliased aliases (.escaped quote) (chars ++ [quote]) = chars ++ [quote] := by
  -- A backslash leads from one place to the other, so both are shown together.
  induction chars with
  | nil =>
    refine ⟨aliased_closing_nil keep quotes, ?_⟩
    rw [List.nil_append, aliased_escaped_cons]
    rfl
  | cons c chars inductionHypothesis =>
    obtain ⟨other, later⟩ := not_or.mp (mt List.mem_cons.mpr free)
    obtain ⟨inLiteral, afterBackslash⟩ := inductionHypothesis later
    constructor
    · by_cases backslash : c = '\\'
      · subst backslash
        rw [List.cons_append, aliased_backslash, afterBackslash]
      · rw [List.cons_append, aliased_plain backslash (Ne.symm other), inLiteral]
    · rw [List.cons_append, aliased_escaped_cons, inLiteral]

/-! ### The last quote -/

/-- Pieces whose last literal ends in a quote, with no code after it. -/
def EndInQuote (quote : Char) (pieces : List Piece) : Prop :=
  ∃ front chars back, pieces = front ++ .literal (chars ++ [quote]) :: back ∧
    (back = [] ∨ back = [.code []])

theorem EndInQuote.cons {pieces : List Piece} (ends : EndInQuote quote pieces) (piece : Piece) :
    EndInQuote quote (piece :: pieces) := by
  obtain ⟨front, chars, back, rfl, last⟩ := ends
  exact ⟨piece :: front, chars, back, rfl, last⟩

theorem EndInQuote.consFirst {pieces : List Piece} (ends : EndInQuote quote pieces) (c : Char) :
    EndInQuote quote (consFirst c pieces) := by
  obtain ⟨front, chars, back, rfl, last⟩ := ends
  cases front with
  | nil => exact ⟨[], c :: chars, back, rfl, last⟩
  | cons piece front => exact ⟨piece.cons c :: front, chars, back, rfl, last⟩

/-- A quote at the end of a line belongs to a literal: it closes it, or opens it, or stands in
it. -/
theorem endInQuote_piecesFrom (quotes : isQuote quote = true) (place : Place)
    (chars : List Char) : EndInQuote quote (piecesFrom place (chars ++ [quote])) := by
  have plain := ne_backslash_of_isQuote quotes
  induction chars generalizing place with
  | nil =>
    rw [List.nil_append]
    cases place with
    | code =>
      rw [piecesFrom, if_pos quotes]
      exact ⟨[.code []], [], [], rfl, .inl rfl⟩
    | literal other =>
      rw [piecesFrom, if_neg plain]
      split
      · exact ⟨[], [], [.code []], rfl, .inr rfl⟩
      · exact ⟨[], [], [], rfl, .inl rfl⟩
    | escaped other => exact ⟨[], [], [], rfl, .inl rfl⟩
  | cons c chars inductionHypothesis =>
    rw [List.cons_append]
    cases place with
    | code =>
      rw [piecesFrom]
      split
      · exact ((inductionHypothesis _).consFirst c).cons _
      · exact (inductionHypothesis _).consFirst c
    | literal other =>
      rw [piecesFrom]
      split
      · exact (inductionHypothesis _).consFirst c
      · split
        · exact (inductionHypothesis _).cons _
        · exact (inductionHypothesis _).consFirst c
    | escaped other => exact (inductionHypothesis _).consFirst c

/-- A line that ends in a quote ends in it also with its aliases replaced. -/
theorem exists_aliased_concat (keep : KeepShow aliases) (quotes : isQuote quote = true)
    (place : Place) (chars : List Char) :
    ∃ front, aliased aliases place (chars ++ [quote]) = front ++ [quote] := by
  obtain ⟨front, inside, back, same, last⟩ := endInQuote_piecesFrom quotes place chars
  have nothing : back.flatMap (Piece.substitute aliases) = [] := by
    rcases last with rfl | rfl
    · rfl
    · rw [List.flatMap_singleton]
      exact keep.absentFrom_nil.substitute_eq
  refine ⟨front.flatMap (Piece.substitute aliases) ++ inside, ?_⟩
  rw [aliased, same, List.flatMap_append, List.flatMap_cons, nothing, List.append_nil,
    List.append_assoc]
  rfl

end LineScript
