/-
This file says that the blanks around a line are no part of what the line says. Under aliases whose
keys are words, a blank in front of a line or at its end is copied, and the aliases in between are
replaced as if the blank were not there: a blank is no word character, so a key next to it has a
word boundary where the line would otherwise begin or end, and no key reaches over it. Inside a
literal that is never closed, a blank at the end is copied like everything else. A line with its
aliases replaced therefore trims to the same text as its trimmed form does.
-/

import LineScript.Proofs.Aliased
import Mathlib.Data.List.Find

namespace LineScript

open Text

/-! ### Blanks and word boundaries -/

/-- None of the blank code points is one of a word character. -/
theorem blankRanges_wordless : ∀ range ∈ blankRanges, ∀ point ∈ List.range' range.1
    (range.2 + 1 - range.1), wordRanges.holds point = false := by
  decide +kernel

theorem isWordChar_of_isBlank {c : Char} (blank : isBlank c = true) : isWordChar c = false :=
  of_isBlank blankRanges_wordless blank

theorem isQuote_of_isBlank {c : Char} (blank : isBlank c = true) : isQuote c = false := by
  cases quotes : isQuote c with
  | false => rfl
  | true => rcases isQuote_iff.mp quotes with rfl | rfl <;> exact absurd blank (by decide)

section Boundary

variable {space : Char} (blank : isBlank space = true)

include blank

theorem isBoundary_blank_left (after : Option Char) :
    isBoundary (some space) after = isBoundary none after := by
  unfold isBoundary
  rw [Option.any_some, isWordChar_of_isBlank blank, Option.any_none]

theorem isBoundary_blank_right (before : Option Char) :
    isBoundary before (some space) = isBoundary before none := by
  unfold isBoundary
  rw [Option.any_some, isWordChar_of_isBlank blank, Option.any_none]

end Boundary

/-! ### Keys next to a blank -/

/-- The key of an alias is a word: it is not empty and holds no blank. -/
structure Alias.ForWord (candidate : Alias) : Prop where
  filled : candidate.key ≠ []
  solid : ∀ c ∈ candidate.key, isBlank c = false

theorem forWord_of_validate {settings : Settings} (accepted : settings.validate = .ok settings) :
    ∀ candidate ∈ aliasList settings.aliases, candidate.ForWord := by
  intro candidate member
  obtain ⟨entry, inTable, rfl⟩ := List.mem_map.mp member
  have name := ((Bool.and_eq_true _ _).mp (isWordPair_of_validate accepted inTable)).1
  exact ⟨toList_ne_nil (ne_empty_of_isName name), fun c => isBlank_of_mem_isName name⟩

theorem forWord_inForce [PatternEngine] {settings : Settings}
    (accepted : settings.validate = .ok settings) :
    ∀ candidate ∈ aliasList (aliasesInForce settings.aliases), candidate.ForWord :=
  fun candidate member =>
    forWord_of_validate accepted candidate (aliasList_aliasesInForce_subset member)

namespace Alias.ForWord

variable {candidate : Alias} (forWord : candidate.ForWord) {space : Char}
  (blank : isBlank space = true)

include forWord

/-- Where no character is left, no key stands. -/
theorem matchesAt_nil (before : Option Char) : candidate.matchesAt before [] = false := by
  obtain ⟨first, rest, key⟩ := List.exists_cons_of_ne_nil forWord.filled
  rw [matchesAt, key]
  rfl

include blank

theorem not_mem_key : space ∉ candidate.key := by
  intro member
  rw [forWord.solid space member] at blank
  cases blank

/-- No key starts with a blank. -/
theorem matchesAt_cons (before : Option Char) (rest : List Char) :
    candidate.matchesAt before (space :: rest) = false := by
  obtain ⟨first, others, key⟩ := List.exists_cons_of_ne_nil forWord.filled
  have other : first ≠ space := by
    rintro rfl
    exact forWord.not_mem_key blank (key ▸ List.mem_cons_self)
  rw [matchesAt, key, List.isPrefixOf_cons_cons, beq_false_of_ne other]
  rfl

/-- After a blank a key stands where it would stand at the start. -/
theorem matchesAt_after (rest : List Char) :
    candidate.matchesAt (some space) rest = candidate.matchesAt none rest := by
  have last (before : Option Char) :
      candidate.key.getLast?.or before = candidate.key.getLast? := by
    rw [List.getLast?_eq_some_getLast forWord.filled, Option.some_or]
  rw [matchesAt, matchesAt, isBoundary_blank_left blank, last, last]

/-- In front of a blank at the end a key stands where it would stand without the blank. -/
theorem matchesAt_concat (before : Option Char) (rest : List Char) :
    candidate.matchesAt before (rest ++ [space]) = candidate.matchesAt before rest := by
  have starts : candidate.key <+: rest ++ [space] ↔ candidate.key <+: rest := by
    rw [List.prefix_concat_iff, or_iff_right]
    intro whole
    exact forWord.not_mem_key blank (whole ▸ List.mem_concat_self)
  unfold matchesAt
  by_cases stands : candidate.key <+: rest
  · obtain ⟨back, rfl⟩ := stands
    have head : (candidate.key ++ back ++ [space]).head? = (candidate.key ++ back).head? := by
      rw [List.append_assoc, List.head?_append_of_ne_nil _ forWord.filled,
        List.head?_append_of_ne_nil _ forWord.filled]
    have next : isBoundary (candidate.key.getLast?.or before) (back ++ [space]).head? =
        isBoundary (candidate.key.getLast?.or before) back.head? := by
      cases back with
      | nil => exact isBoundary_blank_right blank _
      | cons c back => rfl
    rw [head, List.append_assoc, List.drop_left, List.drop_left, next,
      List.isPrefixOf_iff_prefix.mpr (List.prefix_append _ _),
      List.isPrefixOf_iff_prefix.mpr (List.prefix_append _ _)]
  · have early : candidate.key.isPrefixOf rest = false :=
      Bool.eq_false_iff.mpr (mt List.isPrefixOf_iff_prefix.mp stands)
    have late : candidate.key.isPrefixOf (rest ++ [space]) = false :=
      Bool.eq_false_iff.mpr (mt List.isPrefixOf_iff_prefix.mp (mt starts.mp stands))
    rw [early, late, Bool.false_and, Bool.false_and, Bool.false_and, Bool.false_and]

end Alias.ForWord

/-! ### Stretches -/

section Stretch

variable {aliases : List Alias} (forWords : ∀ candidate ∈ aliases, candidate.ForWord)
  {space : Char} (blank : isBlank space = true)

include forWords

theorem findAlias?_nil (before : Option Char) : findAlias? aliases before [] = none :=
  List.find?_eq_none.mpr fun candidate member => by
    rw [(forWords candidate member).matchesAt_nil]
    exact Bool.false_ne_true

theorem substituteFrom_nil (skip : Nat) (before : Option Char) (ended : Bool) :
    substituteFrom aliases skip before ended [] = [] := by
  rw [substituteFrom, findAlias?_nil forWords]

include blank

theorem findAlias?_cons (before : Option Char) (rest : List Char) :
    findAlias? aliases before (space :: rest) = none :=
  List.find?_eq_none.mpr fun candidate member => by
    rw [(forWords candidate member).matchesAt_cons blank]
    exact Bool.false_ne_true

theorem findAlias?_after (rest : List Char) :
    findAlias? aliases (some space) rest = findAlias? aliases none rest :=
  List.find?_congr fun candidate member => (forWords candidate member).matchesAt_after blank rest

theorem findAlias?_concat (before : Option Char) (rest : List Char) :
    findAlias? aliases before (rest ++ [space]) = findAlias? aliases before rest :=
  List.find?_congr fun candidate member =>
    (forWords candidate member).matchesAt_concat blank before rest

/-- A blank in front of a stretch is copied, and the rest is read as if it were the whole. -/
theorem substitute_cons (stretch : List Char) :
    substitute aliases (space :: stretch) = space :: substitute aliases stretch := by
  rw [substitute, substituteFrom, findAlias?_cons forWords blank]
  refine congrArg (space :: ·) ?_
  rw [substitute]
  cases stretch with
  | nil => rw [substituteFrom_nil forWords, substituteFrom_nil forWords]
  | cons c stretch =>
    rw [substituteFrom, substituteFrom, findAlias?_after forWords blank]

/-- A blank at the end of a stretch is copied. A match that is being passed over lies in front of
it. -/
theorem substituteFrom_concat {skip : Nat} {stretch : List Char} (within : skip ≤ stretch.length)
    (before : Option Char) (ended : Bool) :
    substituteFrom aliases skip before ended (stretch ++ [space]) =
      substituteFrom aliases skip before ended stretch ++ [space] := by
  induction stretch generalizing skip before ended with
  | nil =>
    obtain rfl : skip = 0 := Nat.le_zero.mp within
    rw [substituteFrom_nil forWords, List.nil_append, substituteFrom,
      findAlias?_cons forWords blank, substituteFrom_nil forWords]
  | cons c stretch inductionHypothesis =>
    cases skip with
    | succ skip => exact inductionHypothesis (Nat.le_of_succ_le_succ within) (some c) true
    | zero =>
      have search : findAlias? aliases before (c :: (stretch ++ [space])) =
          findAlias? aliases before (c :: stretch) :=
        findAlias?_concat forWords blank before (c :: stretch)
      rw [List.cons_append, substituteFrom, substituteFrom, search]
      cases found : findAlias? aliases before (c :: stretch) with
      | none => exact congrArg (c :: ·) (inductionHypothesis (Nat.zero_le _) (some c) false)
      | some candidate =>
        have matched := List.find?_some found
        simp only [Alias.matchesAt, Bool.and_eq_true] at matched
        have fits := (List.isPrefixOf_iff_prefix.mp matched.1.1).length_le
        have filled := (forWords candidate (List.mem_of_find?_eq_some found)).filled
        simp only [if_neg filled]
        rw [inductionHypothesis (by rw [List.length_cons] at fits; omega), List.append_assoc]

theorem substitute_concat (stretch : List Char) :
    substitute aliases (stretch ++ [space]) = substitute aliases stretch ++ [space] :=
  substituteFrom_concat forWords blank (Nat.zero_le _) none false

end Stretch

/-! ### Pieces -/

/-- A piece with one more character at the end. -/
def Piece.concat (c : Char) : Piece → Piece
  | .code chars => .code (chars ++ [c])
  | .literal chars => .literal (chars ++ [c])

theorem Piece.concat_cons (first last : Char) (piece : Piece) :
    (piece.cons first).concat last = (piece.concat last).cons first := by
  cases piece <;> rfl

/-- The place is one that a line can come to: a literal is opened by a quote. -/
def Place.IsReached : Place → Prop
  | .code => True
  | .literal quote => isQuote quote = true
  | .escaped quote => isQuote quote = true

/-- Pieces and the same pieces with one more character at the end of the last. -/
def LongerBy (c : Char) (pieces longer : List Piece) : Prop :=
  ∃ front last, pieces = front ++ [last] ∧ longer = front ++ [last.concat c]

theorem LongerBy.cons {c : Char} {pieces longer : List Piece} (grown : LongerBy c pieces longer)
    (piece : Piece) : LongerBy c (piece :: pieces) (piece :: longer) := by
  obtain ⟨front, last, rfl, rfl⟩ := grown
  exact ⟨piece :: front, last, rfl, rfl⟩

theorem LongerBy.consFirst {c : Char} {pieces longer : List Piece}
    (grown : LongerBy c pieces longer) (first : Char) :
    LongerBy c (consFirst first pieces) (consFirst first longer) := by
  obtain ⟨front, last, rfl, rfl⟩ := grown
  cases front with
  | nil => exact ⟨[], last.cons first, rfl, by rw [Piece.concat_cons]; rfl⟩
  | cons piece front => exact ⟨piece.cons first :: front, last, rfl, rfl⟩

/-- A blank at the end of a line lengthens its last piece. -/
theorem longerBy_piecesFrom {space : Char} (blank : isBlank space = true) {place : Place}
    (reached : place.IsReached) (chars : List Char) :
    LongerBy space (piecesFrom place chars) (piecesFrom place (chars ++ [space])) := by
  -- A literal that is open can only be closed by a quote, so the blank is one more character of it.
  have noQuote := isQuote_of_isBlank blank
  induction chars generalizing place with
  | nil =>
    rw [List.nil_append]
    cases place with
    | code =>
      rw [piecesFrom, piecesFrom, noQuote]
      exact ⟨[], .code [], rfl, rfl⟩
    | literal quote =>
      have plain : space ≠ '\\' := by
        rintro rfl
        exact absurd blank (by decide)
      have other : space ≠ quote := by
        rintro rfl
        exact absurd (noQuote.symm.trans reached) Bool.false_ne_true
      rw [piecesFrom, piecesFrom, if_neg plain, if_neg other]
      exact ⟨[], .literal [], rfl, rfl⟩
    | escaped quote => exact ⟨[], .literal [], rfl, rfl⟩
  | cons c chars inductionHypothesis =>
    rw [List.cons_append]
    cases place with
    | code =>
      rw [piecesFrom, piecesFrom]
      by_cases quotes : isQuote c = true
      · rw [if_pos quotes, if_pos quotes]
        have inside : (Place.literal c).IsReached := quotes
        exact ((inductionHypothesis inside).consFirst c).cons _
      · rw [if_neg quotes, if_neg quotes]
        exact (inductionHypothesis reached).consFirst c
    | literal quote =>
      have inside : (Place.escaped quote).IsReached := reached
      rw [piecesFrom, piecesFrom]
      by_cases backslash : c = '\\'
      · rw [if_pos backslash, if_pos backslash]
        exact (inductionHypothesis inside).consFirst c
      · rw [if_neg backslash, if_neg backslash]
        by_cases closes : c = quote
        · rw [if_pos closes, if_pos closes]
          have outside : Place.code.IsReached := trivial
          exact (inductionHypothesis outside).cons _
        · rw [if_neg closes, if_neg closes]
          exact (inductionHypothesis reached).consFirst c
    | escaped quote =>
      have inside : (Place.literal quote).IsReached := reached
      exact (inductionHypothesis inside).consFirst c

/-- Outside all literals the next piece is a stretch of code, which may be empty. -/
theorem piecesFrom_stretch (chars : List Char) :
    ∃ stretch rest, piecesFrom .code chars = .code stretch :: rest := by
  induction chars with
  | nil => exact ⟨[], [], rfl⟩
  | cons c chars inductionHypothesis =>
    rw [piecesFrom]
    split
    · exact ⟨[], _, rfl⟩
    · obtain ⟨stretch, rest, same⟩ := inductionHypothesis
      exact ⟨c :: stretch, rest, by rw [same]; rfl⟩

/-! ### Lines -/

section Line

variable {aliases : List Alias} (forWords : ∀ candidate ∈ aliases, candidate.ForWord)

include forWords

theorem aliased_cons {space : Char} (blank : isBlank space = true) (chars : List Char) :
    aliased aliases .code (space :: chars) = space :: aliased aliases .code chars := by
  obtain ⟨stretch, rest, same⟩ := piecesFrom_stretch chars
  rw [aliased, aliased, piecesFrom, isQuote_of_isBlank blank, same]
  exact congrArg (· ++ rest.flatMap (Piece.substitute aliases))
    (substitute_cons forWords blank stretch)

theorem aliased_concat {space : Char} (blank : isBlank space = true) (chars : List Char) :
    aliased aliases .code (chars ++ [space]) = aliased aliases .code chars ++ [space] := by
  have reached : Place.code.IsReached := trivial
  obtain ⟨front, last, short, long⟩ := longerBy_piecesFrom blank reached chars
  have copied : (last.concat space).substitute aliases = last.substitute aliases ++ [space] := by
    cases last with
    | code stretch => exact substitute_concat forWords blank stretch
    | literal chars => rfl
  rw [aliased, aliased, short, long, List.flatMap_append, List.flatMap_append,
    List.flatMap_singleton, List.flatMap_singleton, copied, List.append_assoc]

theorem aliased_blanks_append {front : List Char} (blanks : ∀ c ∈ front, isBlank c = true)
    (chars : List Char) :
    aliased aliases .code (front ++ chars) = front ++ aliased aliases .code chars := by
  induction front with
  | nil => rfl
  | cons c front inductionHypothesis =>
    obtain ⟨first, others⟩ := List.forall_mem_cons.mp blanks
    rw [List.cons_append, aliased_cons forWords first, inductionHypothesis others]
    rfl

theorem aliased_append_blanks {back : List Char} (blanks : ∀ c ∈ back, isBlank c = true)
    (chars : List Char) :
    aliased aliases .code (chars ++ back) = aliased aliases .code chars ++ back := by
  induction back generalizing chars with
  | nil => rw [List.append_nil, List.append_nil]
  | cons c back inductionHypothesis =>
    obtain ⟨first, others⟩ := List.forall_mem_cons.mp blanks
    rw [List.append_cons, inductionHypothesis others, aliased_concat forWords first,
      ← List.append_cons]

end Line

/-- Under accepted settings, the blanks around a line change nothing of what it says. -/
theorem trim_applyAliases [PatternEngine] {settings : Settings}
    (accepted : settings.validate = .ok settings) (raw : String) :
    trim (applyAliases settings.aliases raw) = trim (applyAliases settings.aliases (trim raw)) := by
  have forWords := forWord_inForce accepted
  obtain ⟨front, back, whole, blankFront, blankBack⟩ := exists_margins raw.toList
  rw [← String.toList_inj, toList_trim, toList_trim, toList_applyAliases, toList_applyAliases,
    whole, aliased_blanks_append forWords blankFront, aliased_append_blanks forWords blankBack,
    trim_margins blankFront blankBack, toList_trim]

end LineScript
