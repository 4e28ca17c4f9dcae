/-
This file follows the characters of a source text into its lines. The text is cut at every newline,
so no raw line holds one; a newline could come back only with the target of an alias, and accepted
settings take names alone for targets. If the pattern of the aliases is refused, they change nothing
at all. In the other direction, texts that fill a line and are written one after the other, each
with a newline at its end, are read back as they are.
-/

import LineScript.Line.Basic
import LineScript.Proofs.LineText
import LineScript.Settings.Basic

namespace LineScript

open Text

/-! ### Cutting at newlines -/

theorem splitAtNewlines_ne_nil (chars : List Char) : splitAtNewlines chars ≠ [] := by
  cases chars with
  | nil => exact List.cons_ne_nil _ _
  | cons c rest =>
    unfold splitAtNewlines
    split
    · exact List.cons_ne_nil _ _
    · split <;> exact List.cons_ne_nil _ _

theorem newline_not_mem_piece {chars piece : List Char}
    (member : piece ∈ splitAtNewlines chars) : '\n' ∉ piece := by
  induction chars generalizing piece with
  | nil =>
    rw [List.mem_singleton.mp member]
    exact List.not_mem_nil
  | cons c rest inductionHypothesis =>
    unfold splitAtNewlines at member
    by_cases newline : c = '\n'
    · rw [if_pos newline] at member
      rcases List.mem_cons.mp member with rfl | later
      · exact List.not_mem_nil
      · exact inductionHypothesis later
    · rw [if_neg newline] at member
      cases pieces : splitAtNewlines rest with
      | nil => exact absurd pieces (splitAtNewlines_ne_nil rest)
      | cons first others =>
        rw [pieces] at member inductionHypothesis
        rcases List.mem_cons.mp member with rfl | later
        · rw [List.mem_cons, not_or]
          exact ⟨Ne.symm newline, inductionHypothesis List.mem_cons_self⟩
        · exact inductionHypothesis (List.mem_cons_of_mem _ later)

/-- The characters up to the first newline are the first piece. -/
theorem splitAtNewlines_append {front : List Char} (free : '\n' ∉ front) (rest : List Char) :
    splitAtNewlines (front ++ '\n' :: rest) = front :: splitAtNewlines rest := by
  induction front with
  | nil => rfl
  | cons c others inductionHypothesis =>
    rw [List.mem_cons, not_or] at free
    rw [List.cons_append, splitAtNewlines, if_neg (Ne.symm free.1), inductionHypothesis free.2]

theorem splitAtNewlines_of_not_mem {chars : List Char} (free : '\n' ∉ chars) :
    splitAtNewlines chars = [chars] := by
  induction chars with
  | nil => rfl
  | cons c chars inductionHypothesis =>
    obtain ⟨other, later⟩ := not_or.mp (mt List.mem_cons.mpr free)
    rw [splitAtNewlines, if_neg (Ne.symm other), inductionHypothesis later]

theorem dropReturn_subset (chars : List Char) : dropReturn chars ⊆ chars := by
  unfold dropReturn
  split
  · exact List.dropLast_subset chars
  · exact List.Subset.refl chars

theorem exists_piece_of_mem_linesOfPieces {pieces : List (List Char)} {line : List Char}
    (member : line ∈ linesOfPieces pieces) : ∃ piece ∈ pieces, line ⊆ piece := by
  fun_induction linesOfPieces pieces with
  | case1 => cases member
  | case2 => cases member
  | case3 last filled =>
    rw [List.mem_singleton.mp member]
    exact ⟨last, List.mem_singleton_self last, List.Subset.refl last⟩
  | case4 piece rest more inductionHypothesis =>
    rcases List.mem_cons.mp member with rfl | later
    · exact ⟨piece, List.mem_cons_self, dropReturn_subset piece⟩
    · obtain ⟨found, inRest, kept⟩ := inductionHypothesis later
      exact ⟨found, List.mem_cons_of_mem _ inRest, kept⟩

theorem linesOfPieces_cons (piece : List Char) {rest : List (List Char)} (more : rest ≠ []) :
    linesOfPieces (piece :: rest) = dropReturn piece :: linesOfPieces rest := by
  cases rest with
  | nil => exact absurd rfl more
  | cons second others => rfl

theorem newline_not_mem_rawLine {source raw : String} (member : raw ∈ rawLines source) :
    '\n' ∉ raw.toList := by
  obtain ⟨chars, inLines, rfl⟩ := List.mem_map.mp member
  obtain ⟨piece, inPieces, kept⟩ := exists_piece_of_mem_linesOfPieces inLines
  rw [String.toList_ofList]
  exact fun newline => newline_not_mem_piece inPieces (kept newline)

/-! ### Aliases -/

/-- A character of a stretch with its aliases replaced stood there before, or comes from a
target. -/
theorem mem_substituteFrom {aliases : List Alias} {skip : Nat} {before : Option Char}
    {ended : Bool} {chars : List Char} {c : Char}
    (member : c ∈ substituteFrom aliases skip before ended chars) :
    c ∈ chars ∨ ∃ candidate ∈ aliases, c ∈ candidate.target := by
  induction chars generalizing skip before ended with
  | nil =>
    rw [substituteFrom] at member
    cases search : findAlias? aliases before [] with
    | none =>
      rw [search] at member
      cases member
    | some found =>
      rw [search] at member
      cases ended with
      | true => cases member
      | false => exact .inr ⟨found, List.mem_of_find?_eq_some search, member⟩
  | cons first rest inductionHypothesis =>
    -- The rest is read on in some state or other, whichever way the first character goes.
    have later : ∀ {skip : Nat} {ended : Bool},
        c ∈ substituteFrom aliases skip (some first) ended rest →
        c ∈ first :: rest ∨ ∃ candidate ∈ aliases, c ∈ candidate.target :=
      fun inRest => (inductionHypothesis inRest).imp_left (List.mem_cons_of_mem _)
    cases skip with
    | succ skip =>
      rw [substituteFrom] at member
      exact later member
    | zero =>
      rw [substituteFrom] at member
      cases search : findAlias? aliases before (first :: rest) with
      | none =>
        rw [search] at member
        rcases List.mem_cons.mp member with rfl | inRest
        · exact .inl List.mem_cons_self
        · exact later inRest
      | some found =>
        have inTarget : c ∈ found.target → ∃ candidate ∈ aliases, c ∈ candidate.target :=
          fun inFound => ⟨found, List.mem_of_find?_eq_some search, inFound⟩
        rw [search] at member
        simp only at member
        split at member
        · rcases List.mem_append.mp member with inserted | kept
          · split at inserted
            · cases inserted
            · exact .inr (inTarget inserted)
          · rcases List.mem_cons.mp kept with rfl | inRest
            · exact .inl List.mem_cons_self
            · exact later inRest
        · rcases List.mem_append.mp member with inserted | inRest
          · exact .inr (inTarget inserted)
          · exact later inRest

theorem flatMap_chars_consFirst (c : Char) (pieces : List Piece) :
    (consFirst c pieces).flatMap Piece.chars = c :: pieces.flatMap Piece.chars := by
  cases pieces with
  | nil => rfl
  | cons piece rest => cases piece <;> rfl

/-- Cutting a line into pieces keeps all its characters, in their order. -/
theorem flatMap_chars_piecesFrom (place : Place) (chars : List Char) :
    (piecesFrom place chars).flatMap Piece.chars = chars := by
  induction chars generalizing place with
  | nil => cases place <;> rfl
  | cons c rest inductionHypothesis =>
    have read : ∀ next, (consFirst c (piecesFrom next rest)).flatMap Piece.chars = c :: rest :=
      fun next => by rw [flatMap_chars_consFirst, inductionHypothesis]
    cases place with
    | code =>
      rw [piecesFrom]
      split
      · rw [List.flatMap_cons, read]
        rfl
      · exact read _
    | literal quote =>
      rw [piecesFrom]
      split
      · exact read _
      · split
        · rw [List.flatMap_cons, inductionHypothesis]
          rfl
        · exact read _
    | escaped quote =>
      rw [piecesFrom]
      exact read _

section InForce

variable [PatternEngine] {aliases : Table String}

theorem aliasesInForce_of_built (built : aliasRefusal? aliases = none) :
    aliasesInForce aliases = aliases := by
  rw [aliasesInForce, built]
  rfl

theorem aliasesInForce_of_refused {reason : String}
    (refused : aliasRefusal? aliases = some reason) : aliasesInForce aliases = .empty := by
  rw [aliasesInForce, refused]
  rfl

theorem entries_aliasesInForce_subset : (aliasesInForce aliases).entries ⊆ aliases.entries := by
  cases refusal : aliasRefusal? aliases with
  | none =>
    rw [aliasesInForce_of_built refusal]
    exact List.Subset.refl _
  | some reason =>
    rw [aliasesInForce_of_refused refusal]
    exact List.nil_subset _

theorem aliasList_aliasesInForce_subset :
    aliasList (aliasesInForce aliases) ⊆ aliasList aliases :=
  List.map_subset _ entries_aliasesInForce_subset

theorem applyAliases_empty (line : String) : applyAliases .empty line = line := rfl

/-- Where the pattern is refused, a line stays as it is. -/
theorem applyAliases_of_refused {reason : String} (refused : aliasRefusal? aliases = some reason)
    (line : String) : applyAliases aliases line = line := by
  rw [applyAliases, aliasesInForce_of_refused refused]
  exact applyAliases_empty line

end InForce

/-- A character of a line with its aliases replaced stood there before, or comes from a target. -/
theorem mem_applyAliases [PatternEngine] {aliases : Table String} {line : String} {c : Char}
    (member : c ∈ (applyAliases aliases line).toList) :
    c ∈ line.toList ∨ ∃ entry ∈ aliases.entries, c ∈ entry.2.toList := by
  unfold applyAliases rewriteLine at member
  split at member
  · exact .inl member
  · rw [String.toList_ofList] at member
    obtain ⟨piece, inPieces, inPiece⟩ := List.mem_flatMap.mp member
    have whole : piece.chars ⊆ line.toList := by
      rw [← flatMap_chars_piecesFrom .code line.toList]
      exact fun d inChars => List.mem_flatMap.mpr ⟨piece, inPieces, inChars⟩
    cases piece with
    | literal chars => exact .inl (whole inPiece)
    | code chars =>
      rcases mem_substituteFrom inPiece with kept | ⟨candidate, inAliases, inTarget⟩
      · exact .inl (whole kept)
      · obtain ⟨entry, inForce, rfl⟩ := List.mem_map.mp inAliases
        exact .inr ⟨entry, entries_aliasesInForce_subset inForce, inTarget⟩

/-- Accepted settings map words to words. -/
theorem isWordPair_of_validate {settings : Settings} (accepted : settings.validate = .ok settings)
    {entry : String × String} (member : entry ∈ settings.aliases.entries) :
    isWordPair entry = true := by
  unfold Settings.validate Settings.fault? at accepted
  cases wrong : settings.aliases.entries.find? fun entry => !isWordPair entry with
  | some found =>
    rw [wrong] at accepted
    cases accepted
  | none =>
    have right := List.find?_eq_none.mp wrong entry member
    simpa using right

/-- Under accepted settings no alias brings in a newline. -/
theorem newline_not_mem_applyAliases [PatternEngine] {settings : Settings}
    (accepted : settings.validate = .ok settings) {line : String} (oneLine : '\n' ∉ line.toList) :
    '\n' ∉ (applyAliases settings.aliases line).toList := by
  intro newline
  rcases mem_applyAliases newline with inLine | ⟨entry, inTable, inTarget⟩
  · exact oneLine inLine
  · have pair := (Bool.and_eq_true _ _).mp (isWordPair_of_validate accepted inTable)
    have foreign : isNameChar '\n' = false := by decide
    exact not_mem_of_isName pair.2 foreign inTarget

/-! ### Lines that count -/

/-- The lines that count are the raw lines that are not blank, each under its number. -/
theorem countedLines_eq [PatternEngine] (aliases : Table String) (number : Nat)
    (raws : List String) :
    countedLines aliases number raws =
      ((raws.zipIdx number).filter fun entry => !isBlankText entry.1).map fun entry =>
        ⟨entry.2, trimEnd (applyAliases aliases entry.1)⟩ := by
  induction raws generalizing number with
  | nil => rfl
  | cons raw rest inductionHypothesis =>
    rw [countedLines, List.zipIdx_cons, List.filter_cons]
    cases blank : isBlankText raw with
    | true => exact inductionHypothesis (number + 1)
    | false => exact congrArg (_ :: ·) (inductionHypothesis (number + 1))

/-- Where the pattern is refused, lines are read as if there were no aliases, after a warning. -/
theorem readLines_of_refused [PatternEngine] {aliases : Table String} {reason : String}
    (refused : aliasRefusal? aliases = some reason) (raws : List String) :
    readLines aliases raws =
      ⟨(readLines .empty raws).value,
        .aliasesIgnored reason :: (readLines .empty raws).notices⟩ := by
  have counted : countedLines aliases 1 raws = countedLines .empty 1 raws := by
    rw [countedLines_eq, countedLines_eq]
    simp only [applyAliases_of_refused refused, applyAliases_empty]
  rw [readLines, refused, counted]
  rfl

theorem exists_raw_of_mem_countedLines [PatternEngine] {aliases : Table String} {number : Nat}
    {raws : List String} {line : Line} (member : line ∈ countedLines aliases number raws) :
    ∃ raw ∈ raws, isBlankText raw = false ∧ line.text = trimEnd (applyAliases aliases raw) := by
  rw [countedLines_eq] at member
  obtain ⟨entry, kept, rfl⟩ := List.mem_map.mp member
  obtain ⟨inRaws, solid⟩ := List.mem_filter.mp kept
  exact ⟨entry.1, List.fst_mem_of_mem_zipIdx inRaws, Bool.not_eq_true' _ |>.mp solid, rfl⟩

/-- Under accepted settings no line that counts holds a newline. -/
theorem newline_not_mem_readSource [PatternEngine] {settings : Settings}
    (accepted : settings.validate = .ok settings) {source : String} {line : Line}
    (member : line ∈ (readSource settings.aliases source).value) : '\n' ∉ line.text.toList := by
  obtain ⟨raw, inRaws, -, same⟩ := exists_raw_of_mem_countedLines member
  rw [same]
  exact fun newline => newline_not_mem_applyAliases accepted (newline_not_mem_rawLine inRaws)
    (trimEnd_subset _ newline)

/-! ### Writing lines -/

/-- The text of lines that each end in a newline. -/
def terminated : List String → String
  | [] => ""
  | line :: rest => line ++ "\n" ++ terminated rest

/-- Texts without newlines are the pieces between the newlines that end them. -/
theorem splitAtNewlines_terminated {lines : List String}
    (oneLine : ∀ line ∈ lines, '\n' ∉ line.toList) :
    splitAtNewlines (terminated lines).toList = lines.map String.toList ++ [[]] := by
  induction lines with
  | nil => rfl
  | cons line rest inductionHypothesis =>
    obtain ⟨first, others⟩ := List.forall_mem_cons.mp oneLine
    have chars : (terminated (line :: rest)).toList =
        line.toList ++ '\n' :: (terminated rest).toList := by
      rw [terminated, String.toList_append, String.toList_append, List.append_assoc]
      rfl
    rw [chars, splitAtNewlines_append first, inductionHypothesis others, List.map_cons,
      List.cons_append]

/-- Where no blank is at the end of a text, no carriage return is. -/
theorem dropReturn_of_trimEnd {text : String} (trimmed : trimEnd text = text) :
    dropReturn text.toList = text.toList := by
  unfold dropReturn
  rw [if_neg]
  intro last
  have filled : text.toList ≠ [] := by
    intro empty
    rw [empty] at last
    cases last
  rw [List.getLast?_eq_some_getLast filled, Option.some.injEq] at last
  rw [← String.toList_inj, toList_trimEnd] at trimmed
  have solid := trimBack_eq_self_iff.mp trimmed filled
  rw [last] at solid
  exact absurd solid (by decide)

theorem trimEnd_of_isLineText {text : String} (fills : IsLineText text) : trimEnd text = text := by
  unfold trimEnd
  rw [(trim_eq_self_iff.mp fills.trimmed).back, String.ofList_toList]

theorem rawLines_terminated {lines : List String} (fill : ∀ line ∈ lines, IsLineText line) :
    rawLines (terminated lines) = lines := by
  induction lines with
  | nil => rfl
  | cons line rest inductionHypothesis =>
    have fills := fill line List.mem_cons_self
    have others := inductionHypothesis fun other later => fill other (List.mem_cons_of_mem _ later)
    have chars : (terminated (line :: rest)).toList =
        line.toList ++ '\n' :: (terminated rest).toList := by
      rw [terminated, String.toList_append, String.toList_append, List.append_assoc]
      rfl
    unfold rawLines at others ⊢
    rw [chars, splitAtNewlines_append fills.oneLine,
      linesOfPieces_cons _ (splitAtNewlines_ne_nil _),
      dropReturn_of_trimEnd (trimEnd_of_isLineText fills), List.map_cons, others,
      String.ofList_toList]

theorem isBlankText_of_isLineText {text : String} (fills : IsLineText text) :
    isBlankText text = false := by
  have filled := toList_ne_nil fills.filled
  have solid := trimFront_eq_self_iff.mp (trim_eq_self_iff.mp fills.trimmed).front filled
  exact List.all_eq_false.mpr ⟨_, List.head_mem filled, by rw [solid]; exact Bool.false_ne_true⟩

/-- Texts that are not blank and that aliasing and trimming leave alone count as they are. -/
theorem map_text_countedLines [PatternEngine] {aliases : Table String} {raws : List String}
    (solid : ∀ raw ∈ raws, isBlankText raw = false)
    (kept : ∀ raw ∈ raws, trimEnd (applyAliases aliases raw) = raw) (number : Nat) :
    (countedLines aliases number raws).map Line.text = raws := by
  induction raws generalizing number with
  | nil => rfl
  | cons raw rest inductionHypothesis =>
    obtain ⟨firstSolid, othersSolid⟩ := List.forall_mem_cons.mp solid
    obtain ⟨firstKept, othersKept⟩ := List.forall_mem_cons.mp kept
    rw [countedLines, firstSolid, if_neg Bool.false_ne_true, List.map_cons,
      inductionHypothesis othersSolid othersKept, firstKept]

/-- Without aliases, the lines that count in a written text are those it was written from. -/
theorem map_text_readSource [PatternEngine] {lines : List String}
    (fill : ∀ line ∈ lines, IsLineText line) :
    (readSource .empty (terminated lines)).value.map Line.text = lines := by
  unfold readSource readLines
  rw [rawLines_terminated fill]
  refine map_text_countedLines (fun line member => isBlankText_of_isLineText (fill line member))
    (fun line member => ?_) 1
  rw [applyAliases_empty, trimEnd_of_isLineText (fill line member)]

end LineScript
