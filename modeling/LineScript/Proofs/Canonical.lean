/-
This file says what reading makes of the lines of a source. Each raw line that is not blank gives
one line, under its number, whose text is not blank either, although blankness is tried before the
aliases are replaced and the end is trimmed after it: an alias puts a name in place of a name, so
something solid is left.

Reading also comes to rest. If keys and targets are words and no target is a key, then a line whose
aliases are replaced is cut into the same literals and the same runs again, with the target in place
of each key, and nothing is left to replace. The texts that were read, written one below the other,
are read as they are.
-/

import LineScript.Proofs.WholeWord

namespace LineScript

open Text

/-! ### Something solid is left -/

section Solid

variable {aliases : List Alias} (forWords : ∀ candidate ∈ aliases, candidate.ForWord)
  (solidTargets : ∀ candidate ∈ aliases, ∃ d ∈ candidate.target, isBlank d = false)

include forWords solidTargets

/-- A stretch that starts with something solid still holds something solid when its aliases are
replaced: the first character is copied, or a target stands in its place. -/
theorem exists_solid_substitute {c : Char} (solid : isBlank c = false) (stretch : List Char) :
    ∃ d ∈ substitute aliases (c :: stretch), isBlank d = false := by
  rw [substitute, substituteFrom]
  cases search : findAlias? aliases none (c :: stretch) with
  | none => exact ⟨c, List.mem_cons_self, solid⟩
  | some found =>
    have member := List.mem_of_find?_eq_some search
    obtain ⟨d, inTarget, solidTarget⟩ := solidTargets found member
    simp only [if_neg (forWords found member).filled]
    exact ⟨d, List.mem_append_left _ inTarget, solidTarget⟩

theorem exists_solid_aliased {c : Char} (solid : isBlank c = false) (chars : List Char) :
    ∃ d ∈ aliased aliases .code (c :: chars), isBlank d = false := by
  by_cases quotes : isQuote c = true
  · have opened : aliased aliases .code (c :: chars) =
        substitute aliases [] ++ c :: aliased aliases (.literal c) chars :=
      aliased_opening quotes (List.forall_mem_nil _) chars
    rw [opened]
    exact ⟨c, List.mem_append_right _ List.mem_cons_self, solid⟩
  · obtain ⟨stretch, rest, cut⟩ := piecesFrom_stretch chars
    obtain ⟨d, inStretch, left⟩ := exists_solid_substitute forWords solidTargets solid stretch
    rw [aliased, piecesFrom, if_neg quotes, cut]
    exact ⟨d, List.mem_append_left _ inStretch, left⟩

end Solid

/-- Under accepted settings, a line that is not blank does not become blank. -/
theorem isBlankText_applyAliases [PatternEngine] {settings : Settings}
    (accepted : settings.validate = .ok settings) {raw : String} (solid : isBlankText raw = false) :
    isBlankText (applyAliases settings.aliases raw) = false := by
  have solidTargets : ∀ candidate ∈ aliasList (aliasesInForce settings.aliases),
      ∃ d ∈ candidate.target, isBlank d = false := by
    intro candidate member
    obtain ⟨entry, inForce, rfl⟩ := List.mem_map.mp member
    have inTable := entries_aliasesInForce_subset inForce
    have name := ((Bool.and_eq_true _ _).mp (isWordPair_of_validate accepted inTable)).2
    have first := List.head_mem (toList_ne_nil (ne_empty_of_isName name))
    exact ⟨_, first, isBlank_of_mem_isName name first⟩
  have forWords := forWord_inForce accepted
  -- The blanks in front are copied, so it is enough to look at the first solid character.
  have whole : raw.toList.takeWhile isBlank ++ trimFront raw.toList = raw.toList :=
    List.takeWhile_append_dropWhile
  have blanks : ∀ c ∈ raw.toList.takeWhile isBlank, isBlank c = true :=
    fun c => List.mem_takeWhile_imp
  have filled : trimFront raw.toList ≠ [] := by
    intro nothing
    rw [isBlankText, List.all_eq_true.mpr (List.dropWhile_eq_nil_iff.mp nothing)] at solid
    cases solid
  have first := trimFront_eq_self_iff.mp (trimFront_trimFront raw.toList) filled
  obtain ⟨c, rest, cut⟩ := List.exists_cons_of_ne_nil filled
  simp only [cut, List.head_cons] at first
  obtain ⟨d, member, left⟩ := exists_solid_aliased forWords solidTargets first rest
  refine List.all_eq_false.mpr ⟨d, ?_, Bool.eq_false_iff.mp left⟩
  rw [toList_applyAliases, ← whole, cut, aliased_blanks_append forWords blanks]
  exact List.mem_append_right _ member

/-- A text as reading leaves it: it holds more than blanks, fits on one line and has no blank at its
end. -/
structure IsReadText (text : String) : Prop where
  solid : isBlankText text = false
  oneLine : '\n' ∉ text.toList
  trimmed : trimEnd text = text

/-- Under accepted settings the lines that count are as reading leaves them. -/
theorem isReadText_of_mem_readSource [PatternEngine] {settings : Settings}
    (accepted : settings.validate = .ok settings) {source : String} {line : Line}
    (member : line ∈ (readSource settings.aliases source).value) : IsReadText line.text := by
  obtain ⟨raw, -, solid, same⟩ := exists_raw_of_mem_countedLines member
  refine ⟨?_, newline_not_mem_readSource accepted member, ?_⟩
  · rw [same, isBlankText_trimEnd]
    exact isBlankText_applyAliases accepted solid
  · rw [same, trimEnd_trimEnd]

/-! ### Writing the texts again -/

theorem IsReadText.ne_empty {text : String} (isRead : IsReadText text) : text ≠ "" := by
  rintro rfl
  cases isRead.solid

/-- Texts as reading leaves them, with newlines between them, are the raw lines again. -/
theorem rawLines_intercalate {texts : List String} (areRead : ∀ text ∈ texts, IsReadText text) :
    rawLines ("\n".intercalate texts) = texts := by
  induction texts with
  | nil => rfl
  | cons text rest inductionHypothesis =>
    obtain ⟨first, others⟩ := List.forall_mem_cons.mp areRead
    have later := inductionHypothesis others
    cases rest with
    | nil =>
      rw [String.intercalate_singleton, rawLines, splitAtNewlines_of_not_mem first.oneLine,
        linesOfPieces, if_neg (toList_ne_nil first.ne_empty), List.map_singleton,
        String.ofList_toList]
    | cons next rest =>
      have chars : ("\n".intercalate (text :: next :: rest)).toList =
          text.toList ++ '\n' :: ("\n".intercalate (next :: rest)).toList := by
        rw [String.intercalate_cons_cons, String.toList_append, String.toList_append,
          List.append_assoc]
        rfl
      unfold rawLines at later ⊢
      rw [chars, splitAtNewlines_append first.oneLine,
        linesOfPieces_cons _ (splitAtNewlines_ne_nil _), dropReturn_of_trimEnd first.trimmed,
        List.map_cons, later, String.ofList_toList]

/-! ### Runs whose aliases are replaced -/

/-- The runs of a stretch are not empty, and each is of one kind. -/
theorem alike_of_mem_runs {holds : Char → Bool} {stretch run : List Char}
    (member : run ∈ runs holds stretch) : run ≠ [] ∧ ∃ kind, ∀ c ∈ run, holds c = kind := by
  have filled : run ≠ [] := List.ne_nil_of_mem_splitBy member
  have chain := List.isChain_of_mem_splitBy member
  obtain ⟨first, others, rfl⟩ := List.exists_cons_of_ne_nil filled
  have transitive : IsTrans Char fun c d => (holds c == holds d) = true :=
    ⟨fun c d e same also => beq_iff_eq.mpr ((beq_iff_eq.mp same).trans (beq_iff_eq.mp also))⟩
  have pairs := List.pairwise_cons.mp chain.pairwise
  refine ⟨filled, holds first, List.forall_mem_cons.mpr ⟨rfl, fun c later => ?_⟩⟩
  exact (beq_iff_eq.mp (pairs.1 c later)).symm

theorem replaceRun_cases (holds : Char → Bool) (aliases : Table String) (run : List Char) :
    replaceRun holds aliases run = run ∨ run.all holds = true ∧ ∃ target,
      aliases.get? (String.ofList run) = some target ∧
        replaceRun holds aliases run = target.toList := by
  unfold replaceRun
  split
  · rename_i inside
    cases search : aliases.get? (String.ofList run) with
    | none => exact .inl rfl
    | some target => exact .inr ⟨inside, target, rfl, rfl⟩
  · exact .inl rfl

/-- What the aliases put in place of a run of a class is such a run itself, and no key. -/
structure ComesToRest (holds : Char → Bool) (aliases : Table String) : Prop where
  filled : ∀ {key target}, aliases.get? key = some target → target ≠ ""
  inside : ∀ {key target}, aliases.get? key = some target → ∀ c ∈ target.toList, holds c = true
  final : ∀ {key target}, aliases.get? key = some target → aliases.get? target = none

namespace ComesToRest

variable {holds : Char → Bool} {aliases : Table String} (rests : ComesToRest holds aliases)

include rests

/-- A run stays a run, and of the same kind. -/
theorem replaceRun_alike {run : List Char} {kind : Bool} (filled : run ≠ [])
    (alike : ∀ c ∈ run, holds c = kind) :
    replaceRun holds aliases run ≠ [] ∧ ∀ c ∈ replaceRun holds aliases run, holds c = kind := by
  rcases replaceRun_cases holds aliases run with same | ⟨all, target, found, replaced⟩
  · rw [same]
    exact ⟨filled, alike⟩
  · have first := List.head_mem filled
    have ofClass : kind = true := (alike _ first).symm.trans (List.all_eq_true.mp all _ first)
    rw [replaced, ofClass]
    exact ⟨toList_ne_nil (rests.filled found), rests.inside found⟩

theorem replaceRun_replaceRun (run : List Char) :
    replaceRun holds aliases (replaceRun holds aliases run) = replaceRun holds aliases run := by
  rcases replaceRun_cases holds aliases run with same | ⟨-, target, found, replaced⟩
  · rw [same, same]
  · rw [replaced, replaceRun, if_pos (List.all_eq_true.mpr (rests.inside found)),
      String.ofList_toList, rests.final found]
    rfl

/-- A stretch whose runs are replaced is cut at the same places again. -/
theorem runs_replaceRuns (stretch : List Char) :
    runs holds (replaceRuns holds aliases stretch) =
      (runs holds stretch).map (replaceRun holds aliases) := by
  rw [replaceRuns, List.flatMap_def]
  refine List.splitBy_flatten ?_ ?_ ?_
  · intro empty
    obtain ⟨run, member, nothing⟩ := List.mem_map.mp empty
    obtain ⟨filled, kind, alike⟩ := alike_of_mem_runs member
    exact (rests.replaceRun_alike filled alike).1 nothing
  · intro replaced inReplaced
    obtain ⟨run, member, rfl⟩ := List.mem_map.mp inReplaced
    obtain ⟨filled, kind, alike⟩ := alike_of_mem_runs member
    have stays := (rests.replaceRun_alike filled alike).2
    refine List.Pairwise.isChain (List.pairwise_of_forall_mem_list fun c inRun d alsoInRun => ?_)
    rw [stays c inRun, stays d alsoInRun]
    exact beq_self_eq_true kind
  · -- Both kinds stay as they are, so they still differ where one run ends and the next begins.
    refine (List.isChain_map _).mpr ((List.isChain_getLast_head_splitBy _ _).imp_of_mem_imp ?_)
    rintro first second inRuns alsoInRuns ⟨_, _, differ⟩
    obtain ⟨firstFilled, firstKind, firstAlike⟩ := alike_of_mem_runs inRuns
    obtain ⟨secondFilled, secondKind, secondAlike⟩ := alike_of_mem_runs alsoInRuns
    obtain ⟨firstLeft, firstStays⟩ := rests.replaceRun_alike firstFilled firstAlike
    obtain ⟨secondLeft, secondStays⟩ := rests.replaceRun_alike secondFilled secondAlike
    refine ⟨firstLeft, secondLeft, ?_⟩
    rw [firstAlike _ (List.getLast_mem _), secondAlike _ (List.head_mem _)] at differ
    rw [firstStays _ (List.getLast_mem _), secondStays _ (List.head_mem _)]
    exact differ

theorem replaceRuns_replaceRuns (stretch : List Char) :
    replaceRuns holds aliases (replaceRuns holds aliases stretch) =
      replaceRuns holds aliases stretch := by
  rw [replaceRuns, rests.runs_replaceRuns, List.flatMap_map, replaceRuns]
  exact List.flatMap_congr fun run _ => rests.replaceRun_replaceRun run

end ComesToRest

/-! ### Lines whose aliases are replaced -/

theorem aliased_of_quoteFree (aliases : List Alias) {stretch : List Char}
    (free : QuoteFree stretch) : aliased aliases .code stretch = substitute aliases stretch := by
  have cut := piecesFrom_code free (show piecesFrom .code [] = [.code []] from rfl)
  rw [List.append_nil] at cut
  rw [aliased, cut, List.flatMap_singleton]
  rfl

section Again

variable {aliases : List Alias}
  (freeAgain : ∀ {stretch}, QuoteFree stretch → QuoteFree (substitute aliases stretch))
  (same : ∀ stretch, substitute aliases (substitute aliases stretch) = substitute aliases stretch)

include freeAgain same

/-- If no stretch gets a quote and each comes to rest, so does the line. -/
theorem aliased_aliased {place : Place} (reached : place.IsReached) (chars : List Char) :
    aliased aliases place (aliased aliases place chars) = aliased aliases place chars := by
  -- A stretch of code is taken as a whole, so the induction is on how many characters are left.
  induction size : chars.length using Nat.strongRecOn generalizing place chars with
  | ind size inductionHypothesis =>
    subst size
    cases place with
    | code =>
      have free : QuoteFree (chars.takeWhile fun c => !isQuote c) := fun c member => by
        simpa using List.mem_takeWhile_imp member
      have whole := List.takeWhile_append_dropWhile (p := fun c => !isQuote c) (l := chars)
      cases rest : chars.dropWhile fun c => !isQuote c with
      | nil =>
        rw [rest, List.append_nil] at whole
        rw [whole] at free
        rw [aliased_of_quoteFree aliases free, aliased_of_quoteFree aliases (freeAgain free), same]
      | cons quote more =>
        have quotes : isQuote quote = true := by
          have ends := List.head?_dropWhile_not (fun c => !isQuote c) chars
          rw [rest] at ends
          simpa using ends
        have inside : (Place.literal quote).IsReached := quotes
        have shorter : more.length < chars.length := by
          rw [← whole, rest, List.length_append, List.length_cons]
          omega
        rw [← whole, rest, aliased_opening quotes free, aliased_opening quotes (freeAgain free),
          same, inductionHypothesis _ shorter inside more rfl]
    | literal quote =>
      cases chars with
      | nil => rfl
      | cons c rest =>
        have shorter : rest.length < (c :: rest).length := Nat.lt_succ_self _
        by_cases backslash : c = '\\'
        · have escaped : (Place.escaped quote).IsReached := reached
          rw [backslash, aliased_backslash, aliased_backslash,
            inductionHypothesis _ shorter escaped rest rfl]
        · by_cases closes : c = quote
          · have outside : Place.code.IsReached := trivial
            rw [closes, aliased_closing reached, aliased_closing reached,
              inductionHypothesis _ shorter outside rest rfl]
          · rw [aliased_plain backslash closes, aliased_plain backslash closes,
              inductionHypothesis _ shorter reached rest rfl]
    | escaped quote =>
      cases chars with
      | nil => rfl
      | cons c rest =>
        have inside : (Place.literal quote).IsReached := reached
        rw [aliased_escaped_cons, aliased_escaped_cons,
          inductionHypothesis _ (Nat.lt_succ_self _) inside rest rfl]

end Again

/-- Aliases that map words to words of which none is a key. -/
structure AreSettled (aliases : Table String) : Prop where
  words : ∀ entry ∈ aliases.entries, entry.1.toList.all isWordChar = true ∧
    entry.2.toList.all isWordChar = true
  final : ∀ entry ∈ aliases.entries, entry.2 ∉ aliases.keys

theorem isQuote_of_isWordChar {c : Char} (word : isWordChar c = true) : isQuote c = false := by
  cases quotes : isQuote c with
  | false => rfl
  | true => rcases isQuote_iff.mp quotes with rfl | rfl <;> exact absurd word (by decide +kernel)

/-- Words bring no quote into a stretch. -/
theorem quoteFree_substitute {aliases : Table String} (settled : AreSettled aliases)
    {stretch : List Char} (free : QuoteFree stretch) :
    QuoteFree (substitute (aliasList aliases) stretch) := by
  intro c member
  rcases mem_substituteFrom member with kept | ⟨candidate, inAliases, inTarget⟩
  · exact free c kept
  · obtain ⟨entry, inTable, rfl⟩ := List.mem_map.mp inAliases
    exact isQuote_of_isWordChar (List.all_eq_true.mp (settled.words entry inTable).2 c inTarget)

section Settled

variable {settings : Settings} (accepted : settings.validate = .ok settings)
  (settled : AreSettled settings.aliases)

include accepted settled

theorem comesToRest_of_settled : ComesToRest isWordChar settings.aliases where
  filled found := ne_empty_of_isName ((Bool.and_eq_true _ _).mp
    (isWordPair_of_validate accepted (Table.get?_eq_some_iff.mp found))).2
  inside found := List.all_eq_true.mp (settled.words _ (Table.get?_eq_some_iff.mp found)).2
  final {key target} found := by
    cases again : settings.aliases.get? target with
    | none => rfl
    | some other =>
      exact absurd (List.mem_map_of_mem (Table.get?_eq_some_iff.mp again))
        (settled.final _ (Table.get?_eq_some_iff.mp found))

theorem substitute_substitute (stretch : List Char) :
    substitute (aliasList settings.aliases) (substitute (aliasList settings.aliases) stretch) =
      substitute (aliasList settings.aliases) stretch := by
  have words : ∀ entry ∈ settings.aliases.entries,
      entry.1 ≠ "" ∧ entry.1.toList.all isWordChar = true := fun entry member =>
    ⟨ne_empty_of_isName ((Bool.and_eq_true _ _).mp (isWordPair_of_validate accepted member)).1,
      (settled.words entry member).1⟩
  rw [(matchRuns_words words stretch).substitute_eq, (matchRuns_words words _).substitute_eq,
    (comesToRest_of_settled accepted settled).replaceRuns_replaceRuns]

/-- Reading a line that was read before changes nothing. -/
theorem trimEnd_applyAliases_again [PatternEngine] (raw : String) :
    trimEnd (applyAliases settings.aliases (trimEnd (applyAliases settings.aliases raw))) =
      trimEnd (applyAliases settings.aliases raw) := by
  cases refusal : aliasRefusal? settings.aliases with
  | some reason =>
    rw [applyAliases_of_refused refusal, applyAliases_of_refused refusal, trimEnd_trimEnd]
  | none =>
    have chars := toList_applyAliases_of_built refusal
    have outside : Place.code.IsReached := trivial
    have again := aliased_aliased (quoteFree_substitute settled)
      (substitute_substitute accepted settled) outside raw.toList
    -- The blanks that were trimmed are copied by aliasing, so they can be left out on both sides.
    have whole : trimBack (applyAliases settings.aliases raw).toList ++
        (applyAliases settings.aliases raw).toList.rtakeWhile isBlank =
          (applyAliases settings.aliases raw).toList := List.rdropWhile_append_rtakeWhile
    rw [← chars, ← whole, aliased_append_blanks (forWord_of_validate accepted)
      fun c => List.mem_rtakeWhile_imp] at again
    rw [← String.toList_inj, toList_trimEnd, chars, toList_trimEnd,
      List.append_cancel_right again, trimBack_trimBack]

end Settled

/-- Under accepted settings, reading gives one line for each raw line that is not blank, in order
and under its number, and the text of each is not blank, fits on a line and has no blank at its end.
If the aliases map words to words of which none is a key, the texts come back as they are when they
are written with newlines between them and read again. -/
theorem readSource_canonical [PatternEngine] {settings : Settings}
    (accepted : settings.validate = .ok settings) (source : String) :
    (readSource settings.aliases source).value =
        (((rawLines source).zipIdx 1).filter fun entry => !isBlankText entry.1).map (fun entry =>
          ⟨entry.2, trimEnd (applyAliases settings.aliases entry.1)⟩) ∧
      (∀ line ∈ (readSource settings.aliases source).value, IsReadText line.text) ∧
      (AreSettled settings.aliases →
        (readSource settings.aliases ("\n".intercalate
            ((readSource settings.aliases source).value.map Line.text))).value.map Line.text =
          (readSource settings.aliases source).value.map Line.text) := by
  have areRead : ∀ text ∈ (readSource settings.aliases source).value.map Line.text,
      IsReadText text := by
    intro text member
    obtain ⟨line, inLines, rfl⟩ := List.mem_map.mp member
    exact isReadText_of_mem_readSource accepted inLines
  refine ⟨countedLines_eq settings.aliases 1 (rawLines source),
    fun line member => isReadText_of_mem_readSource accepted member, fun settled => ?_⟩
  rw [readSource, readLines, rawLines_intercalate areRead]
  refine map_text_countedLines (fun text member => (areRead text member).solid) ?_ 1
  intro text member
  obtain ⟨line, inLines, rfl⟩ := List.mem_map.mp member
  obtain ⟨raw, -, -, same⟩ := exists_raw_of_mem_countedLines inLines
  rw [same, trimEnd_applyAliases_again accepted settled]

/-- Blank lines, a literal that is never closed and an alias at the end of a line. -/
def untidySource : String :=
  "\n  print 'let\\' \t\n \t\r\nlet x = print  \r\nletter"

theorem readSource_untidySource :
    Settings.standard.validate = .ok .standard ∧ AreSettled Settings.standard.aliases ∧
      (readSource Settings.standard.aliases untidySource).value =
        [⟨2, "  show 'let\\'"⟩, ⟨4, "set x = show"⟩, ⟨5, "letter"⟩] ∧
      IsReadText "set x = show" ∧
      (readSource Settings.standard.aliases
          ("\n".intercalate ["  show 'let\\'", "set x = show", "letter"])).value.map Line.text =
        ["  show 'let\\'", "set x = show", "letter"] := by
  have accepted : Settings.standard.validate = .ok .standard := rfl
  have settled : AreSettled Settings.standard.aliases :=
    ⟨by decide +kernel, by decide +kernel⟩
  have lines : (readSource Settings.standard.aliases untidySource).value =
      [⟨2, "  show 'let\\'"⟩, ⟨4, "set x = show"⟩, ⟨5, "letter"⟩] := by
    decide +kernel
  obtain ⟨-, areRead, again⟩ := readSource_canonical accepted untidySource
  rw [lines] at areRead again
  exact ⟨accepted, settled, lines,
    areRead _ (List.mem_cons_of_mem _ List.mem_cons_self), again settled⟩

end LineScript
