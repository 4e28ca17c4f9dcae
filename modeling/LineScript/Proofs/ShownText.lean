/-
This file follows a line that shows a quoted text from the source to the output. The line is read
whole, its word `show` stays, and what comes after it is evaluated with no names known. A text that
is escaped between single quotes is one literal for every part that looks at it, so it is shown as
it is. A text that stands between double quotes as it is may look like several literals with code
between them to the aliases, while the evaluation takes all of it for the text. There an alias can
get in.
-/

import LineScript.Proofs.Aliased
import LineScript.Proofs.Omission
import LineScript.Proofs.Rendering
import LineScript.Proofs.Written
import LineScript.Script.Run

namespace LineScript

open Text

/-! ### One line -/

/-- A text that fills a line is the only line of a source that holds nothing else. -/
theorem rawLines_of_isLineText {line : String} (fills : IsLineText line) :
    rawLines line = [line] := by
  rw [rawLines, splitAtNewlines_of_not_mem fills.oneLine, linesOfPieces,
    if_neg (toList_ne_nil fills.filled), List.map_singleton, String.ofList_toList]

/-- A text that starts with a quote. -/
def StartsQuoted (text : String) : Prop :=
  ∃ quote rest, text.toList = quote :: rest ∧ isQuote quote = true

/-- The word `show` in front of a literal stays, and what comes after it is aliased by itself. -/
theorem applyAliases_show [PatternEngine] {aliases : Table String}
    (keep : KeepShow (aliasList aliases)) {operand : String} (starts : StartsQuoted operand) :
    applyAliases aliases ("show" ++ " " ++ operand) =
      "show" ++ " " ++ applyAliases aliases operand := by
  obtain ⟨quote, rest, same, quotes⟩ := starts
  have line : ("show" ++ " " ++ operand).toList = "show ".toList ++ quote :: rest := by
    rw [toList_append_space, same]
    rfl
  have free : ∀ c ∈ "show ".toList, isQuote c = false := by simp [isQuote]
  rw [← String.toList_inj, toList_applyAliases, line, aliased_opening quotes free,
    keep.inForce.absentFrom_show.substitute_eq, toList_append_space, toList_applyAliases, same,
    aliased_opening_nil keep.inForce quotes]
  rfl

/-- A line that shows a literal is read as one statement. -/
theorem parseSource_show [PatternEngine] {settings : Settings}
    (keep : KeepShow (aliasList settings.aliases)) {operand : String}
    (starts : StartsQuoted operand) (fills : IsLineText operand)
    (fillsAliased : IsLineText (applyAliases settings.aliases operand)) :
    (parseSource settings ("show" ++ " " ++ operand)).value =
      .ok [.print 1 (applyAliases settings.aliases operand)] := by
  have line : IsLineText ("show" ++ " " ++ operand) := .append (by decide) fills
  have lineAliased : IsLineText ("show" ++ " " ++ applyAliases settings.aliases operand) :=
    .append (by decide) fillsAliased
  have lines : (readSource settings.aliases ("show" ++ " " ++ operand)).value =
      [⟨1, "show" ++ " " ++ applyAliases settings.aliases operand⟩] := by
    rw [readSource, rawLines_of_isLineText line, readLines]
    simp only [countedLines, isBlankText_of_isLineText line, if_neg Bool.false_ne_true,
      applyAliases_show keep starts, trimEnd_of_isLineText lineAliased]
  have reads : ReadsAs settings.strict
      [⟨1, "show" ++ " " ++ applyAliases settings.aliases operand⟩]
      [.print 1 (applyAliases settings.aliases operand)] :=
    .statement (Line.classify_of_spells lineAliased rfl (spells_print fillsAliased))
  rw [parseSource]
  simp only [lines, reads.parseProgram_eq]

/-! ### One statement -/

/-- A run that came to its end and wrote this text, and nothing else. -/
structure Report.Writes (report : Report) (text : String) : Prop where
  ended : report.error? = none
  written : writtenBytes report.events = text.toUTF8

theorem bindings_empty : Environment.empty.bindings = .empty := rfl

theorem globalBindings_empty : globalBindings .empty = .empty := rfl

theorem note_apply {names : Type} (notice : Notice) (state : RunState names) :
    note notice state = .ok () { state with notices := notice :: state.notices } := rfl

section

variable {line : Nat} {expr : String} {value : Value}

theorem evaluateAt_print {names : Type} {bindings : names → Bindings} {known : names}
    (valued : evaluate (bindings known) expr = .ok value) (events : List Event)
    (notices : List Notice) :
    (do
      let value ← evaluateAt bindings line expr
      writeLine .unlimited value.text : Action names Unit) ⟨known, events, notices⟩ =
      .ok () ⟨known, .write (value.text ++ "\n").toUTF8 :: events, notices⟩ := by
  rw [bind_apply, evaluateAt_apply]
  simp only [valued, writeLine_unlimited]

theorem treePart_print (valued : evaluate .empty expr = .ok value) (notices : List Notice) :
    treePart .unlimited [.print line expr] ⟨(), [], notices⟩ =
      .ok () ⟨(), [.flush, .write (value.text ++ "\n").toUTF8], notices⟩ := by
  rw [← bindings_empty] at valued
  have ran : Stmt.runAll .unlimited [.print line expr] ⟨Environment.empty, [], notices⟩ =
      .ok () ⟨Environment.empty, [.write (value.text ++ "\n").toUTF8], notices⟩ := by
    rw [Stmt.runAll, bind_apply, Stmt.run, evaluateAt_print valued, Stmt.runAll]
    rfl
  have flushed := thenFlush_unlimited_eq_ok.mpr ⟨_, ran, rfl⟩
  rw [treePart, onOwnNames, runTree]
  simp only [flushed]

theorem machinePart_print (line : Nat) (valued : evaluate .empty expr = .ok value)
    (notices : List Notice) :
    ∃ more, machinePart .unlimited false [.print line expr] ⟨(), [], notices⟩ =
      .ok () ⟨(), [.flush, .write (value.text ++ "\n").toUTF8], more⟩ := by
  rw [← globalBindings_empty] at valued
  have ran : ∀ notices, ∃ more,
      runSteps .unlimited 0 [(.print expr, line)] ⟨Table.empty, [], notices⟩ =
        .ok () ⟨Table.empty, [.write (value.text ++ "\n").toUTF8], more⟩ := by
    intro notices
    refine ⟨.finished 0 :: .executing 0 "PRINT" :: notices, ?_⟩
    rw [runSteps, bind_apply]
    simp only [note_apply]
    rw [bind_apply, Instruction.run, evaluateAt_print valued, runSteps]
    rfl
  obtain ⟨more, steps⟩ := ran (.compiled 1 :: notices)
  have flushed := thenFlush_unlimited_eq_ok.mpr ⟨_, steps, rfl⟩
  have chunk : runChunk .unlimited (compile [.print line expr]).value
      ⟨Table.empty, [], .compiled 1 :: notices⟩ =
        .ok () ⟨Table.empty, [.flush, .write (value.text ++ "\n").toUTF8], more⟩ := by
    rw [runChunk, bind_apply]
    exact flushed
  refine ⟨more, ?_⟩
  have noted : ((compile [.print line expr]).notices.forM note : Action Unit Unit)
      ⟨(), [], notices⟩ = .ok () ⟨(), [], .compiled 1 :: notices⟩ := rfl
  rw [machinePart, bind_apply, noted]
  simp only [Bool.false_eq_true, if_false, onOwnNames, chunk]

/-- A source of one statement that shows a value writes the value, in either way of running. -/
theorem writes_of_print [PatternEngine] {settings : Settings} {source : String}
    (parsed : (parseSource settings source).value = .ok [.print line expr])
    (valued : evaluate .empty expr = .ok value) {mode : Mode} (single : mode ≠ .both) :
    (runSource .unlimited settings mode false source).Writes (value.text ++ "\n") := by
  have report : ∃ notices, runSource .unlimited settings mode false source =
      ⟨[.write (value.text ++ "\n").toUTF8, .flush], notices, none⟩ := by
    unfold runSource
    simp only [parsed]
    cases mode with
    | tree =>
      rw [runProgram, treePart_print valued]
      exact ⟨_, rfl⟩
    | machine =>
      obtain ⟨more, ran⟩ :=
        machinePart_print line valued (parseSource settings source).notices.reverse
      rw [runProgram, ran]
      exact ⟨_, rfl⟩
    | both => exact absurd rfl single
  obtain ⟨notices, same⟩ := report
  rw [same]
  refine ⟨rfl, ?_⟩
  have written := writtenBytes_flush [.write (value.text ++ "\n").toUTF8]
  exact written.trans ByteArray.empty_append

end

/-! ### Texts between quotes -/

theorem newline_ne_of_isQuote {c : Char} (quotes : isQuote c = true) : '\n' ≠ c := by
  rintro rfl
  cases quotes

/-- A text between quotes that holds no newline fills a line. -/
theorem isLineText_of_quotes {quote : Char} (quotes : isQuote quote = true) {text : String}
    {inside : List Char} (same : text.toList = quote :: (inside ++ [quote]))
    (oneLine : '\n' ∉ inside) : IsLineText text := by
  have solid : isBlank quote = false := by
    rcases isQuote_iff.mp quotes with rfl | rfl <;> decide
  have other := newline_ne_of_isQuote quotes
  refine ⟨?_, ?_, ?_⟩
  · rintro rfl
    cases same
  · rw [trim_eq_self_iff, same]
    exact isTrimmed_of_ends solid solid inside
  · simp only [same, List.mem_cons, List.mem_append, List.not_mem_nil, or_false, not_or]
    exact ⟨other, oneLine, other⟩

/-- A text between single quotes, with escapes. -/
def singleQuoted (text : String) : String :=
  "'" ++ String.ofList (escaped '\'' text.toList) ++ "'"

theorem toList_singleQuoted (text : String) :
    (singleQuoted text).toList = '\'' :: (escaped '\'' text.toList ++ ['\'']) := by
  simp only [singleQuoted, String.toList_append, String.toList_ofList]
  rfl

/-- Nothing of a written string breaks a line. -/
theorem newline_not_mem_escaped {quote : Char} (quotes : isQuote quote = true)
    (chars : List Char) : '\n' ∉ escaped quote chars := by
  have other := newline_ne_of_isQuote quotes
  rw [escaped, List.mem_flatMap]
  rintro ⟨c, -, member⟩
  revert member
  fun_cases escapedChar quote c with
  | case1 => decide
  | case2 => simp [other]
  | case3 => decide
  | case4 => decide
  | case5 _ _ noNewline => simp [Ne.symm noNewline]

theorem isLineText_singleQuoted (text : String) : IsLineText (singleQuoted text) :=
  isLineText_of_quotes rfl (toList_singleQuoted text) (newline_not_mem_escaped rfl _)

/-- A string between single quotes is an expression, and nothing else. -/
theorem parseExpr_singleQuoted (text : String) :
    ∃ span, parseExpr (singleQuoted text) = .ok (.string text span) := by
  have row : singleQuoted text = rendered '\'' [.string text] := by
    rw [← String.toList_inj, toList_singleQuoted, toList_rendered_singleton, TokenKind.written,
      String.toList_ofList]
  have quotes : isQuote '\'' = true := rfl
  have writable : Writable [.string text] := .singleton rfl
  obtain ⟨⟨tokens, stop⟩, scanned, same⟩ := scan_rendered quotes writable
  obtain ⟨span, rfl⟩ := kindsOf_eq_singleton same
  refine ⟨span, ?_⟩
  rw [parseExpr, row, scanned]
  rfl

theorem evaluate_singleQuoted (bindings : Bindings) (text : String) :
    evaluate bindings (singleQuoted text) = .ok (.string text) := by
  obtain ⟨span, parsed⟩ := parseExpr_singleQuoted text
  have noBypass : quoted? (singleQuoted text) = none := by
    rw [quoted?, toList_singleQuoted]
    rfl
  rw [evaluate, (isLineText_singleQuoted text).trimmed, evaluateTrimmed, noBypass, parsed]
  rfl

theorem applyAliases_singleQuoted [PatternEngine] {aliases : Table String}
    (keep : KeepShow (aliasList aliases)) (text : String) :
    applyAliases aliases (singleQuoted text) = singleQuoted text := by
  rw [← String.toList_inj, toList_applyAliases, toList_singleQuoted,
    aliased_opening_nil keep.inForce rfl, aliased_escaped keep.inForce rfl]

/-- Whatever the text, a line that shows it between single quotes, with escapes, is read as that
statement and writes the text, in either way of running. -/
theorem runSource_show_singleQuoted [PatternEngine] {settings : Settings}
    (accepted : settings.validate = .ok settings)
    (free : "show" ∉ settings.aliases.entries.map Prod.fst) (text : String) :
    (parseSource settings ("show" ++ " " ++ singleQuoted text)).value =
        .ok [.print 1 (singleQuoted text)] ∧
      (runSource .unlimited settings .tree false ("show" ++ " " ++ singleQuoted text)).Writes
        (text ++ "\n") ∧
      (runSource .unlimited settings .machine false ("show" ++ " " ++ singleQuoted text)).Writes
        (text ++ "\n") := by
  have keep := keepShow_of_validate accepted free
  have starts : StartsQuoted (singleQuoted text) := ⟨'\'', _, toList_singleQuoted text, rfl⟩
  have fills := isLineText_singleQuoted text
  have same := applyAliases_singleQuoted keep text
  have parsed := parseSource_show keep starts fills (same.symm ▸ fills)
  rw [same] at parsed
  have valued := evaluate_singleQuoted .empty text
  exact ⟨parsed, writes_of_print parsed valued nofun, writes_of_print parsed valued nofun⟩

/-- Settings whose aliases are for the letters of escapes and for a word of the text below. -/
def letterSettings : Settings where
  aliases := .ofList [("n", "x"), ("r", "x"), ("let", "set")]
  extensions := [".tzx"]
  strict := true

theorem runSource_show_letters :
    singleQuoted "it's\nlet \"n\" \\\r" = "'it\\'s\\nlet \"n\" \\\\\\r'" ∧
      (runSource .unlimited letterSettings .tree false
        ("show" ++ " " ++ singleQuoted "it's\nlet \"n\" \\\r")).Writes
          ("it's\nlet \"n\" \\\r" ++ "\n") ∧
      (runSource .unlimited letterSettings .machine false
        ("show" ++ " " ++ singleQuoted "it's\nlet \"n\" \\\r")).Writes
          ("it's\nlet \"n\" \\\r" ++ "\n") :=
  ⟨by decide +kernel, (runSource_show_singleQuoted rfl (by decide) _).2⟩

/-! ### Texts as they are -/

/-- A text between double quotes, as it is. -/
def doubleQuoted (text : String) : String :=
  "\"" ++ text ++ "\""

theorem toList_doubleQuoted (text : String) :
    (doubleQuoted text).toList = '"' :: (text.toList ++ ['"']) := by
  simp only [doubleQuoted, String.toList_append]
  rfl

theorem isLineText_doubleQuoted {text : String} (oneLine : '\n' ∉ text.toList) :
    IsLineText (doubleQuoted text) :=
  isLineText_of_quotes rfl (toList_doubleQuoted text) oneLine

theorem quoted?_doubleQuoted (text : String) : quoted? (doubleQuoted text) = some text := by
  rw [quoted?, toList_doubleQuoted]
  simp only [List.getLast?_concat, if_true, List.dropLast_concat, String.ofList_toList]

/-- A text between double quotes is taken as it is, unless it is an expression with quotes
inside. -/
theorem evaluate_doubleQuoted (text : String) (oneLine : '\n' ∉ text.toList)
    (safe : '"' ∉ text.toList ∨ (parseExpr (doubleQuoted text)).isOk = false)
    (bindings : Bindings) : evaluate bindings (doubleQuoted text) = .ok (.string text) := by
  rw [evaluate, (isLineText_doubleQuoted oneLine).trimmed, evaluateTrimmed, quoted?_doubleQuoted]
  by_cases inside : '"' ∈ text.toList
  · have failed := safe.resolve_left (not_not_intro inside)
    cases parsed : parseExpr (doubleQuoted text) with
    | ok expr =>
      rw [parsed] at failed
      cases failed
    | error error => simp [Option.filter_some, inside]
  · simp [Option.filter_some, inside]

/-- With its aliases replaced, a text between double quotes is still one. -/
theorem exists_applyAliases_doubleQuoted [PatternEngine] {aliases : Table String}
    (keep : KeepShow (aliasList aliases)) (text : String) :
    ∃ shown, applyAliases aliases (doubleQuoted text) = doubleQuoted shown := by
  have quotes : isQuote '"' = true := rfl
  obtain ⟨front, same⟩ := exists_aliased_concat keep.inForce quotes (.literal '"') text.toList
  refine ⟨String.ofList front, ?_⟩
  rw [← String.toList_inj, toList_applyAliases, toList_doubleQuoted, toList_doubleQuoted,
    aliased_opening_nil keep.inForce quotes, same, String.toList_ofList]

/-- No alias stands between the literals of a text. -/
def LeaveAlone (aliases : Table String) (text : String) : Prop :=
  ∀ stretch, .code stretch ∈ piecesFrom .code text.toList → AbsentFrom (aliasList aliases) stretch

/-- A text between double quotes stays as it is if it has no double quote inside, or if no alias
stands where the aliases see code. -/
theorem applyAliases_doubleQuoted [PatternEngine] {aliases : Table String}
    (keep : KeepShow (aliasList aliases)) {text : String}
    (safe : '"' ∉ text.toList ∨ LeaveAlone aliases (doubleQuoted text)) :
    applyAliases aliases (doubleQuoted text) = doubleQuoted text := by
  rw [← String.toList_inj, toList_applyAliases]
  rcases safe with free | alone
  · rw [toList_doubleQuoted, aliased_opening_nil keep.inForce rfl,
      (aliased_of_not_mem keep.inForce rfl free).1]
  · exact aliased_of_absent fun stretch inside candidate member =>
      alone stretch inside candidate (aliasList_aliasesInForce_subset member)

theorem runSource_show_aliased [PatternEngine] {settings : Settings}
    (accepted : settings.validate = .ok settings)
    (free : "show" ∉ settings.aliases.entries.map Prod.fst) {text shown : String}
    (oneLine : '\n' ∉ text.toList)
    (same : applyAliases settings.aliases (doubleQuoted text) = doubleQuoted shown) {value : Value}
    (valued : evaluate .empty (doubleQuoted shown) = .ok value) :
    (runSource .unlimited settings .tree false ("show" ++ " " ++ doubleQuoted text)).Writes
      (value.text ++ "\n") := by
  have keep := keepShow_of_validate accepted free
  have starts : StartsQuoted (doubleQuoted text) := ⟨'"', _, toList_doubleQuoted text, rfl⟩
  have fills := isLineText_doubleQuoted oneLine
  have shownOneLine : '\n' ∉ shown.toList := by
    have absent := newline_not_mem_applyAliases accepted fills.oneLine
    rw [same, toList_doubleQuoted] at absent
    exact fun inside => absent (List.mem_cons_of_mem _ (List.mem_append_left _ inside))
  -- What is evaluated is the operand with its aliases replaced, not the operand of the source.
  have parsed := parseSource_show keep starts fills
    (same.symm ▸ isLineText_doubleQuoted shownOneLine)
  rw [same] at parsed
  exact writes_of_print parsed valued nofun

/-- Let a text stand between double quotes and be taken as it is by the evaluation. A line that
shows it writes it, if the text has no double quote inside or no alias stands where the aliases see
code. What the aliases make of the text stands between double quotes again, and if that has a value,
the line writes the value. -/
theorem runSource_show_doubleQuoted [PatternEngine] {settings : Settings}
    (accepted : settings.validate = .ok settings)
    (free : "show" ∉ settings.aliases.entries.map Prod.fst) {text : String}
    (oneLine : '\n' ∉ text.toList)
    (literal : evaluate .empty (doubleQuoted text) = .ok (.string text)) :
    ('"' ∉ text.toList ∨ LeaveAlone settings.aliases (doubleQuoted text) →
        (runSource .unlimited settings .tree false ("show" ++ " " ++ doubleQuoted text)).Writes
          (text ++ "\n")) ∧
      ∃ shown, applyAliases settings.aliases (doubleQuoted text) = doubleQuoted shown ∧
        ∀ value, evaluate .empty (doubleQuoted shown) = .ok value →
          (runSource .unlimited settings .tree false ("show" ++ " " ++ doubleQuoted text)).Writes
            (value.text ++ "\n") := by
  have keep := keepShow_of_validate accepted free
  constructor
  · intro safe
    exact runSource_show_aliased accepted free oneLine (applyAliases_doubleQuoted keep safe) literal
  · obtain ⟨shown, same⟩ := exists_applyAliases_doubleQuoted keep text
    exact ⟨shown, same, fun _ => runSource_show_aliased accepted free oneLine same⟩

theorem standard_accepted : Settings.standard.validate = .ok .standard := rfl

theorem leaveAlone_innerQuotes :
    LeaveAlone Settings.standard.aliases (doubleQuoted "say \"hi\" now") := by
  have pieces : piecesFrom .code (doubleQuoted "say \"hi\" now").toList =
      [.code [], .literal "\"say \"".toList, .code "hi".toList, .literal "\" now\"".toList,
        .code []] := by decide +kernel
  have foreign : ∀ candidate ∈ aliasList Settings.standard.aliases,
      ¬ candidate.key ⊆ "hi".toList := by decide
  intro stretch member candidate inTable stands
  rw [pieces] at member
  have inside : stretch ⊆ "hi".toList := by
    simp only [List.mem_cons, Piece.code.injEq, reduceCtorEq, List.not_mem_nil, or_false,
      false_or] at member
    rcases member with rfl | rfl | rfl
    · exact List.nil_subset _
    · exact List.Subset.refl _
    · exact List.nil_subset _
  exact foreign candidate inTable (List.Subset.trans stands.key_subset inside)

theorem runSource_show_innerQuotes :
    (runSource .unlimited .standard .tree false
      ("show" ++ " " ++ doubleQuoted "say \"hi\" now")).Writes ("say \"hi\" now" ++ "\n") :=
  (runSource_show_doubleQuoted standard_accepted (by decide) (by decide)
    (evaluate_doubleQuoted _ (by decide) (.inr (by decide +kernel)) .empty)).1
    (.inr leaveAlone_innerQuotes)

/-- The evaluation takes all of `"say "let" now"` for a text, but the aliases see two literals and
the word `let` between them, so another text is shown. -/
theorem alias_between_quotes :
    Settings.standard.validate = .ok .standard ∧
      "show" ∉ Settings.standard.aliases.entries.map Prod.fst ∧
      evaluate .empty (doubleQuoted "say \"let\" now") = .ok (.string "say \"let\" now") ∧
      (runSource .unlimited .standard .tree false
        ("show" ++ " " ++ doubleQuoted "say \"let\" now")).Writes ("say \"set\" now" ++ "\n") ∧
      ¬ (runSource .unlimited .standard .tree false
        ("show" ++ " " ++ doubleQuoted "say \"let\" now")).Writes ("say \"let\" now" ++ "\n") := by
  have free : "show" ∉ Settings.standard.aliases.entries.map Prod.fst := by decide
  have aliased : applyAliases Settings.standard.aliases (doubleQuoted "say \"let\" now") =
      doubleQuoted "say \"set\" now" := by decide +kernel
  have literal :=
    evaluate_doubleQuoted "say \"let\" now" (by decide) (.inr (by decide +kernel)) .empty
  have changed :=
    evaluate_doubleQuoted "say \"set\" now" (by decide) (.inr (by decide +kernel)) .empty
  have writes := runSource_show_aliased standard_accepted free (by decide) aliased changed
  refine ⟨standard_accepted, free, literal, writes, fun other => ?_⟩
  have same := String.toByteArray_inj.mp (writes.written.symm.trans other.written)
  exact absurd same (by decide)

end LineScript
