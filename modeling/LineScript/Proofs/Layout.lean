/-
This file proves that the layout of a source is no part of the program. Blank lines may be added or
left out, and every line may be indented and followed by blanks as one likes: the lines that count
are then the same up to their numbers, and so are the program, the error if there is none, and what
the program does. To compare the numbers, each is replaced by the place of its line among the lines
that are not blank, counted from one.
-/

import LineScript.Proofs.Margin
import LineScript.Proofs.RenumberedRun

namespace LineScript

open Text

/-! ### Lines that are not blank -/

/-- The lines that are not blank, trimmed. -/
def filledLines (raws : List String) : List String :=
  (raws.filter fun raw => !isBlankText raw).map trim

/-- The place of the line with a number among the lines that are not blank. -/
def ordinal (raws : List String) (number : Nat) : Nat :=
  (raws.take number).countP fun raw => !isBlankText raw

/-- Texts as lines, from a number on. -/
def linesFrom [PatternEngine] (aliases : Table String) (first : Nat) (texts : List String) :
    List Line :=
  (texts.zipIdx first).map fun entry => ⟨entry.2, trim (applyAliases aliases entry.1)⟩

section Cons

variable {raw : String} (rest : List String)

theorem filledLines_cons_blank (blank : isBlankText raw = true) :
    filledLines (raw :: rest) = filledLines rest := by
  simp [filledLines, blank]

theorem filledLines_cons_filled (filled : isBlankText raw = false) :
    filledLines (raw :: rest) = trim raw :: filledLines rest := by
  simp [filledLines, filled]

theorem ordinal_cons_blank (blank : isBlankText raw = true) (number : Nat) :
    ordinal (raw :: rest) (number + 1) = ordinal rest number := by
  simp [ordinal, blank]

theorem ordinal_cons_filled (filled : isBlankText raw = false) (number : Nat) :
    ordinal (raw :: rest) (number + 1) = ordinal rest number + 1 := by
  simp [ordinal, filled]

end Cons

/-- The lines that count are the trimmed lines that are not blank, numbered one after the other, if
the numbers are replaced by places. Here some lines went before, `before` of them not blank. -/
theorem countedLines_placed [PatternEngine] {settings : Settings}
    (accepted : settings.validate = .ok settings) {place : Nat → Nat} {raws : List String}
    {number before : Nat}
    (counts : ∀ i, place (number + i) = before + ordinal raws (i + 1)) :
    (countedLines settings.aliases number raws).map (Line.placed place) =
      linesFrom settings.aliases (before + 1) (filledLines raws) := by
  induction raws generalizing number before with
  | nil => rfl
  | cons raw rest inductionHypothesis =>
    have next (i : Nat) : place (number + 1 + i) = before + ordinal (raw :: rest) (i + 1 + 1) := by
      rw [Nat.add_right_comm, Nat.add_assoc]
      exact counts (i + 1)
    rw [countedLines]
    cases blank : isBlankText raw with
    | true =>
      rw [if_pos rfl, filledLines_cons_blank rest blank]
      refine inductionHypothesis fun i => ?_
      rw [next, ordinal_cons_blank rest blank]
    | false =>
      have first : place number = before + 1 := by
        rw [← Nat.add_zero number, counts, ordinal_cons_filled rest blank]
        rfl
      have others : (countedLines settings.aliases (number + 1) rest).map (Line.placed place) =
          linesFrom settings.aliases (before + 1 + 1) (filledLines rest) := by
        refine inductionHypothesis fun i => ?_
        rw [next, ordinal_cons_filled rest blank]
        omega
      rw [if_neg Bool.false_ne_true, filledLines_cons_filled rest blank, List.map_cons, others,
        Line.placed, first, trim_trimEnd, trim_applyAliases accepted]
      rfl

theorem readLines_placed [PatternEngine] {settings : Settings}
    (accepted : settings.validate = .ok settings) (raws : List String) :
    (readLines settings.aliases raws).value.map (Line.placed (ordinal raws)) =
      linesFrom settings.aliases 1 (filledLines raws) :=
  countedLines_placed accepted fun i => by rw [Nat.zero_add, Nat.add_comm]

/-! ### Programs -/

/-- Sources with the same lines, blank lines and the blanks around lines aside, are the same program
or the same error, if every line number is replaced by the place of its line among the lines that
are not blank. Both programs then do the same to every sink in every mode, and end with the same
error about the same line, or both without one. -/
theorem parseProgram_layout_insensitive [PatternEngine] {settings : Settings}
    (accepted : settings.validate = .ok settings) {raws others : List String}
    (same : filledLines raws = filledLines others) (strict : Bool) :
    let result := (parseProgram strict (readLines settings.aliases raws).value).value
    let otherResult := (parseProgram strict (readLines settings.aliases others).value).value
    renumberedResult (ordinal raws) (Stmt.allRenumbered (ordinal raws)) result =
        renumberedResult (ordinal others) (Stmt.allRenumbered (ordinal others)) otherResult ∧
      ∀ program, result = .ok program → ∃ otherProgram, otherResult = .ok otherProgram ∧
        ∀ sink mode events notices otherNotices,
          let run := runProgram sink false program mode ⟨(), events, notices⟩
          let otherRun := runProgram sink false otherProgram mode ⟨(), events, otherNotices⟩
          (endState run).events = (endState otherRun).events ∧
            (endError? run).map (RunError.renumbered (ordinal raws)) =
              (endError? otherRun).map (RunError.renumbered (ordinal others)) := by
  intro result otherResult
  have read : renumberedResult (ordinal raws) (Stmt.allRenumbered (ordinal raws)) result =
      renumberedResult (ordinal others) (Stmt.allRenumbered (ordinal others)) otherResult := by
    rw [← parseProgram_placed, ← parseProgram_placed, readLines_placed accepted,
      readLines_placed accepted, same]
  refine ⟨read, fun program ok => ?_⟩
  rw [ok] at read
  cases otherOk : otherResult with
  | error error =>
    rw [otherOk] at read
    cases read
  | ok otherProgram =>
    rw [otherOk] at read
    exact ⟨otherProgram, rfl, runProgram_of_renumbered_eq (Except.ok.inj read)⟩

/-- A loop over a name that nothing sets. -/
def tightLines : List String :=
  ["loop 2", "print n", "end"]

/-- The same loop with an indented body and blank lines. -/
def spreadLines : List String :=
  ["loop 2", "", "    print n  ", "\t", "  end"]

theorem parseProgram_spreadLines :
    Settings.standard.validate = .ok .standard ∧
      filledLines spreadLines = filledLines tightLines ∧
      (parseProgram true (readLines Settings.standard.aliases spreadLines).value).value =
        .ok [.block 1 (.loop "2") [.print 3 "n"]] ∧
      (parseProgram true (readLines Settings.standard.aliases tightLines).value).value =
        .ok [.block 1 (.loop "2") [.print 2 "n"]] ∧
      ∀ sink mode,
        let run := runProgram sink false [.block 1 (.loop "2") [.print 3 "n"]] mode ⟨(), [], []⟩
        let otherRun :=
          runProgram sink false [.block 1 (.loop "2") [.print 2 "n"]] mode ⟨(), [], []⟩
        (endState run).events = (endState otherRun).events ∧
          (endError? run).map (RunError.renumbered (ordinal spreadLines)) =
            (endError? otherRun).map (RunError.renumbered (ordinal tightLines)) := by
  have accepted : Settings.standard.validate = .ok .standard := rfl
  have same : filledLines spreadLines = filledLines tightLines := by decide +kernel
  have spread : (readLines Settings.standard.aliases spreadLines).value =
      [⟨1, "loop 2"⟩, ⟨3, "    show n"⟩, ⟨5, "  end"⟩] := by decide +kernel
  have tight : (readLines Settings.standard.aliases tightLines).value =
      [⟨1, "loop 2"⟩, ⟨2, "show n"⟩, ⟨3, "end"⟩] := by decide +kernel
  have spreadRead : (parseProgram true
      (readLines Settings.standard.aliases spreadLines).value).value =
        .ok [.block 1 (.loop "2") [.print 3 "n"]] := by
    rw [spread]
    rfl
  have tightRead : (parseProgram true
      (readLines Settings.standard.aliases tightLines).value).value =
        .ok [.block 1 (.loop "2") [.print 2 "n"]] := by
    rw [tight]
    rfl
  obtain ⟨-, runs⟩ := parseProgram_layout_insensitive accepted same true
  obtain ⟨otherProgram, otherRead, ran⟩ := runs _ spreadRead
  cases otherRead.symm.trans tightRead
  exact ⟨accepted, same, spreadRead, tightRead, fun sink mode => ran sink mode [] [] []⟩

end LineScript
