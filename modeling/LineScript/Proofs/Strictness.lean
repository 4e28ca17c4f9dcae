/-
This file compares strict and permissive reading. A line outside all records that is no statement is
skipped by the one and refused by the other; on all other lines the two do the same. Which lines are
skipped depends on what is open when they come, so the pass marks them as it goes.

It follows that a permissive reading is the strict reading of the lines that are left when the
skipped ones are taken out. A strict reading of all lines either meets no such line, and then gives
the same result, or stops at the first of them.
-/

import LineScript.Proofs.OnePass

namespace LineScript

open Text

namespace Pass

/-! ### Lines that are skipped -/

/-- Whether a line is skipped: it stands outside all records and is no statement. -/
def skips (pass : Pass) (line : Line) : Bool :=
  pass.record?.isNone && line.classify matches .ok .unknown

/-- The lines that a permissive pass comes to, each with a mark that says whether it is skipped. An
error ends the reading, and no line after it is skipped. -/
def marked : Pass → List Line → List (Line × Bool)
  | _, [] => []
  | pass, line :: rest =>
    (line, pass.skips line) ::
      match pass.step false line with
      | .error _ => rest.map fun later => (later, false)
      | .ok next => next.marked rest

/-- A pass that does not know what it skipped. -/
def forgetful (pass : Pass) : Pass :=
  { pass with skipped := [] }

theorem skips_eq_true {pass : Pass} {line : Line} :
    pass.skips line = true ↔ pass.record? = none ∧ line.classify = .ok .unknown := by
  unfold skips
  rw [Bool.and_eq_true, Option.isNone_iff_eq_none]
  cases line.classify with
  | error error => simp
  | ok kind => cases kind <;> simp

/-- A skipped line changes nothing but the record of what was skipped. -/
theorem step_of_skips {pass : Pass} {line : Line} (skipped : pass.skips line = true) :
    pass.step false line = .ok { pass with skipped := line :: pass.skipped } := by
  obtain ⟨outside, unknown⟩ := skips_eq_true.mp skipped
  exact step_eq_iff.mpr (.skipped outside unknown rfl)

theorem strict_step_of_skips {pass : Pass} {line : Line} (skipped : pass.skips line = true) :
    pass.forgetful.step true line =
      .error (.unknownStatement (trim line.text) line.number) := by
  obtain ⟨outside, unknown⟩ := skips_eq_true.mp skipped
  exact step_eq_iff.mpr (.refused outside unknown rfl)

theorem pop_forgetful (pass : Pass) (line : Nat) :
    pass.forgetful.pop line = (pass.pop line).map forgetful := by
  obtain ⟨blocks, statements, record?, skipped⟩ := pass
  cases blocks <;> rfl

/-- A line that is not skipped does the same in both readings. -/
theorem strict_step_of_not_skips {pass : Pass} {line : Line} (kept : pass.skips line = false) :
    pass.forgetful.step true line = (pass.step false line).map forgetful := by
  obtain ⟨result, takes⟩ := exists_takes false pass line
  rw [takes.step_eq]
  refine step_eq_iff.mpr ?_
  cases takes with
  | field inside goes read => exact .field inside goes read
  | badField inside goes read => exact .badField inside goes read
  | endRecord inside ends => exact .endRecord inside ends
  | malformed outside read => exact .malformed outside read
  | statement outside read => exact .statement outside read
  | opener outside read => exact .opener outside read
  | recordOpener outside read => exact .recordOpener outside read
  | closing outside read popped =>
    exact .closing outside read (popped ▸ pop_forgetful pass line.number)
  | refused outside read isStrict => cases isStrict
  | skipped outside read permissive =>
    rw [skips_eq_true.mpr ⟨outside, read⟩] at kept
    cases kept

/-- A line that is not skipped leaves the skipped ones as they are. -/
theorem skipped_of_step {pass next : Pass} {line : Line} (kept : pass.skips line = false)
    (taken : pass.step false line = .ok next) : next.skipped = pass.skipped := by
  cases step_eq_iff.mp taken with
  | field inside goes read => rfl
  | endRecord inside ends => rfl
  | statement outside read => rfl
  | opener outside read => rfl
  | recordOpener outside read => rfl
  | closing outside read popped =>
    unfold pop at popped
    split at popped
    · cases popped
    · cases popped
      rfl
  | skipped outside read permissive =>
    rw [skips_eq_true.mpr ⟨outside, read⟩] at kept
    cases kept

/-! ### Marked lines -/

section Marked

variable {pass next : Pass} {line : Line} {rest : List Line}

theorem marked_of_skips (skipped : pass.skips line = true) :
    pass.marked (line :: rest) =
      (line, true) :: ({ pass with skipped := line :: pass.skipped } : Pass).marked rest := by
  rw [marked, step_of_skips skipped, skipped]

theorem marked_of_error {error : StmtError} (kept : pass.skips line = false)
    (failed : pass.step false line = .error error) :
    pass.marked (line :: rest) = (line, false) :: rest.map fun later => (later, false) := by
  rw [marked, failed, kept]

theorem marked_of_ok (kept : pass.skips line = false) (taken : pass.step false line = .ok next) :
    pass.marked (line :: rest) = (line, false) :: next.marked rest := by
  rw [marked, taken, kept]

end Marked

theorem map_fst_marked (pass : Pass) (lines : List Line) :
    (pass.marked lines).map Prod.fst = lines := by
  induction lines generalizing pass with
  | nil => rfl
  | cons line rest inductionHypothesis =>
    rw [marked, List.map_cons]
    cases pass.step false line with
    | error error => simp [Function.comp_def]
    | ok next => rw [inductionHypothesis]

/-! ### Two readings of the same lines -/

/-- The lines with a mark, in their order. -/
def withMark (mark : Bool) (lines : List (Line × Bool)) : List Line :=
  (lines.filter fun entry => entry.2 == mark).map Prod.fst

theorem withMark_cons_self (mark : Bool) (line : Line) (lines : List (Line × Bool)) :
    withMark mark ((line, mark) :: lines) = line :: withMark mark lines := by
  simp [withMark]

theorem withMark_cons_other {mark other : Bool} (different : other ≠ mark) (line : Line)
    (lines : List (Line × Bool)) :
    withMark mark ((line, other) :: lines) = withMark mark lines := by
  simp [withMark, different]

theorem withMark_unmarked (lines : List Line) :
    withMark true (lines.map fun line => (line, false)) = [] := by
  simp [withMark, List.filter_map, Function.comp_def]

/-- The pass keeps the lines that are marked as skipped. -/
theorem read_snd_eq_withMark (pass : Pass) (lines : List Line) :
    (pass.read false lines).2 = (withMark true (pass.marked lines)).reverse ++ pass.skipped := by
  induction lines generalizing pass with
  | nil => rfl
  | cons line rest inductionHypothesis =>
    cases skipped : pass.skips line with
    | true =>
      rw [read_cons_ok (step_of_skips skipped), inductionHypothesis, marked_of_skips skipped,
        withMark_cons_self, List.reverse_cons, List.append_assoc]
      rfl
    | false =>
      cases taken : pass.step false line with
      | error error =>
        rw [read_cons_error taken, marked_of_error skipped taken,
          withMark_cons_other Bool.false_ne_true, withMark_unmarked]
        rfl
      | ok next =>
        rw [read_cons_ok taken, inductionHypothesis, marked_of_ok skipped taken,
          withMark_cons_other Bool.false_ne_true, skipped_of_step skipped taken]

/-- A permissive reading is the strict reading of the lines that are not skipped. -/
theorem read_eq_strict_read (pass : Pass) (lines : List Line) :
    (pass.read false lines).1 =
      (pass.forgetful.read true (withMark false (pass.marked lines))).1 := by
  induction lines generalizing pass with
  | nil => rfl
  | cons line rest inductionHypothesis =>
    cases skipped : pass.skips line with
    | true =>
      rw [read_cons_ok (step_of_skips skipped), inductionHypothesis, marked_of_skips skipped,
        withMark_cons_other Bool.false_ne_true.symm]
      rfl
    | false =>
      have strictly := strict_step_of_not_skips skipped
      cases taken : pass.step false line with
      | error error =>
        rw [taken] at strictly
        rw [read_cons_error taken, marked_of_error skipped taken, withMark_cons_self,
          read_cons_error strictly]
      | ok next =>
        rw [taken] at strictly
        rw [read_cons_ok taken, marked_of_ok skipped taken, withMark_cons_self,
          read_cons_ok strictly, inductionHypothesis]

/-- A strict reading stops at the first line that a permissive one skips. -/
theorem strict_read_of_skipped (pass : Pass) {lines others : List Line} {first : Line}
    (skipped : withMark true (pass.marked lines) = first :: others) :
    (pass.forgetful.read true lines).1 =
      .error (.unknownStatement (trim first.text) first.number) := by
  induction lines generalizing pass with
  | nil => cases skipped
  | cons line rest inductionHypothesis =>
    cases here : pass.skips line with
    | true =>
      rw [marked_of_skips here, withMark_cons_self] at skipped
      cases skipped
      rw [read_cons_error (strict_step_of_skips here)]
    | false =>
      have strictly := strict_step_of_not_skips here
      cases taken : pass.step false line with
      | error error =>
        rw [marked_of_error here taken, withMark_cons_other Bool.false_ne_true,
          withMark_unmarked] at skipped
        cases skipped
      | ok next =>
        rw [taken] at strictly
        rw [marked_of_ok here taken, withMark_cons_other Bool.false_ne_true] at skipped
        rw [read_cons_ok strictly]
        exact inductionHypothesis next skipped

/-- If no line is skipped, all are kept. -/
theorem withMark_false_marked {pass : Pass} {lines : List Line}
    (nothing : withMark true (pass.marked lines) = []) :
    withMark false (pass.marked lines) = lines := by
  have unmarked : ∀ entry ∈ pass.marked lines, (entry.2 == false) = true := by
    simpa [withMark, List.filter_eq_nil_iff] using nothing
  rw [withMark, List.filter_eq_self.mpr unmarked, map_fst_marked]

end Pass

/-! ### Programs -/

/-- The lines of a program, each with a mark that says whether permissive reading skips it. -/
def markedLines (lines : List Line) : List (Line × Bool) :=
  Pass.start.marked lines

/-- The lines that permissive reading skips, in their order. -/
def skippedLines (lines : List Line) : List Line :=
  Pass.withMark true (markedLines lines)

/-- The lines that are left when those are taken out. -/
def keptLines (lines : List Line) : List Line :=
  Pass.withMark false (markedLines lines)

/-- How strict and permissive reading go together. Permissive reading marks some lines as skipped
and tells of these and no others. It gives the program or the error of a strict reading of the lines
that it keeps. If it skips none, the two readings of all lines have the same result. Otherwise the
strict one refuses the first line that is skipped. -/
theorem parseProgram_strict_permissive (lines : List Line) :
    (markedLines lines).map Prod.fst = lines ∧
      (parseProgram false lines).notices =
        passNotices (parseProgram false lines).value (skippedLines lines).reverse ∧
      (parseProgram false lines).value = (parseProgram true (keptLines lines)).value ∧
      (skippedLines lines = [] →
        (parseProgram true lines).value = (parseProgram false lines).value) ∧
      ∀ first others, skippedLines lines = first :: others →
        (parseProgram true lines).value =
          .error (.unknownStatement (trim first.text) first.number) := by
  have permissive := Pass.read_eq_strict_read Pass.start lines
  simp only [value_parseProgram]
  refine ⟨Pass.map_fst_marked Pass.start lines, ?_, permissive, fun nothing => ?_,
    fun first others skipped => ?_⟩
  · have skipped := Pass.read_snd_eq_withMark Pass.start lines
    rw [parseProgram_eq_read, skipped]
    exact congrArg (passNotices _) (List.append_nil _)
  · rw [permissive, Pass.withMark_false_marked nothing]
    rfl
  · exact Pass.strict_read_of_skipped Pass.start skipped

/-- The same line twice, first as no statement and then as the field of a record. After it there is
a loop without a count, which ends the reading before the last line. -/
def repeatedLine : List Line :=
  [⟨1, " hp = 3"⟩, ⟨2, "data hero"⟩, ⟨1, " hp = 3"⟩, ⟨4, "end"⟩, ⟨5, "loop"⟩, ⟨6, "what"⟩]

theorem parseProgram_repeatedLine :
    skippedLines repeatedLine = [⟨1, " hp = 3"⟩] ∧
      keptLines repeatedLine = repeatedLine.tail ∧
      (parseProgram true repeatedLine).value = .error (.unknownStatement "hp = 3" 1) ∧
      (parseProgram false repeatedLine).value = (parseProgram true repeatedLine.tail).value ∧
      (parseProgram true repeatedLine.tail).value =
        (parseProgram false repeatedLine.tail).value := by
  have skipped : skippedLines repeatedLine = [⟨1, " hp = 3"⟩] := by decide +kernel
  have kept : keptLines repeatedLine = repeatedLine.tail := by decide +kernel
  have nothing : skippedLines repeatedLine.tail = [] := by decide +kernel
  have text : trim " hp = 3" = "hp = 3" := by decide +kernel
  obtain ⟨-, -, permissive, -, refused⟩ := parseProgram_strict_permissive repeatedLine
  obtain ⟨-, -, -, same, -⟩ := parseProgram_strict_permissive repeatedLine.tail
  rw [kept] at permissive
  have strictly := refused _ _ skipped
  rw [text] at strictly
  exact ⟨skipped, kept, strictly, permissive, same nothing⟩

end LineScript
