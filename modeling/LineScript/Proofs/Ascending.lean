/-
This file says that the statements of a program stand in the order of its lines. The pass over the
lines keeps statements in three places: those of the open blocks, those of the innermost block, and
the record that is open. Listed from the outside in, a block before what is inside it, they are
listed in the order in which they were found: a line adds a statement at the end of the list or
leaves the list as it is, also where it closes a block and the list is only put together in another
way. So each statement, at whatever depth, starts on a line of its own that starts with its words,
and the numbers of these lines increase.

The instructions of a chunk come from some of the statements, in their order, so no two of them have
the same line, and a listing shows a line number in each of its rows.
-/

import LineScript.Proofs.Columns
import LineScript.Proofs.Retrieval
import Mathlib.Data.List.Forall2

namespace LineScript

open Text

/-! ### How statements start -/

/-- The first words of a text, as many as are asked for. -/
def leadingWords : (count : Nat) → String → List String
  | 0, _ => []
  | count + 1, text => (firstWord text).1 :: leadingWords count (firstWord text).2

/-- A line starts with the words of a keyword. -/
def Line.StartsWith (line : Line) (keyword : String) : Prop :=
  ∃ count, " ".intercalate (leadingWords count (trim line.text)) = keyword

/-- How a statement starts: the number of its line, and its first words. -/
structure Opening where
  line : Nat
  keyword : String

/-- A line is the one on which a statement starts like this. -/
structure Opening.IsOn (opening : Opening) (line : Line) : Prop where
  numbered : line.number = opening.line
  starts : line.StartsWith opening.keyword

def Stmt.opening (stmt : Stmt) : Opening :=
  ⟨stmt.line, stmt.keyword⟩

/-- How statements and those inside them start, a block before its body. -/
def openings (statements : List Stmt) : List Opening :=
  (Stmt.allPreorder statements).map Stmt.opening

theorem openings_append (front back : List Stmt) :
    openings (front ++ back) = openings front ++ openings back := by
  rw [openings, Stmt.allPreorder_append, List.map_append]
  rfl

theorem openings_singleton (stmt : Stmt) :
    openings [stmt] = stmt.opening :: openings stmt.body := by
  rw [openings, Stmt.allPreorder_singleton]
  cases stmt <;> rfl

/-! ### What a line is read as, and how it starts -/

theorem Line.startsWith_one {line : Line} {keyword rest : String}
    (words : firstWord (trim line.text) = (keyword, rest)) : line.StartsWith keyword :=
  ⟨1, by rw [leadingWords, leadingWords, words, String.intercalate_singleton]⟩

theorem Line.startsWith_two {line : Line} {first second rest others : String}
    (words : firstWord (trim line.text) = (first, rest))
    (more : firstWord rest = (second, others)) :
    line.StartsWith (first ++ " " ++ second) :=
  ⟨2, by rw [leadingWords, leadingWords, leadingWords, words, more, String.intercalate_cons_cons,
    String.intercalate_singleton]⟩

/-- A line that is a statement by itself has nothing inside, and starts with its keyword. -/
theorem Line.openings_of_classify {line : Line} {stmt : Stmt}
    (read : line.classify = .ok (.statement stmt)) :
    ∃ opening, openings [stmt] = [opening] ∧ opening.IsOn line := by
  cases Line.spells_of_classify read (by simp) with
  | print words filled => exact ⟨_, rfl, rfl, startsWith_one words⟩
  | assign words parts identifier filled => exact ⟨_, rfl, rfl, startsWith_one words⟩

/-- A line that opens a block starts with the words of its header. -/
theorem Line.startsWith_of_opener {line : Line} {header : Header}
    (read : line.classify = .ok (.opener header)) : line.StartsWith header.keyword := by
  cases Line.spells_of_classify read (by simp) with
  | branch words filled => exact startsWith_one words
  | loop words operand filled => exact startsWith_one words
  | game words second => exact startsWith_two words second
  | scene words operand filled => exact startsWith_one words
  | entity words operand filled => exact startsWith_one words
  | tick words => exact startsWith_one words
  | page words second operand filled => exact startsWith_two words second
  | route words operand filled => exact startsWith_one words

theorem Line.startsWith_of_recordOpener {line : Line} {name : String}
    (read : line.classify = .ok (.recordOpener name)) : line.StartsWith "data" := by
  cases Line.spells_of_classify read (by simp) with
  | record words operand filled identifier => exact startsWith_one words

/-! ### The pass -/

/-- How the open blocks start, and the statements before them, from the outermost inwards. -/
def OpenBlock.allOpenings : List OpenBlock → List Opening
  | [] => []
  | block :: outer =>
    allOpenings outer ++ (openings block.before ++ [⟨block.line, block.header.keyword⟩])

def OpenRecord.opening (record : OpenRecord) : Opening :=
  ⟨record.line, "data"⟩

/-- How all statements start that a pass has found so far, those that are still open included. -/
def Pass.openings (pass : Pass) : List Opening :=
  OpenBlock.allOpenings pass.blocks ++
    (LineScript.openings pass.statements ++ (pass.record?.map OpenRecord.opening).toList)

namespace Pass

theorem openings_outside (pass : Pass) (outside : pass.record? = none) :
    pass.openings =
      OpenBlock.allOpenings pass.blocks ++ LineScript.openings pass.statements := by
  rw [openings, outside, Option.map_none, Option.toList_none, List.append_nil]

theorem openings_inside {pass : Pass} {record : OpenRecord}
    (inside : pass.record? = some record) :
    pass.openings = OpenBlock.allOpenings pass.blocks ++
      (LineScript.openings pass.statements ++ [record.opening]) := by
  rw [openings, inside, Option.map_some, Option.toList_some]

theorem openings_add {pass : Pass} (outside : pass.record? = none) (stmt : Stmt) :
    (pass.add stmt).openings = pass.openings ++ LineScript.openings [stmt] := by
  rw [openings_outside (pass.add stmt) outside, openings_outside pass outside, add,
    openings_append, List.append_assoc]

theorem openings_push {pass : Pass} (outside : pass.record? = none) (line : Nat)
    (header : Header) :
    (pass.push line header).openings = pass.openings ++ [⟨line, header.keyword⟩] := by
  rw [openings_outside (pass.push line header) outside, openings_outside pass outside,
    List.append_assoc]
  exact List.append_nil _

/-- A block that is closed keeps its place before the statements inside it. -/
theorem openings_pop {pass next : Pass} (outside : pass.record? = none) {line : Nat}
    (popped : pass.pop line = .ok next) : next.openings = pass.openings := by
  unfold pop at popped
  cases stack : pass.blocks with
  | nil =>
    rw [stack] at popped
    cases popped
  | cons block outer =>
    rw [stack] at popped
    cases popped
    refine Eq.trans (openings_outside _ outside) ?_
    rw [openings_outside pass outside, stack, openings_append, openings_singleton,
      OpenBlock.allOpenings, List.append_assoc, List.append_assoc]
    rfl

/-- A line keeps the statements found so far, or adds one that starts on it. -/
theorem openings_of_step {strict : Bool} {pass next : Pass} {line : Line}
    (taken : pass.step strict line = .ok next) :
    next.openings = pass.openings ∨
      ∃ opening, next.openings = pass.openings ++ [opening] ∧ opening.IsOn line := by
  cases step_eq_iff.mp taken with
  | field inside goes read =>
    rw [openings_inside inside]
    exact .inl rfl
  | endRecord inside ends =>
    left
    rw [openings_inside inside, openings_outside _ rfl, add, openings_append]
    rfl
  | statement outside read =>
    obtain ⟨opening, single, isOn⟩ := Line.openings_of_classify read
    exact .inr ⟨opening, by rw [openings_add outside, single], isOn⟩
  | opener outside read =>
    exact .inr ⟨_, openings_push outside _ _, rfl, Line.startsWith_of_opener read⟩
  | recordOpener outside read =>
    refine .inr ⟨⟨line.number, "data"⟩, ?_, rfl, Line.startsWith_of_recordOpener read⟩
    rw [openings_inside rfl, openings_outside pass outside, List.append_assoc]
    rfl
  | closing outside read popped => exact .inl (openings_pop outside popped)
  | skipped outside read permissive => exact .inl rfl

/-- The statements of the program that a pass ends with are those it started with, followed by some
that start on the lines taken, in their order. -/
theorem openings_of_read {strict : Bool} {pass : Pass} {lines : List Line} {program : Program}
    (finished : (pass.read strict lines).1 = .ok program) :
    ∃ later, LineScript.openings program = pass.openings ++ later ∧
      List.SublistForall₂ Opening.IsOn later lines := by
  induction lines generalizing pass with
  | nil =>
    obtain ⟨outside, noBlocks, rfl⟩ := finish_eq_ok.mp finished
    refine ⟨[], ?_, .nil⟩
    rw [openings_outside pass outside, noBlocks, List.append_nil]
    rfl
  | cons line rest inductionHypothesis =>
    cases taken : pass.step strict line with
    | error error =>
      rw [read_cons_error taken] at finished
      cases finished
    | ok next =>
      rw [read_cons_ok taken] at finished
      obtain ⟨later, whole, onLines⟩ := inductionHypothesis finished
      rcases openings_of_step taken with same | ⟨opening, added, isOn⟩
      · exact ⟨later, by rw [whole, same], .cons_right onLines⟩
      · exact ⟨opening :: later, by rw [whole, added, ← List.append_cons], .cons isOn onLines⟩

end Pass

/-- The statements of a program, at every depth, start on lines of their own, in their order. -/
theorem openings_of_parseProgram {strict : Bool} {lines : List Line} {program : Program}
    (parsed : (parseProgram strict lines).value = .ok program) :
    List.SublistForall₂ Opening.IsOn (openings program) lines := by
  rw [value_parseProgram] at parsed
  obtain ⟨later, whole, onLines⟩ := Pass.openings_of_read parsed
  rw [whole]
  exact onLines

/-! ### Line numbers -/

theorem pairwise_number_readSource [PatternEngine] (aliases : Table String) (source : String) :
    ((readSource aliases source).value.map Line.number).Pairwise (· < ·) := by
  rw [readSource, readLines, countedLines_eq, List.map_map]
  have kept := (List.filter_sublist (l := (rawLines source).zipIdx 1)
    (p := fun entry => !isBlankText entry.1)).map Prod.snd
  rw [List.zipIdx_map_snd] at kept
  exact (List.pairwise_lt_range' 1).sublist kept

/-- What starts on lines in their order has numbers that increase where those of the lines do. -/
theorem pairwise_line_of_onLines {found : List Opening} {lines : List Line}
    (onLines : List.SublistForall₂ Opening.IsOn found lines)
    (ascending : (lines.map Line.number).Pairwise (· < ·)) :
    (found.map Opening.line).Pairwise (· < ·) := by
  obtain ⟨chosen, each, among⟩ := List.sublistForall₂_iff.mp onLines
  have same : found.map Opening.line = chosen.map Line.number := by
    rw [← List.forall₂_eq_eq_eq, List.forall₂_map_left_iff, List.forall₂_map_right_iff]
    exact each.imp fun opening line isOn => isOn.numbered.symm
  rw [same]
  exact ascending.sublist (among.map Line.number)

theorem exists_line_of_onLines {found : List Opening} {lines : List Line}
    (onLines : List.SublistForall₂ Opening.IsOn found lines) :
    ∀ opening ∈ found, ∃ line ∈ lines, opening.IsOn line := by
  induction onLines with
  | nil => exact fun _ member => absurd member List.not_mem_nil
  | cons isOn _ inductionHypothesis =>
    refine List.forall_mem_cons.mpr ⟨⟨_, List.mem_cons_self, isOn⟩, fun opening member => ?_⟩
    exact (inductionHypothesis opening member).imp fun line => And.imp_left (List.mem_cons_of_mem _)
  | cons_right _ inductionHypothesis =>
    exact fun opening member =>
      (inductionHypothesis opening member).imp fun line => And.imp_left (List.mem_cons_of_mem _)

/-! ### Chunks -/

/-- The statements outside all blocks are some of those at every depth. -/
theorem Stmt.sublist_allPreorder (program : Program) :
    program.Sublist (Stmt.allPreorder program) := by
  induction program with
  | nil => exact List.nil_sublist _
  | cons stmt rest inductionHypothesis =>
    exact (List.singleton_sublist.mpr stmt.mem_preorder_self).append inductionHypothesis

theorem lines_chunkOf_sublist (program : Program) :
    (chunkOf program).lines.Sublist (program.map Stmt.line) := by
  induction program with
  | nil => exact List.nil_sublist _
  | cons stmt rest inductionHypothesis =>
    cases compiled : stmt.instruction? with
    | none =>
      have omitted : (chunkOf (stmt :: rest)).lines = (chunkOf rest).lines := by
        simp only [chunkOf, List.filterMap_cons, compiled, Option.map_none]
      rw [omitted]
      exact inductionHypothesis.cons _
    | some instruction =>
      have kept : (chunkOf (stmt :: rest)).lines = stmt.line :: (chunkOf rest).lines := by
        simp only [chunkOf, List.filterMap_cons, compiled, Option.map_some, List.map_cons]
      rw [kept]
      exact inductionHypothesis.cons_cons _

theorem length_lines_chunkOf (program : Program) :
    (chunkOf program).lines.length = (chunkOf program).code.length := by
  simp only [chunkOf, List.length_map]

namespace Chunk

/-- A row of a listing that shows the line of its instruction. -/
def numberedRow (chunk : Chunk) (offset : Nat) (instruction : Instruction) : String :=
  fourDigits offset ++
    (" " ++ (padFront 4 (toString (chunk.lineAt offset)) ++ (" " ++ entry instruction)))

/-- Where the lines increase, no line is that of the instruction before. -/
theorem lineAt_ne_of_pairwise {chunk : Chunk} (ascending : chunk.lines.Pairwise (· < ·))
    {offset : Nat} (inside : offset + 1 < chunk.lines.length) :
    chunk.lineAt (offset + 1) ≠ chunk.lineAt offset := by
  have here : offset < chunk.lines.length := Nat.lt_of_succ_lt inside
  rw [lineAt, lineAt, List.getElem?_eq_getElem inside, List.getElem?_eq_getElem here]
  exact Nat.ne_of_gt (List.pairwise_iff_getElem.mp ascending _ _ here inside (Nat.lt_succ_self _))

theorem listing_of_pairwise {chunk : Chunk} (paired : chunk.lines.length = chunk.code.length)
    (ascending : chunk.lines.Pairwise (· < ·)) :
    chunk.listing = terminated ("== <script> ==" :: chunk.code.mapIdx chunk.numberedRow) := by
  have marks : ∀ offset < chunk.code.length,
      chunk.lineMark offset = toString (chunk.lineAt offset) := by
    intro offset inside
    cases offset with
    | zero => rfl
    | succ offset =>
      rw [lineMark, if_neg fun bar => lineAt_ne_of_pairwise ascending (paired ▸ inside) bar.2]
  have same : chunk.rows = chunk.code.mapIdx chunk.numberedRow := by
    refine List.ext_getElem (by rw [rows, List.length_mapIdx, List.length_mapIdx]) ?_
    intro offset inRows _
    rw [rows, List.length_mapIdx] at inRows
    simp only [rows, List.getElem_mapIdx, row, numberedRow, marks offset inRows]
  rw [listing_eq, same]

end Chunk

/-- Under whatever aliases, the statements of a program that is read from a source have line numbers
that increase, a block coming before its body, and each is the number of a line that counts and that
starts with the keyword of the statement. So the chunk of the program has one line for each
instruction, these lines increase, and each row of its listing shows a line number. -/
theorem preorder_lines_ascending [PatternEngine] {strict : Bool} {aliases : Table String}
    {source : String} {program : Program}
    (parsed : (parseProgram strict (readSource aliases source).value).value = .ok program) :
    ((Stmt.allPreorder program).map Stmt.line).Pairwise (· < ·) ∧
      (∀ stmt ∈ Stmt.allPreorder program, ∃ line ∈ (readSource aliases source).value,
        line.number = stmt.line ∧ line.StartsWith stmt.keyword) ∧
      (chunkOf program).lines.length = (chunkOf program).code.length ∧
      (chunkOf program).lines.Pairwise (· < ·) ∧
      (chunkOf program).listing = terminated
        ("== <script> ==" :: (chunkOf program).code.mapIdx (chunkOf program).numberedRow) := by
  have onLines := openings_of_parseProgram parsed
  have statements : ((Stmt.allPreorder program).map Stmt.line).Pairwise (· < ·) := by
    have numbers := pairwise_line_of_onLines onLines (pairwise_number_readSource aliases source)
    rw [openings, List.map_map] at numbers
    exact numbers
  have instructions : (chunkOf program).lines.Pairwise (· < ·) :=
    statements.sublist ((lines_chunkOf_sublist program).trans
      ((Stmt.sublist_allPreorder program).map Stmt.line))
  have paired := length_lines_chunkOf program
  refine ⟨statements, fun stmt member => ?_, paired, instructions,
    Chunk.listing_of_pairwise paired instructions⟩
  obtain ⟨line, inLines, isOn⟩ :=
    exists_line_of_onLines onLines _ (List.mem_map_of_mem member)
  exact ⟨line, inLines, isOn.numbered, isOn.starts⟩

/-- Blocks inside each other with a record, a line that is skipped and words far apart. -/
def deepSource : String :=
  "print 1\n\nif true\n  let x = 2\n  noise\n  data d\n    show = 1\n  end\n" ++
    "\tgame\t start\n  end\nend\nlet y = 3"

def deepProgram : Program :=
  [.print 1 "1",
    .block 3 (.branch "true")
      [.assign 4 "x" "2", .record 6 "d" (Table.empty.insert "show" "1"), .block 9 .game []],
    .assign 12 "y" "3"]

theorem preorder_lines_deepProgram :
    (parseProgram false (readSource Settings.standard.aliases deepSource).value).value =
        .ok deepProgram ∧
      (Stmt.allPreorder deepProgram).map Stmt.line = [1, 3, 4, 6, 9, 12] ∧
      [1, 3, 4, 6, 9, 12].Pairwise (· < ·) ∧
      (∃ line ∈ (readSource Settings.standard.aliases deepSource).value,
        line.number = 9 ∧ line.StartsWith "game start") ∧
      (chunkOf deepProgram).lines = [1, 12] ∧
      (chunkOf deepProgram).listing =
        "== <script> ==\n0000    1 PRINT  '1'\n0001   12 SET    y '3'\n" := by
  have lines : (readSource Settings.standard.aliases deepSource).value =
      [⟨1, "show 1"⟩, ⟨3, "if true"⟩, ⟨4, "  set x = 2"⟩, ⟨5, "  noise"⟩, ⟨6, "  data d"⟩,
        ⟨7, "    show = 1"⟩, ⟨8, "  end"⟩, ⟨9, "\tgame\t start"⟩, ⟨10, "  end"⟩, ⟨11, "end"⟩,
        ⟨12, "set y = 3"⟩] := by
    decide +kernel
  have parsed : (parseProgram false
      (readSource Settings.standard.aliases deepSource).value).value = .ok deepProgram := by
    rw [lines]
    rfl
  obtain ⟨ascending, starts, -, -, listed⟩ := preorder_lines_ascending parsed
  have inside : .block 9 .game [] ∈ Stmt.allPreorder deepProgram :=
    .tail _ (.tail _ (.tail _ (.tail _ (.head _))))
  exact ⟨parsed, rfl, ascending, starts _ inside, rfl, listed.trans (by decide +kernel)⟩

end LineScript
