/-
This file shows that a listing loses nothing of the chunk it is made from. Every instruction has a
row of its own, and a row is cut where its columns are known to end: the offset is the same in both
listings, the source line has no blank inside and the blanks in front of it only fill its column,
the operation tells by its first letter which operands follow, and a name has no blank either, so
that what stands behind it in quotes is the expression, whatever quotes and words this holds itself.

A bar says that the source line is that of the row before, and the first row has none. So the source
lines are found from the top down.
-/

import LineScript.Machine.Chunk
import LineScript.Proofs.SourceLines
import LineScript.Proofs.WholeText

namespace LineScript

/-! ### Rows -/

namespace Chunk

/-- What stands in the column for the source line: a number, or a bar for that of the row before. -/
def lineMark (chunk : Chunk) (offset : Nat) : String :=
  if 0 < offset ∧ chunk.lineAt offset = chunk.lineAt (offset - 1) then "|"
  else toString (chunk.lineAt offset)

theorem lineColumn_eq (chunk : Chunk) (offset : Nat) :
    chunk.lineColumn offset = padFront 4 (chunk.lineMark offset) := by
  unfold lineColumn lineMark
  split <;> rfl

/-- The last columns of a row: the operation and its operands. -/
def entry (instruction : Instruction) : String :=
  padBack 6 instruction.operation ++ " " ++ instruction.operands

/-- A row of the listing, without the newline at its end. -/
def row (chunk : Chunk) (offset : Nat) (instruction : Instruction) : String :=
  fourDigits offset ++ (" " ++ (padFront 4 (chunk.lineMark offset) ++ (" " ++ entry instruction)))

theorem listInstruction_eq (chunk : Chunk) (offset : Nat) (instruction : Instruction) :
    chunk.listInstruction offset instruction = chunk.row offset instruction ++ "\n" := by
  simp only [listInstruction, row, entry, lineColumn_eq, String.append_assoc]

/-- The rows of a listing, from the top down. -/
def rows (chunk : Chunk) : List String :=
  chunk.code.mapIdx chunk.row

theorem map_listAt (chunk : Chunk) :
    (List.range chunk.code.length).map chunk.listAt = chunk.rows.map (· ++ "\n") := by
  refine List.ext_getElem ?_ fun offset inRange _ => ?_
  · rw [List.length_map, List.length_range, List.length_map, rows, List.length_mapIdx]
  · rw [List.length_map, List.length_range] at inRange
    rw [List.getElem_map, List.getElem_range, List.getElem_map, listAt,
      List.getElem?_eq_getElem inRange]
    simp only [rows, List.getElem_mapIdx, listInstruction_eq]

theorem foldl_append_newlines (rows : List String) (text : String) :
    (rows.map (· ++ "\n")).foldl (· ++ ·) text = text ++ terminated rows := by
  induction rows generalizing text with
  | nil => exact String.append_empty.symm
  | cons first rest inductionHypothesis =>
    rw [List.map_cons, List.foldl_cons, inductionHypothesis, terminated, String.append_assoc]

/-- A listing is its title and its rows, each ended by a newline. -/
theorem listing_eq (chunk : Chunk) :
    chunk.listing = terminated ("== <script> ==" :: chunk.rows) := by
  have folded : chunk.listing =
      ((List.range chunk.code.length).map chunk.listAt).foldl (· ++ ·) "== <script> ==\n" :=
    List.foldl_map.symm
  rw [folded, map_listAt, foldl_append_newlines]
  rfl

end Chunk

/-! ### Columns -/

/-- Characters up to the first separator are the same if the whole is. -/
theorem eq_of_separator {separator : Char} {left other right tail : List Char}
    (free : separator ∉ left) (otherFree : separator ∉ other)
    (same : left ++ separator :: right = other ++ separator :: tail) :
    left = other ∧ right = tail := by
  induction left generalizing other with
  | nil =>
    cases other with
    | nil => exact ⟨rfl, (List.cons.inj same).2⟩
    | cons c others =>
      have first := (List.cons.inj same).1
      exact absurd (first ▸ List.mem_cons_self) otherFree
  | cons c lefts inductionHypothesis =>
    cases other with
    | nil =>
      have first := (List.cons.inj same).1
      exact absurd (first ▸ List.mem_cons_self) free
    | cons d others =>
      obtain ⟨rfl, rest⟩ := List.cons.inj same
      rw [List.mem_cons, not_or] at free otherFree
      obtain ⟨rfl, later⟩ := inductionHypothesis free.2 otherFree.2 rest
      exact ⟨rfl, later⟩

theorem eq_of_blank {left other right tail : String} (free : ' ' ∉ left.toList)
    (otherFree : ' ' ∉ other.toList) (same : left ++ (" " ++ right) = other ++ (" " ++ tail)) :
    left = other ∧ right = tail := by
  have chars := congrArg String.toList same
  simp only [String.toList_append] at chars
  obtain ⟨sameLeft, sameRight⟩ := eq_of_separator free otherFree chars
  exact ⟨String.toList_inj.mp sameLeft, String.toList_inj.mp sameRight⟩

/-- A text that can stand in a column: it is not empty and holds no blank. -/
structure IsMark (text : String) : Prop where
  filled : text ≠ ""
  solid : ' ' ∉ text.toList

/-- The blanks that fill up a column in front of a mark are no part of the mark. -/
theorem IsMark.dropWhile_padFront {mark : String} (isMark : IsMark mark) (width : Nat)
    (rest : String) :
    (padFront width mark ++ rest).toList.dropWhile (· == ' ') = (mark ++ rest).toList := by
  obtain ⟨c, others, chars⟩ := List.exists_cons_of_ne_nil (toList_ne_nil isMark.filled)
  have first : ¬ (c == ' ') = true := by
    rw [beq_iff_eq]
    rintro rfl
    exact isMark.solid (chars ▸ List.mem_cons_self)
  rw [padFront, String.append_assoc, String.toList_append, String.toList_ofList,
    List.dropWhile_append_of_pos fun d member => beq_iff_eq.mpr (List.eq_of_mem_replicate member),
    String.toList_append, chars, List.cons_append]
  exact List.dropWhile_cons_of_neg first

theorem eq_of_padFront {width : Nat} {mark other right tail : String} (isMark : IsMark mark)
    (otherIsMark : IsMark other)
    (same : padFront width mark ++ (" " ++ right) = padFront width other ++ (" " ++ tail)) :
    mark = other ∧ right = tail := by
  refine eq_of_blank isMark.solid otherIsMark.solid (String.toList_inj.mp ?_)
  rw [← isMark.dropWhile_padFront width, same, otherIsMark.dropWhile_padFront]

theorem not_mem_toString {c : Char} (foreign : c.isDigit = false) (n : Nat) :
    c ∉ (toString n).toList := by
  rw [Nat.toString_eq_repr, toList_repr]
  intro member
  have digit := Nat.isDigit_of_mem_toDigits (by decide) (Nat.le_refl _) member
  exact Bool.false_ne_true (foreign.symm.trans digit)

theorem toString_ne_empty (n : Nat) : toString n ≠ "" := by
  intro empty
  have digits : Nat.toDigits 10 n = [] := by
    rw [← toList_repr, ← Nat.toString_eq_repr, empty]
    rfl
  exact Nat.toDigits_ne_nil digits

theorem eq_of_toString {n m : Nat} (same : toString n = toString m) : n = m := by
  have digits : Nat.toDigits 10 n = Nat.toDigits 10 m := by
    rw [← toList_repr, ← toList_repr, ← Nat.toString_eq_repr, ← Nat.toString_eq_repr, same]
  calc
    n = Nat.ofDigitChars 10 (Nat.toDigits 10 n) 0 := Nat.ofDigitChars_ten_toDigits.symm
    _ = Nat.ofDigitChars 10 (Nat.toDigits 10 m) 0 := by rw [digits]
    _ = m := Nat.ofDigitChars_ten_toDigits

/-! ### Instructions -/

/-- An instruction that fits into one row: there is no newline in it, and no blank in a name. -/
def Instruction.IsLegible : Instruction → Prop
  | .print expr => '\n' ∉ expr.toList
  | .assign name expr => ' ' ∉ name.toList ∧ '\n' ∉ name.toList ∧ '\n' ∉ expr.toList

instance (instruction : Instruction) : Decidable instruction.IsLegible :=
  match instruction with
  | .print expr => inferInstanceAs (Decidable ('\n' ∉ expr.toList))
  | .assign name expr =>
    inferInstanceAs (Decidable (' ' ∉ name.toList ∧ '\n' ∉ name.toList ∧ '\n' ∉ expr.toList))

namespace Chunk

/-- The last columns of a row tell the instruction. -/
theorem eq_of_entry {instruction other : Instruction} (legible : instruction.IsLegible)
    (otherLegible : other.IsLegible) (same : entry instruction = entry other) :
    instruction = other := by
  have unquoted {expr otherExpr : String} (quoted : "'" ++ expr ++ "'" = "'" ++ otherExpr ++ "'") :
      expr = otherExpr :=
    (String.append_right_inj "'").mp ((String.append_left_inj "'").mp quoted)
  have differs (expr name otherExpr : String) :
      entry (.print expr) ≠ entry (.assign name otherExpr) := by
    intro equal
    have chars := congrArg String.toList equal
    simp [entry, padBack, Instruction.operation] at chars
  cases instruction with
  | print expr =>
    cases other with
    | print otherExpr =>
      rw [unquoted ((String.append_right_inj _).mp same)]
    | assign name otherExpr => exact absurd same (differs _ _ _)
  | assign name expr =>
    cases other with
    | print otherExpr => exact absurd same.symm (differs _ _ _)
    | assign otherName otherExpr =>
      have operands : name ++ (" " ++ ("'" ++ expr ++ "'")) =
          otherName ++ (" " ++ ("'" ++ otherExpr ++ "'")) := by
        have parts := (String.append_right_inj _).mp same
        simp only [Instruction.operands, String.append_assoc] at parts ⊢
        exact parts
      obtain ⟨rfl, quoted⟩ := eq_of_blank legible.1 otherLegible.1 operands
      rw [unquoted quoted]

theorem newline_not_mem_entry {instruction : Instruction} (legible : instruction.IsLegible) :
    '\n' ∉ (entry instruction).toList := by
  have operations : ∀ name ∈ ["PRINT", "SET"], '\n' ∉ (padBack 6 name).toList := by decide
  have operation : '\n' ∉ (padBack 6 instruction.operation).toList := by
    refine operations _ ?_
    cases instruction <;> simp [Instruction.operation]
  have operands : '\n' ∉ instruction.operands.toList := by
    cases instruction with
    | print expr =>
      simp only [Instruction.operands, String.toList_append, List.mem_append, not_or]
      exact ⟨⟨by decide, legible⟩, by decide⟩
    | assign name expr =>
      simp only [Instruction.operands, String.toList_append, List.mem_append, not_or]
      exact ⟨⟨⟨legible.2.1, by decide⟩, legible.2.2⟩, by decide⟩
  simp only [entry, String.toList_append, List.mem_append, not_or]
  exact ⟨⟨operation, by decide⟩, operands⟩

/-! ### Source lines -/

theorem isMark_lineMark (chunk : Chunk) (offset : Nat) : IsMark (chunk.lineMark offset) := by
  unfold lineMark
  split
  · exact ⟨by decide, by decide⟩
  · exact ⟨toString_ne_empty _, not_mem_toString rfl _⟩

theorem newline_not_mem_row (chunk : Chunk) (offset : Nat) {instruction : Instruction}
    (legible : instruction.IsLegible) : '\n' ∉ (chunk.row offset instruction).toList := by
  have offsetFree : '\n' ∉ (fourDigits offset).toList := by
    rw [fourDigits, String.toList_ofList, List.mem_append, not_or]
    refine ⟨fun member => ?_, not_mem_toString rfl offset⟩
    exact absurd (List.eq_of_mem_replicate member) (by decide)
  have markFree : '\n' ∉ (padFront 4 (chunk.lineMark offset)).toList := by
    rw [padFront, String.toList_append, String.toList_ofList, List.mem_append, not_or]
    refine ⟨fun member => absurd (List.eq_of_mem_replicate member) (by decide), ?_⟩
    unfold lineMark
    split
    · decide
    · exact not_mem_toString rfl _
  have blankFree : '\n' ∉ " ".toList := by decide
  simp only [row, String.toList_append, List.mem_append, not_or]
  exact ⟨offsetFree, blankFree, markFree, blankFree, newline_not_mem_entry legible⟩

/-- A number and a bar are never taken for each other, so the source line of a row is known if that
of the row before is. -/
theorem lineAt_eq_of_lineMark {chunk other : Chunk} {offset : Nat}
    (same : chunk.lineMark offset = other.lineMark offset)
    (above : chunk.lineAt (offset - 1) = other.lineAt (offset - 1)) :
    chunk.lineAt offset = other.lineAt offset := by
  have differs (n : Nat) : "|" ≠ toString n := by
    intro equal
    have bar : '|' ∉ (toString n).toList := not_mem_toString rfl n
    exact bar (equal ▸ List.mem_cons_self)
  unfold lineMark at same
  split at same <;> split at same
  · rename_i repeated otherRepeated
    rw [repeated.2, otherRepeated.2, above]
  · exact absurd same (differs _)
  · exact absurd same.symm (differs _)
  · exact eq_of_toString same

end Chunk

/-! ### Listings -/

/-- A chunk that can be read off its listing: every instruction has a line and fits into one row. -/
structure Chunk.IsLegible (chunk : Chunk) : Prop where
  paired : chunk.code.length = chunk.lines.length
  instructions : ∀ instruction ∈ chunk.code, instruction.IsLegible

namespace Chunk

variable {chunk other : Chunk}

/-- The same listing has the same rows. -/
theorem IsLegible.rows_eq (legible : chunk.IsLegible) (otherLegible : other.IsLegible)
    (same : chunk.listing = other.listing) : chunk.rows = other.rows := by
  have pieces {chunk : Chunk} (legible : chunk.IsLegible) :
      splitAtNewlines chunk.listing.toList =
        ("== <script> ==" :: chunk.rows).map String.toList ++ [[]] := by
    rw [listing_eq, splitAtNewlines_terminated]
    refine List.forall_mem_cons.mpr ⟨by decide, fun text member => ?_⟩
    obtain ⟨offset, inside, rfl⟩ := List.mem_mapIdx.mp member
    exact newline_not_mem_row chunk offset (legible.instructions _ (List.getElem_mem inside))
  have cut := (pieces legible).symm.trans ((congrArg (splitAtNewlines ·.toList) same).trans
    (pieces otherLegible))
  have texts := List.append_cancel_right cut
  exact (List.cons.inj (List.map_injective_iff.mpr (fun _ _ => String.toList_inj.mp) texts)).2

/-- The rows of two chunks at the same offset tell the same instruction, and the same mark. -/
theorem eq_of_row {offset : Nat} {instruction otherInstruction : Instruction}
    (legible : instruction.IsLegible) (otherLegible : otherInstruction.IsLegible)
    (same : chunk.row offset instruction = other.row offset otherInstruction) :
    instruction = otherInstruction ∧ chunk.lineMark offset = other.lineMark offset := by
  have columns := (String.append_right_inj _).mp ((String.append_right_inj _).mp same)
  obtain ⟨marks, entries⟩ := eq_of_padFront (chunk.isMark_lineMark offset)
    (other.isMark_lineMark offset) columns
  exact ⟨eq_of_entry legible otherLegible entries, marks⟩

/-- Chunks with the same rows have the same instruction and the same mark in each of them. -/
theorem IsLegible.eq_at (legible : chunk.IsLegible) (otherLegible : other.IsLegible)
    (same : chunk.rows = other.rows) (offset : Nat) :
    chunk.code[offset]? = other.code[offset]? ∧
      (offset < chunk.code.length → chunk.lineMark offset = other.lineMark offset) := by
  have rowsHere := congrArg (·[offset]?) same
  simp only [rows, List.getElem?_mapIdx] at rowsHere
  cases here : chunk.code[offset]? with
  | none =>
    rw [here] at rowsHere
    refine ⟨(Option.map_eq_none_iff.mp rowsHere.symm).symm, fun inside => ?_⟩
    exact absurd inside (Nat.not_lt.mpr (List.getElem?_eq_none_iff.mp here))
  | some instruction =>
    rw [here, Option.map_some] at rowsHere
    obtain ⟨otherInstruction, there, row⟩ := Option.map_eq_some_iff.mp rowsHere.symm
    obtain ⟨rfl, marks⟩ := eq_of_row (legible.instructions _ (List.mem_of_getElem? here))
      (otherLegible.instructions _ (List.mem_of_getElem? there)) row.symm
    exact ⟨there.symm, fun _ => marks⟩

/-- From the top down, the rows tell the source line of each instruction. -/
theorem IsLegible.lineAt_eq (legible : chunk.IsLegible) (otherLegible : other.IsLegible)
    (same : chunk.rows = other.rows) {offset : Nat} (inside : offset < chunk.code.length) :
    chunk.lineAt offset = other.lineAt offset := by
  have mark {offset : Nat} := (legible.eq_at otherLegible same offset).2
  induction offset with
  | zero =>
    -- There is no row above the first one, and its mark is a number.
    exact eq_of_toString (mark inside)
  | succ offset inductionHypothesis =>
    exact lineAt_eq_of_lineMark (mark inside) (inductionHypothesis (Nat.lt_of_succ_lt inside))

/-- The listing loses nothing: chunks with the same listing are the same, instruction by instruction
and line by line, if every instruction has a line and neither a blank in a name nor a newline
anywhere breaks up its row. -/
theorem eq_of_listing_eq (legible : chunk.IsLegible) (otherLegible : other.IsLegible)
    (same : chunk.listing = other.listing) : chunk = other := by
  have rows := legible.rows_eq otherLegible same
  have codes : chunk.code = other.code :=
    List.ext_getElem? fun offset => (legible.eq_at otherLegible rows offset).1
  have lengths : chunk.lines.length = other.lines.length := by
    rw [← legible.paired, codes, otherLegible.paired]
  have lines : chunk.lines = other.lines := by
    refine List.ext_getElem lengths fun offset inside otherInside => ?_
    have line := legible.lineAt_eq otherLegible rows (legible.paired ▸ inside)
    rw [lineAt, lineAt, List.getElem?_eq_getElem inside,
      List.getElem?_eq_getElem otherInside] at line
    exact line
  obtain ⟨code, numbers⟩ := chunk
  obtain ⟨otherCode, otherNumbers⟩ := other
  cases codes
  cases lines
  rfl

end Chunk

/-- Instructions with quotes, blanks and operations in their operands, on lines that repeat and that
are wider than their column. -/
def crowdedChunk : Chunk :=
  ⟨[.print "1' 'SET", .assign "PRINT" "'a' + ' b'", .print "", .assign "" "2"], [7, 7, 123456, 7]⟩

/-- A program with these instructions, and a block that has none. -/
def crowdedProgram : Program :=
  [.print 7 "1' 'SET", .assign 7 "PRINT" "'a' + ' b'", .block 8 .tick [.print 9 "1"],
    .print 123456 "", .assign 7 "" "2"]

theorem eq_of_listing_eq_crowded :
    crowdedChunk.IsLegible ∧ (chunkOf crowdedProgram).IsLegible ∧
      crowdedChunk.listing = terminated ["== <script> ==", "0000    7 PRINT  '1' 'SET'",
        "0001    | SET    PRINT ''a' + ' b''", "0002 123456 PRINT  ''", "0003    7 SET     '2'"] ∧
      (chunkOf crowdedProgram).listing = crowdedChunk.listing ∧
      chunkOf crowdedProgram = crowdedChunk := by
  have legible : crowdedChunk.IsLegible := ⟨rfl, by decide⟩
  have compiled : (chunkOf crowdedProgram).IsLegible := ⟨rfl, by decide⟩
  have same : (chunkOf crowdedProgram).listing = crowdedChunk.listing := by decide +kernel
  exact ⟨legible, compiled, by decide +kernel, same,
    Chunk.eq_of_listing_eq compiled legible same⟩

end LineScript
