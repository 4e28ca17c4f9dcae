/-
This file writes programs down and reads them back. A statement is written on one line, a block as
its opener, the lines of its body and an `end`, a record with one line for each field. Lines can be
read as certain statements wherever they stand outside a record: this holds of single statements,
is kept when lines follow each other, and passes from the body of a block to the block. The lines of
a well-formed program are therefore read as that program, whatever its depth, up to the numbers of
the lines that its statements started on.
-/

import LineScript.Proofs.WellFormed

namespace LineScript

open Text

/-! ### Writing programs -/

/-- A name and a value with an equals sign between them, as they are written. -/
def bindingText (name expr : String) : String :=
  name ++ " " ++ ("=" ++ " " ++ expr)

/-- The line that opens a block. -/
def Header.written : Header → String
  | .branch condition => "if" ++ " " ++ condition
  | .loop count => "loop" ++ " " ++ count
  | .game => "game start"
  | .scene name => "scene" ++ " " ++ name
  | .entity name => "entity" ++ " " ++ name
  | .tick => "tick"
  | .page name => "ui" ++ " " ++ ("page" ++ " " ++ name)
  | .route path => "route" ++ " " ++ path

mutual

/-- The lines that a statement is written on. -/
def Stmt.written : Stmt → List String
  | .print _ expr => ["show" ++ " " ++ expr]
  | .assign _ name expr => ["set" ++ " " ++ bindingText name expr]
  | .record _ name fields =>
    ("data" ++ " " ++ name) ::
      (fields.entries.map (fun entry => bindingText entry.1 entry.2) ++ ["end"])
  | .block _ header body => header.written :: (Stmt.allWritten body ++ ["end"])

/-- The lines that statements are written on, one after the other. -/
def Stmt.allWritten : List Stmt → List String
  | [] => []
  | stmt :: rest => stmt.written ++ Stmt.allWritten rest

end

mutual

/-- A statement without the numbers of its lines. -/
def Stmt.unnumbered : Stmt → Stmt
  | .print _ expr => .print 0 expr
  | .assign _ name expr => .assign 0 name expr
  | .record _ name fields => .record 0 name fields
  | .block _ header body => .block 0 header (Stmt.allUnnumbered body)

/-- Statements without the numbers of their lines. -/
def Stmt.allUnnumbered : List Stmt → List Stmt
  | [] => []
  | stmt :: rest => stmt.unnumbered :: Stmt.allUnnumbered rest

end

/-! ### Every line is filled -/

theorem isLineText_bindingText {name expr : String} (identifier : isIdentifier name = true)
    (fills : IsLineText expr) : IsLineText (bindingText name expr) :=
  .append (isWord_of_isIdentifier identifier) (.append (by decide) fills)

theorem Header.WellFormed.isLineText_written {header : Header} (fits : header.WellFormed) :
    IsLineText header.written := by
  cases header with
  | branch condition => exact .append (by decide) fits
  | loop count => exact .append (by decide) (IsWord.isLineText fits)
  | game => decide
  | scene name => exact .append (by decide) (IsWord.isLineText fits)
  | entity name => exact .append (by decide) (IsWord.isLineText fits)
  | tick => decide
  | page name => exact .append (by decide) (.append (by decide) (IsWord.isLineText fits))
  | route path => exact .append (by decide) (IsWord.isLineText fits)

theorem isLineText_allWritten {body : List Stmt}
    (each : ∀ stmt ∈ body, ∀ text ∈ stmt.written, IsLineText text) :
    ∀ text ∈ Stmt.allWritten body, IsLineText text := by
  induction body with
  | nil => exact fun _ member => (List.not_mem_nil member).elim
  | cons stmt rest inductionHypothesis =>
    rw [Stmt.allWritten]
    exact List.forall_mem_append.mpr ⟨each stmt List.mem_cons_self,
      inductionHypothesis fun other member => each other (List.mem_cons_of_mem _ member)⟩

theorem Stmt.WellFormed.isLineText_written {stmt : Stmt} (fits : stmt.WellFormed) :
    ∀ text ∈ stmt.written, IsLineText text := by
  have ends : ∀ text ∈ ["end"], IsLineText text := List.forall_mem_singleton.mpr (by decide)
  induction fits with
  | print fills =>
    rw [Stmt.written]
    exact List.forall_mem_singleton.mpr (.append (by decide) fills)
  | assign identifier fills =>
    rw [Stmt.written]
    exact List.forall_mem_singleton.mpr
      (.append (by decide) (isLineText_bindingText identifier fills))
  | record identifier inside =>
    rw [Stmt.written]
    refine List.forall_mem_cons.mpr ⟨.append (by decide)
      (isWord_of_isIdentifier identifier).isLineText, List.forall_mem_append.mpr ⟨?_, ends⟩⟩
    intro text member
    obtain ⟨entry, inFields, rfl⟩ := List.mem_map.mp member
    obtain ⟨fieldIdentifier, fills⟩ := inside.fits entry inFields
    exact isLineText_bindingText fieldIdentifier fills
  | block opener inside inductionHypothesis =>
    rw [Stmt.written]
    exact List.forall_mem_cons.mpr ⟨opener.isLineText_written,
      List.forall_mem_append.mpr ⟨isLineText_allWritten inductionHypothesis, ends⟩⟩

/-! ### Every line is read as what it was written for -/

theorem Line.classify_of_spells {line : Line} {text : String} {reading : Reading}
    (fills : IsLineText text) (same : line.text = text)
    (spelled : Spells line.number text reading) : line.classify = .ok reading := by
  refine Spells.classify ?_
  rw [same, fills.trimmed]
  exact spelled

theorem spells_print {number : Nat} {expr : String} (fills : IsLineText expr) :
    Spells number ("show" ++ " " ++ expr) (.statement (.print number expr)) :=
  .print (firstWord_of_isWord (by decide) fills) fills.filled

theorem spells_assign {number : Nat} {name expr : String} (identifier : isIdentifier name = true)
    (fills : IsLineText expr) :
    Spells number ("set" ++ " " ++ bindingText name expr) (.statement (.assign number name expr)) :=
  .assign (firstWord_of_isWord (by decide) (isLineText_bindingText identifier fills))
    (splitAtEquals?_binding identifier fills) identifier fills.filled

theorem spells_record {number : Nat} {name : String} (identifier : isIdentifier name = true) :
    Spells number ("data" ++ " " ++ name) (.recordOpener name) := by
  have isWord := isWord_of_isIdentifier identifier
  exact .record (firstWord_of_isWord (by decide) isWord.isLineText) (firstWord_word isWord.solid)
    isWord.filled identifier

theorem Header.WellFormed.spells {number : Nat} {header : Header} (fits : header.WellFormed) :
    Spells number header.written (.opener header) := by
  have operand : ∀ {keyword word : String}, IsWord keyword → IsWord word →
      firstWord (keyword ++ " " ++ word) = (keyword, word) :=
    fun keyword word => firstWord_of_isWord keyword word.isLineText
  cases header with
  | branch condition => exact .branch (firstWord_of_isWord (by decide) fits) fits.filled
  | loop count => exact .loop (operand (by decide) fits) (firstWord_word fits.solid) fits.filled
  | game =>
    have words : firstWord "game start" = ("game", "start") := by decide
    exact .game words (by decide)
  | scene name => exact .scene (operand (by decide) fits) (firstWord_word fits.solid) fits.filled
  | entity name => exact .entity (operand (by decide) fits) (firstWord_word fits.solid) fits.filled
  | tick => exact .tick (by decide)
  | page name =>
    have second : IsLineText ("page" ++ " " ++ name) := .append (by decide) (IsWord.isLineText fits)
    exact .page (firstWord_of_isWord (by decide) second) (operand (by decide) fits)
      (firstWord_word fits.solid) fits.filled
  | route path => exact .route (operand (by decide) fits) (firstWord_word fits.solid) fits.filled

/-- A line that was written for a field is no `end`. -/
theorem Line.isEnd_of_bindingText {line : Line} {name expr : String}
    (identifier : isIdentifier name = true) (fills : IsLineText expr)
    (same : line.text = bindingText name expr) : line.isEnd = false := by
  rw [Bool.eq_false_iff, ne_eq, Line.isEnd_iff, same,
    (isLineText_bindingText identifier fills).trimmed]
  intro ends
  have value : IsLineText ("=" ++ " " ++ expr) := .append (by decide) fills
  have words : firstWord "end" = (name, "=" ++ " " ++ expr) := by
    rw [← ends]
    exact firstWord_of_isWord (isWord_of_isIdentifier identifier) value
  have nothing : firstWord "end" = ("end", "") := by decide
  rw [nothing, Prod.mk.injEq] at words
  exact value.filled words.2.symm

/-- The lines that were written for fields put these fields into the record, up to its `end`. -/
theorem recordFields_written {entries : List (String × String)} {lines : List Line}
    (fit : ∀ entry ∈ entries, isIdentifier entry.1 = true ∧ IsLineText entry.2)
    (texts : lines.map Line.text = entries.map fun entry => bindingText entry.1 entry.2)
    {closer : Line} (ends : closer.isEnd = true) (opener : Nat) (fields : Table String)
    (rest : List Line) :
    recordFields opener fields (lines ++ closer :: rest) =
      .ok (entries.foldl (fun table entry => table.insert entry.1 entry.2) fields, rest) := by
  induction entries generalizing lines fields with
  | nil =>
    obtain rfl : lines = [] := List.map_eq_nil_iff.mp texts
    rw [List.nil_append, recordFields, if_pos ends]
    rfl
  | cons entry others inductionHypothesis =>
    obtain ⟨line, more, rfl, same, moreTexts⟩ := List.map_eq_cons_iff.mp texts
    obtain ⟨identifier, fills⟩ := fit entry List.mem_cons_self
    have goes := Line.isEnd_of_bindingText identifier fills same
    have whole : trim line.text = bindingText entry.1 entry.2 := by
      rw [same, (isLineText_bindingText identifier fills).trimmed]
    have parts : splitAtEquals? (trim line.text) = some (entry.1, entry.2) := by
      rw [whole]
      exact splitAtEquals?_binding identifier fills
    have field : binding line.number "data field" (trim line.text) (trim line.text) none =
        .ok (entry.1, entry.2) := binding_eq_ok.mpr ⟨parts, identifier, fills.filled⟩
    rw [List.cons_append, recordFields, goes, if_neg Bool.false_ne_true]
    simp only [field]
    rw [inductionHypothesis (fun other member => fit other (List.mem_cons_of_mem _ member))
      moreTexts, List.foldl_cons]

/-! ### Lines that are read as statements -/

/-- Lines that are read as these statements wherever they stand outside a record. -/
def ReadsAs (strict : Bool) (lines : List Line) (statements : List Stmt) : Prop :=
  ∀ (pass : Pass) (rest : List Line), pass.record? = none →
    pass.read strict (lines ++ rest) = (pass.extend statements pass.skipped).read strict rest

namespace ReadsAs

variable {strict : Bool} {line closer : Line} {lines more : List Line}
  {statements others : List Stmt}

theorem nil : ReadsAs strict [] [] := by
  intro pass rest outside
  rw [List.nil_append, pass.extend_nil]

theorem append (first : ReadsAs strict lines statements) (second : ReadsAs strict more others) :
    ReadsAs strict (lines ++ more) (statements ++ others) := by
  intro pass rest outside
  have later := second (pass.extend statements pass.skipped) rest outside
  rw [List.append_assoc, first pass (more ++ rest) outside, later, Pass.extend_extend]
  rfl

theorem statement {stmt : Stmt} (read : line.classify = .ok (.statement stmt)) :
    ReadsAs strict [line] [stmt] := by
  intro pass rest outside
  refine Pass.read_cons_ok ?_ rest
  rw [Pass.step, outside]
  simp only [Pass.lineStep, read]
  rfl

theorem record {name : String} {fields : Table String}
    (opens : line.classify = .ok (.recordOpener name))
    (taken : ∀ rest, recordFields line.number .empty (lines ++ rest) = .ok (fields, rest)) :
    ReadsAs strict (line :: lines) [.record line.number name fields] := by
  intro pass rest outside
  have opened : pass.step strict line =
      .ok { pass with record? := some ⟨line.number, name, .empty⟩ } := by
    rw [Pass.step, outside]
    simp only [Pass.lineStep, opens]
  rw [List.cons_append, Pass.read_cons_ok opened, Pass.read_record, taken rest, ← outside]
  rfl

theorem block {header : Header} (opens : line.classify = .ok (.opener header))
    (inside : ReadsAs strict lines statements) (ends : closer.isEnd = true) :
    ReadsAs strict (line :: (lines ++ [closer])) [.block line.number header statements] := by
  intro pass rest outside
  have pushed : pass.step strict line = .ok (pass.push line.number header) := by
    rw [Pass.step, outside]
    simp only [Pass.lineStep, opens]
  have body := inside (pass.push line.number header) ([closer] ++ rest) outside
  rw [List.cons_append, Pass.read_cons_ok pushed, List.append_assoc, body]
  refine Pass.read_cons_ok ?_ rest
  have closes := Line.classify_eq_closing_iff.mpr ends
  simp only [Pass.step, Pass.lineStep, Pass.extend, Pass.push, outside, closes, Pass.pop]
  rfl

/-- Lines that are read as statements are a program, and nothing is skipped in it. -/
theorem parseProgram_eq (whole : ReadsAs strict lines statements) :
    parseProgram strict lines = ⟨.ok statements, [.parsed statements.length]⟩ := by
  have read := whole Pass.start [] rfl
  rw [List.append_nil] at read
  rw [parseProgram_eq_read, read]
  rfl

end ReadsAs

/-! ### Reading back -/

/-- Lines with the texts that some statements were written on are read as these statements, up to
line numbers, if that holds of each of them. -/
theorem readsAs_allWritten {strict : Bool} {body : List Stmt}
    (each : ∀ stmt ∈ body, ∀ {lines : List Line}, lines.map Line.text = stmt.written →
      ∃ read, ReadsAs strict lines [read] ∧ read.unnumbered = stmt.unnumbered)
    {lines : List Line} (texts : lines.map Line.text = Stmt.allWritten body) :
    ∃ statements, ReadsAs strict lines statements ∧
      Stmt.allUnnumbered statements = Stmt.allUnnumbered body := by
  induction body generalizing lines with
  | nil =>
    rw [Stmt.allWritten] at texts
    obtain rfl : lines = [] := List.map_eq_nil_iff.mp texts
    exact ⟨[], .nil, rfl⟩
  | cons stmt rest inductionHypothesis =>
    rw [Stmt.allWritten] at texts
    obtain ⟨front, back, rfl, frontTexts, backTexts⟩ := List.map_eq_append_iff.mp texts
    obtain ⟨read, readFront, sameFirst⟩ := each stmt List.mem_cons_self frontTexts
    obtain ⟨statements, readBack, sameRest⟩ :=
      inductionHypothesis (fun other member => each other (List.mem_cons_of_mem _ member)) backTexts
    refine ⟨read :: statements, readFront.append readBack, ?_⟩
    rw [Stmt.allUnnumbered, Stmt.allUnnumbered, sameFirst, sameRest]

/-- Lines with the texts that a well-formed statement was written on are read as that statement, up
to line numbers. -/
theorem Stmt.WellFormed.readsAs {strict : Bool} {stmt : Stmt} (fits : stmt.WellFormed)
    {lines : List Line} (texts : lines.map Line.text = stmt.written) :
    ∃ read, ReadsAs strict lines [read] ∧ read.unnumbered = stmt.unnumbered := by
  have ends : ∀ {closer : Line}, closer.text = "end" → closer.isEnd = true := fun same => by
    rw [Line.isEnd_iff, same]
    decide
  induction fits generalizing lines with
  | @print number expr fills =>
    rw [Stmt.written] at texts
    obtain ⟨line, rfl, same⟩ := List.map_eq_singleton_iff.mp texts
    have read := Line.classify_of_spells (.append (by decide) fills) same (spells_print fills)
    exact ⟨_, .statement read, rfl⟩
  | @assign number name expr identifier fills =>
    rw [Stmt.written] at texts
    obtain ⟨line, rfl, same⟩ := List.map_eq_singleton_iff.mp texts
    have lineFills := isLineText_bindingText identifier fills
    have read := Line.classify_of_spells (.append (by decide) lineFills) same
      (spells_assign identifier fills)
    exact ⟨_, .statement read, rfl⟩
  | @record number name fields identifier inside =>
    rw [Stmt.written] at texts
    obtain ⟨line, more, rfl, same, moreTexts⟩ := List.map_eq_cons_iff.mp texts
    obtain ⟨fieldLines, last, rfl, fieldTexts, lastText⟩ := List.map_eq_append_iff.mp moreTexts
    obtain ⟨closer, rfl, closes⟩ := List.map_eq_singleton_iff.mp lastText
    have read := Line.classify_of_spells
      (.append (by decide) (isWord_of_isIdentifier identifier).isLineText) same
      (spells_record identifier)
    refine ⟨.record line.number name fields, .record read fun rest => ?_, rfl⟩
    rw [List.append_assoc, List.singleton_append,
      recordFields_written inside.fits fieldTexts (ends closes)]
    exact congrArg (fun table => Except.ok (table, rest)) fields.ofList_entries
  | @block number header body opener inside inductionHypothesis =>
    rw [Stmt.written] at texts
    obtain ⟨line, more, rfl, same, moreTexts⟩ := List.map_eq_cons_iff.mp texts
    obtain ⟨bodyLines, last, rfl, bodyTexts, lastText⟩ := List.map_eq_append_iff.mp moreTexts
    obtain ⟨closer, rfl, closes⟩ := List.map_eq_singleton_iff.mp lastText
    have read := Line.classify_of_spells opener.isLineText_written same opener.spells
    obtain ⟨statements, readBody, sameBody⟩ := readsAs_allWritten inductionHypothesis bodyTexts
    refine ⟨.block line.number header statements, .block read readBody (ends closes), ?_⟩
    rw [Stmt.unnumbered, Stmt.unnumbered, sameBody]

/-- The text of a program, with each of its lines ended by a newline. -/
def writtenSource (program : Program) : String :=
  terminated (Stmt.allWritten program)

/-- Source texts and well-formed programs belong together. What is read from a source text under
accepted settings is a well-formed program, and every well-formed program is read back from the text
it is written as, strictly or not, up to the numbers of its lines. -/
theorem parseProgram_writtenSource [PatternEngine] :
    (∀ (settings : Settings) (source : String) (strict : Bool) (program : Program),
      settings.validate = .ok settings →
      (parseProgram strict (readSource settings.aliases source).value).value = .ok program →
      ∀ stmt ∈ program, stmt.WellFormed) ∧
    ∀ (program : Program) (strict : Bool), (∀ stmt ∈ program, stmt.WellFormed) →
      ∃ read, (parseProgram strict (readSource .empty (writtenSource program)).value).value =
          .ok read ∧
        Stmt.allUnnumbered read = Stmt.allUnnumbered program := by
  constructor
  · intro settings source strict program accepted read
    exact wellFormed_of_parseProgram (fun _ => newline_not_mem_readSource accepted) read
  · intro program strict fit
    have fill := isLineText_allWritten fun stmt member => (fit stmt member).isLineText_written
    obtain ⟨read, whole, same⟩ :=
      readsAs_allWritten (fun stmt member => (fit stmt member).readsAs) (map_text_readSource fill)
    refine ⟨read, ?_, same⟩
    rw [writtenSource, whole.parseProgram_eq]

/-- A source text whose names and values look like other parts of the language. -/
def lookalikeSource : String :=
  "let end = 2\nif end == 2\n\tdata point\n\t\tend = \"a = b\"\n\tend\n\n" ++
    "\tloop 3\n\t\tprint end\n\tend\nend"

/-- The program of that source text. -/
def lookalikeProgram : Program :=
  [.assign 1 "end" "2",
    .block 2 (.branch "end == 2")
      [.record 3 "point" (.ofList [("end", "\"a = b\"")]), .block 7 (.loop "3") [.print 8 "end"]]]

theorem parseProgram_lookalikeSource :
    Settings.standard.validate = .ok Settings.standard ∧
      (parseProgram true (readSource Settings.standard.aliases lookalikeSource).value).value =
        .ok lookalikeProgram ∧
      (∀ stmt ∈ lookalikeProgram, stmt.WellFormed) ∧
      ∃ read, (parseProgram true (readSource .empty (writtenSource lookalikeProgram)).value).value =
          .ok read ∧
        Stmt.allUnnumbered read = Stmt.allUnnumbered lookalikeProgram := by
  have accepted : Settings.standard.validate = .ok Settings.standard := rfl
  have lines : (readSource Settings.standard.aliases lookalikeSource).value =
      [⟨1, "set end = 2"⟩, ⟨2, "if end == 2"⟩, ⟨3, "\tdata point"⟩, ⟨4, "\t\tend = \"a = b\""⟩,
        ⟨5, "\tend"⟩, ⟨7, "\tloop 3"⟩, ⟨8, "\t\tshow end"⟩, ⟨9, "\tend"⟩, ⟨10, "end"⟩] := by
    decide +kernel
  have read : (parseProgram true
      (readSource Settings.standard.aliases lookalikeSource).value).value =
        .ok lookalikeProgram := by
    rw [lines]
    rfl
  have fit := parseProgram_writtenSource.1 Settings.standard lookalikeSource true lookalikeProgram
    accepted read
  exact ⟨accepted, read, fit, parseProgram_writtenSource.2 lookalikeProgram true fit⟩

end LineScript
