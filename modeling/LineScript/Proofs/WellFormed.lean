/-
This file says which programs can come out of a source text. A program is well-formed if each of its
texts could stand at its place on a line: expressions and conditions fill a line, the one operand of
a block opener is a word, and variables, records and fields are named by identifiers. Every program
that is read under accepted settings is well-formed. The pass over the lines keeps this of all it
holds: the statements read so far, those that wait before an open block, and the fields of the open
record.
-/

import LineScript.Proofs.OnePass
import LineScript.Proofs.SourceLines
import LineScript.Proofs.Table

namespace LineScript

open Text

/-! ### Well-formed programs -/

/-- Headers whose operand can stand on a line. -/
def Header.WellFormed : Header → Prop
  | .branch condition => IsLineText condition
  | .loop count => IsWord count
  | .game => True
  | .scene name => IsWord name
  | .entity name => IsWord name
  | .tick => True
  | .page name => IsWord name
  | .route path => IsWord path

/-- Fields that can be written one on a line, under names that differ. -/
structure WellFormedFields (fields : Table String) : Prop where
  fits : ∀ entry ∈ fields.entries, isIdentifier entry.1 = true ∧ IsLineText entry.2
  distinct : fields.keys.Nodup

/-- Statements whose texts can stand on lines, at every depth. -/
inductive Stmt.WellFormed : Stmt → Prop
  | print {line : Nat} {expr : String} (fills : IsLineText expr) : WellFormed (.print line expr)
  | assign {line : Nat} {name expr : String} (identifier : isIdentifier name = true)
      (fills : IsLineText expr) : WellFormed (.assign line name expr)
  | record {line : Nat} {name : String} {fields : Table String}
      (identifier : isIdentifier name = true) (inside : WellFormedFields fields) :
      WellFormed (.record line name fields)
  | block {line : Nat} {header : Header} {body : List Stmt} (opener : header.WellFormed)
      (inside : ∀ stmt ∈ body, stmt.WellFormed) : WellFormed (.block line header body)

/-- What a line is read as, with texts that can stand on a line. -/
def Reading.WellFormed : Reading → Prop
  | .statement stmt => stmt.WellFormed
  | .opener header => header.WellFormed
  | .recordOpener name => isIdentifier name = true
  | .closing => True
  | .unknown => True

/-! ### Parts of a line -/

theorem isLineText_firstWord_snd {text word rest : String} (oneLine : '\n' ∉ text.toList)
    (words : firstWord text = (word, rest)) (filled : rest ≠ "") : IsLineText rest := by
  obtain rfl : (firstWord text).2 = rest := congrArg Prod.snd words
  have kept := firstWord_snd_subset text
  exact ⟨filled, trim_firstWord_snd text, fun newline => oneLine (kept newline)⟩

theorem isWord_firstWord_fst {text word rest : String} (words : firstWord text = (word, rest))
    (filled : word ≠ "") : IsWord word := by
  obtain rfl : (firstWord text).1 = word := congrArg Prod.fst words
  exact ⟨filled, fun _ => isBlank_of_mem_firstWord⟩

theorem isLineText_splitAtEquals? {text name expr : String} (oneLine : '\n' ∉ text.toList)
    (parts : splitAtEquals? text = some (name, expr)) (filled : expr ≠ "") : IsLineText expr := by
  obtain ⟨trimmed, kept⟩ := splitAtEquals?_eq_some parts
  exact ⟨filled, trimmed, fun newline => oneLine (kept newline)⟩

/-- What a line without newlines spells is well-formed. -/
theorem Spells.wellFormed {number : Nat} {whole : String} {reading : Reading}
    (oneLine : '\n' ∉ whole.toList) (spelled : Spells number whole reading) :
    reading.WellFormed := by
  cases spelled with
  | print words filled => exact .print (isLineText_firstWord_snd oneLine words filled)
  | @assign rest name expr words parts identifier filled =>
    have restOneLine : '\n' ∉ rest.toList := by
      obtain rfl : (firstWord whole).2 = rest := congrArg Prod.snd words
      exact fun newline => oneLine (firstWord_snd_subset whole newline)
    exact .assign identifier (isLineText_splitAtEquals? restOneLine parts filled)
  | branch words filled => exact isLineText_firstWord_snd oneLine words filled
  | loop words operand filled => exact isWord_firstWord_fst operand filled
  | record words operand filled identifier => exact identifier
  | game words second => trivial
  | scene words operand filled => exact isWord_firstWord_fst operand filled
  | entity words operand filled => exact isWord_firstWord_fst operand filled
  | tick words => trivial
  | page words second operand filled => exact isWord_firstWord_fst operand filled
  | route words operand filled => exact isWord_firstWord_fst operand filled
  | closing words => trivial

theorem Line.wellFormed_of_classify {line : Line} {reading : Reading}
    (oneLine : '\n' ∉ line.text.toList) (read : line.classify = .ok reading) :
    reading.WellFormed := by
  by_cases known : reading = .unknown
  · rw [known]
    trivial
  · exact Spells.wellFormed (fun newline => oneLine (trim_subset line.text newline))
      (Line.spells_of_classify read known)

/-! ### The pass -/

theorem WellFormedFields.empty : WellFormedFields .empty :=
  ⟨fun _ member => absurd member List.not_mem_nil, List.nodup_nil⟩

theorem WellFormedFields.insert {fields : Table String} (inside : WellFormedFields fields)
    {name expr : String} (identifier : isIdentifier name = true) (fills : IsLineText expr) :
    WellFormedFields (fields.insert name expr) where
  fits := by
    intro entry member
    rcases mem_putEntry member with rfl | old
    · exact ⟨identifier, fills⟩
    · exact inside.fits entry old
  distinct := (fields.insert name expr).distinct

/-- A pass that holds nothing but what is well-formed. -/
structure Pass.WellFormed (pass : Pass) : Prop where
  blocks : ∀ block ∈ pass.blocks, block.header.WellFormed ∧ ∀ stmt ∈ block.before, stmt.WellFormed
  statements : ∀ stmt ∈ pass.statements, stmt.WellFormed
  record? : ∀ record ∈ pass.record?,
    isIdentifier record.name = true ∧ WellFormedFields record.fields

theorem Pass.WellFormed.fieldStep {pass next : Pass} {record : OpenRecord} {line : Line}
    (holds : pass.WellFormed) (isOpen : pass.record? = some record)
    (oneLine : '\n' ∉ line.text.toList) (taken : pass.fieldStep record line = .ok next) :
    next.WellFormed := by
  obtain ⟨identifier, inside⟩ := holds.record? record isOpen
  unfold Pass.fieldStep at taken
  split at taken
  · cases taken
    have read : Stmt.WellFormed (.record record.line record.name record.fields) :=
      .record identifier inside
    exact ⟨holds.blocks,
      List.forall_mem_append.mpr ⟨holds.statements, List.forall_mem_singleton.mpr read⟩,
      fun _ none => by cases none⟩
  · split at taken
    · cases taken
    · rename_i field expr read
      cases taken
      obtain ⟨parts, fieldIdentifier, filled⟩ := binding_eq_ok.mp read
      have trimmedOneLine := fun newline => oneLine (trim_subset line.text newline)
      have fills := isLineText_splitAtEquals? trimmedOneLine parts filled
      refine ⟨holds.blocks, holds.statements, ?_⟩
      rintro _ ⟨⟩
      exact ⟨identifier, inside.insert fieldIdentifier fills⟩

theorem Pass.WellFormed.pop {pass next : Pass} {number : Nat} (holds : pass.WellFormed)
    (taken : pass.pop number = .ok next) : next.WellFormed := by
  unfold Pass.pop at taken
  cases blocks : pass.blocks with
  | nil =>
    rw [blocks] at taken
    cases taken
  | cons block outer =>
    rw [blocks] at taken
    cases taken
    have blocksHold := holds.blocks
    rw [blocks] at blocksHold
    obtain ⟨opener, before⟩ := blocksHold block List.mem_cons_self
    have closed : Stmt.WellFormed (.block block.line block.header pass.statements) :=
      .block opener holds.statements
    exact ⟨fun other member => blocksHold other (List.mem_cons_of_mem _ member),
      List.forall_mem_append.mpr ⟨before, List.forall_mem_singleton.mpr closed⟩, holds.record?⟩

theorem Pass.WellFormed.lineStep {strict : Bool} {pass next : Pass} {line : Line}
    (holds : pass.WellFormed) (oneLine : '\n' ∉ line.text.toList)
    (taken : pass.lineStep strict line = .ok next) : next.WellFormed := by
  unfold Pass.lineStep at taken
  cases read : line.classify with
  | error error =>
    rw [read] at taken
    cases taken
  | ok reading =>
    have fits := Line.wellFormed_of_classify oneLine read
    rw [read] at taken
    cases reading with
    | statement stmt =>
      cases taken
      exact ⟨holds.blocks,
        List.forall_mem_append.mpr ⟨holds.statements, List.forall_mem_singleton.mpr fits⟩,
        holds.record?⟩
    | opener header =>
      cases taken
      refine ⟨?_, fun _ member => (List.not_mem_nil member).elim, holds.record?⟩
      intro block member
      rcases List.mem_cons.mp member with rfl | outer
      · exact ⟨fits, holds.statements⟩
      · exact holds.blocks block outer
    | recordOpener name =>
      cases taken
      refine ⟨holds.blocks, holds.statements, ?_⟩
      rintro _ ⟨⟩
      exact ⟨fits, .empty⟩
    | closing => exact holds.pop taken
    | unknown =>
      simp only at taken
      split at taken
      · cases taken
      · cases taken
        exact ⟨holds.blocks, holds.statements, holds.record?⟩

/-- One line keeps the pass well-formed. -/
theorem Pass.WellFormed.step {strict : Bool} {pass next : Pass} {line : Line}
    (holds : pass.WellFormed) (oneLine : '\n' ∉ line.text.toList)
    (taken : pass.step strict line = .ok next) : next.WellFormed := by
  unfold Pass.step at taken
  split at taken
  · rename_i record isOpen
    exact holds.fieldStep isOpen oneLine taken
  · exact holds.lineStep oneLine taken

/-- A pass that starts well-formed ends with a well-formed program, if it ends with one. -/
theorem Pass.WellFormed.read {strict : Bool} {pass : Pass} {lines : List Line} {program : Program}
    (holds : pass.WellFormed) (oneLine : ∀ line ∈ lines, '\n' ∉ line.text.toList)
    (finished : (pass.read strict lines).1 = .ok program) : ∀ stmt ∈ program, stmt.WellFormed := by
  obtain ⟨final, finalHolds, rfl⟩ := Pass.exists_of_read
    (fun line member _ _ held taken => held.step (oneLine line member) taken) holds finished
  exact finalHolds.statements

/-- A program that is read from lines without newlines is well-formed. -/
theorem wellFormed_of_parseProgram {strict : Bool} {lines : List Line} {program : Program}
    (oneLine : ∀ line ∈ lines, '\n' ∉ line.text.toList)
    (read : (parseProgram strict lines).value = .ok program) :
    ∀ stmt ∈ program, stmt.WellFormed := by
  have start : Pass.start.WellFormed :=
    ⟨fun _ member => (List.not_mem_nil member).elim, fun _ member => (List.not_mem_nil member).elim,
      fun _ member => by cases member⟩
  rw [parseProgram_eq_read] at read
  exact start.read oneLine read

end LineScript
