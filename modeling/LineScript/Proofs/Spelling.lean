/-
This file says how each kind of line is spelled. The classification of a line tries one keyword
after the other and stops at the first part that is missing or left over; here it is turned into
rules, one for each kind of line, that say which words its text is cut into and what is asked of
them. A line is read as a statement, an opener or an `end` exactly when its text is spelled so.
-/

import LineScript.Proofs.Blank
import LineScript.Proofs.Monad
import LineScript.Stmt.Parser

namespace LineScript

open Text

/-! ### Parts of a line -/

theorem required_eq_ok {number : Nat} {keyword expected text result : String} :
    required number keyword expected text = .ok result ↔ text ≠ "" ∧ result = text := by
  unfold required
  by_cases empty : text = ""
  · simp [empty]
  · simp [empty, eq_comm]

theorem noTrailing_eq_ok {number : Nat} {keyword text : String} {result : Unit} :
    noTrailing number keyword text = .ok result ↔ text = "" := by
  unfold noTrailing
  by_cases empty : text = ""
  · simp [empty]
  · simp [empty]

theorem validName_eq_ok {number : Nat} {name result : String} :
    validName number name = .ok result ↔ isIdentifier name = true ∧ result = name := by
  unfold validName
  by_cases identifier : isIdentifier name = true
  · simp [identifier, eq_comm]
  · simp [identifier]

theorem singleOperand_eq_ok {number : Nat} {keyword expected rest operand : String} :
    singleOperand number keyword expected rest = .ok operand ↔
      firstWord rest = (operand, "") ∧ operand ≠ "" := by
  unfold singleOperand
  rcases words : firstWord rest with ⟨word, trailing⟩
  simp only [except_bind_eq_ok, required_eq_ok, noTrailing_eq_ok]
  constructor
  · rintro ⟨_, ⟨filled, rfl⟩, _, rfl, same⟩
    cases same
    exact ⟨rfl, filled⟩
  · rintro ⟨same, filled⟩
    cases same
    exact ⟨_, ⟨filled, rfl⟩, (), rfl, rfl⟩

theorem binding_eq_ok {number : Nat} {construct whole text : String} {keyword? : Option String}
    {name expr : String} :
    binding number construct whole text keyword? = .ok (name, expr) ↔
      splitAtEquals? text = some (name, expr) ∧ isIdentifier name = true ∧ expr ≠ "" := by
  unfold binding
  cases splitAtEquals? text with
  | none => simp
  | some parts =>
    obtain ⟨left, right⟩ := parts
    simp only [except_bind_eq_ok, validName_eq_ok, required_eq_ok]
    constructor
    · rintro ⟨_, ⟨identifier, rfl⟩, _, ⟨filled, rfl⟩, same⟩
      cases same
      exact ⟨rfl, identifier, filled⟩
    · rintro ⟨same, identifier, filled⟩
      cases same
      exact ⟨_, ⟨identifier, rfl⟩, _, ⟨filled, rfl⟩, rfl⟩

/-! ### Rules -/

/-- How the trimmed text of a line spells what the line is read as. -/
inductive Spells (number : Nat) (whole : String) : Reading → Prop
  | print {expr : String} (words : firstWord whole = ("show", expr)) (filled : expr ≠ "") :
      Spells number whole (.statement (.print number expr))
  | assign {rest name expr : String} (words : firstWord whole = ("set", rest))
      (parts : splitAtEquals? rest = some (name, expr)) (identifier : isIdentifier name = true)
      (filled : expr ≠ "") : Spells number whole (.statement (.assign number name expr))
  | branch {condition : String} (words : firstWord whole = ("if", condition))
      (filled : condition ≠ "") : Spells number whole (.opener (.branch condition))
  | loop {rest count : String} (words : firstWord whole = ("loop", rest))
      (operand : firstWord rest = (count, "")) (filled : count ≠ "") :
      Spells number whole (.opener (.loop count))
  | record {rest name : String} (words : firstWord whole = ("data", rest))
      (operand : firstWord rest = (name, "")) (filled : name ≠ "")
      (identifier : isIdentifier name = true) : Spells number whole (.recordOpener name)
  | game {rest : String} (words : firstWord whole = ("game", rest))
      (second : firstWord rest = ("start", "")) : Spells number whole (.opener .game)
  | scene {rest name : String} (words : firstWord whole = ("scene", rest))
      (operand : firstWord rest = (name, "")) (filled : name ≠ "") :
      Spells number whole (.opener (.scene name))
  | entity {rest name : String} (words : firstWord whole = ("entity", rest))
      (operand : firstWord rest = (name, "")) (filled : name ≠ "") :
      Spells number whole (.opener (.entity name))
  | tick (words : firstWord whole = ("tick", "")) : Spells number whole (.opener .tick)
  | page {rest others name : String} (words : firstWord whole = ("ui", rest))
      (second : firstWord rest = ("page", others)) (operand : firstWord others = (name, ""))
      (filled : name ≠ "") : Spells number whole (.opener (.page name))
  | route {rest path : String} (words : firstWord whole = ("route", rest))
      (operand : firstWord rest = (path, "")) (filled : path ≠ "") :
      Spells number whole (.opener (.route path))
  | closing (words : firstWord whole = ("end", "")) : Spells number whole .closing

/-- A line that is read as something is spelled by the rules. -/
theorem Line.spells_of_classify {line : Line} {reading : Reading}
    (read : line.classify = .ok reading) (known : reading ≠ .unknown) :
    Spells line.number (trim line.text) reading := by
  unfold Line.classify at read
  rcases words : firstWord (trim line.text) with ⟨keyword, rest⟩
  rcases more : firstWord rest with ⟨second, others⟩
  simp only [words, more] at read
  -- One case for each keyword, in the order of the classification.
  split at read
  · obtain ⟨expr, part, same⟩ := except_bind_eq_ok.mp read
    obtain ⟨filled, rfl⟩ := required_eq_ok.mp part
    cases same
    exact .print words filled
  · obtain ⟨⟨name, expr⟩, part, same⟩ := except_bind_eq_ok.mp read
    obtain ⟨parts, identifier, filled⟩ := binding_eq_ok.mp part
    cases same
    exact .assign words parts identifier filled
  · obtain ⟨condition, part, same⟩ := except_bind_eq_ok.mp read
    obtain ⟨filled, rfl⟩ := required_eq_ok.mp part
    cases same
    exact .branch words filled
  · obtain ⟨count, part, same⟩ := except_bind_eq_ok.mp read
    obtain ⟨operand, filled⟩ := singleOperand_eq_ok.mp part
    cases same
    exact .loop words operand filled
  · obtain ⟨name, part, others⟩ := except_bind_eq_ok.mp read
    obtain ⟨operand, filled⟩ := singleOperand_eq_ok.mp part
    obtain ⟨valid, named, same⟩ := except_bind_eq_ok.mp others
    obtain ⟨identifier, rfl⟩ := validName_eq_ok.mp named
    cases same
    exact .record words operand filled identifier
  · by_cases start : second = "start"
    · rw [if_pos start] at read
      obtain ⟨_, part, same⟩ := except_bind_eq_ok.mp read
      cases same
      exact .game words (by rw [more, start, noTrailing_eq_ok.mp part])
    · rw [if_neg start] at read
      cases read
      exact absurd rfl known
  · obtain ⟨name, part, same⟩ := except_bind_eq_ok.mp read
    obtain ⟨operand, filled⟩ := singleOperand_eq_ok.mp part
    cases same
    exact .scene words operand filled
  · obtain ⟨name, part, same⟩ := except_bind_eq_ok.mp read
    obtain ⟨operand, filled⟩ := singleOperand_eq_ok.mp part
    cases same
    exact .entity words operand filled
  · obtain ⟨_, part, same⟩ := except_bind_eq_ok.mp read
    cases same
    exact .tick (by rw [words, noTrailing_eq_ok.mp part])
  · by_cases page : second = "page"
    · rw [if_pos page] at read
      obtain ⟨name, part, same⟩ := except_bind_eq_ok.mp read
      obtain ⟨operand, filled⟩ := singleOperand_eq_ok.mp part
      cases same
      exact .page words (by rw [more, page]) operand filled
    · rw [if_neg page] at read
      cases read
      exact absurd rfl known
  · obtain ⟨path, part, same⟩ := except_bind_eq_ok.mp read
    obtain ⟨operand, filled⟩ := singleOperand_eq_ok.mp part
    cases same
    exact .route words operand filled
  · by_cases alone : rest = ""
    · rw [if_pos alone] at read
      cases read
      exact .closing (by rw [words, alone])
    · rw [if_neg alone] at read
      cases read
      exact absurd rfl known
  · cases read
    exact absurd rfl known

/-- A line that is spelled by the rules is read as they say. -/
theorem Spells.classify {line : Line} {reading : Reading}
    (spelled : Spells line.number (trim line.text) reading) : line.classify = .ok reading := by
  unfold Line.classify
  cases spelled with
  | print words filled =>
    simp only [words]
    exact except_bind_eq_ok.mpr ⟨_, required_eq_ok.mpr ⟨filled, rfl⟩, rfl⟩
  | assign words parts identifier filled =>
    simp only [words]
    exact except_bind_eq_ok.mpr ⟨_, binding_eq_ok.mpr ⟨parts, identifier, filled⟩, rfl⟩
  | branch words filled =>
    simp only [words]
    exact except_bind_eq_ok.mpr ⟨_, required_eq_ok.mpr ⟨filled, rfl⟩, rfl⟩
  | loop words operand filled =>
    simp only [words]
    exact except_bind_eq_ok.mpr ⟨_, singleOperand_eq_ok.mpr ⟨operand, filled⟩, rfl⟩
  | record words operand filled identifier =>
    simp only [words]
    exact except_bind_eq_ok.mpr ⟨_, singleOperand_eq_ok.mpr ⟨operand, filled⟩,
      except_bind_eq_ok.mpr ⟨_, validName_eq_ok.mpr ⟨identifier, rfl⟩, rfl⟩⟩
  | game words second =>
    simp only [words, second]
    rfl
  | scene words operand filled =>
    simp only [words]
    exact except_bind_eq_ok.mpr ⟨_, singleOperand_eq_ok.mpr ⟨operand, filled⟩, rfl⟩
  | entity words operand filled =>
    simp only [words]
    exact except_bind_eq_ok.mpr ⟨_, singleOperand_eq_ok.mpr ⟨operand, filled⟩, rfl⟩
  | tick words =>
    simp only [words]
    rfl
  | page words second operand filled =>
    simp only [words, second, if_true]
    exact except_bind_eq_ok.mpr ⟨_, singleOperand_eq_ok.mpr ⟨operand, filled⟩, rfl⟩
  | route words operand filled =>
    simp only [words]
    exact except_bind_eq_ok.mpr ⟨_, singleOperand_eq_ok.mpr ⟨operand, filled⟩, rfl⟩
  | closing words =>
    simp only [words, if_true]

/-! ### The end of a block -/

theorem Line.isEnd_iff {line : Line} : line.isEnd = true ↔ trim line.text = "end" :=
  beq_iff_eq

/-- A line closes a block exactly when it is read as an `end`. -/
theorem Line.classify_eq_closing_iff {line : Line} :
    line.classify = .ok .closing ↔ line.isEnd = true := by
  rw [Line.isEnd_iff]
  constructor
  · intro read
    cases Line.spells_of_classify read (by simp) with
    | closing words =>
      have whole := firstWord_fst_of_snd_eq_empty (isTrimmed_toList_trim line.text)
        (congrArg Prod.snd words)
      rw [← whole, words]
  · intro ends
    refine Spells.classify (.closing ?_)
    rw [ends]
    rfl

end LineScript
