/-
This file says what a name cannot hold. The characters of a name are letters, numerals and
underscores, and these classes share no code point with the blanks. A name is therefore one word: it
ends at the blank after it, and no line break and no equals sign can hide in it.
-/

import LineScript.Text.Blank
import LineScript.Text.Name

namespace LineScript.Text

/-! ### Ranges -/

/-- A code point of a class lies between the ends of one of its ranges. -/
theorem Ranges.exists_of_holds {ranges : Ranges} {point : Nat}
    (member : ranges.holds point = true) :
    ∃ range ∈ ranges, range.1 ≤ point ∧ point ≤ range.2 := by
  induction ranges with
  | nil => cases member
  | cons range rest inductionHypothesis =>
    obtain ⟨low, high⟩ := range
    unfold Ranges.holds at member
    by_cases below : point < low
    · rw [if_pos below] at member
      cases member
    · rw [if_neg below] at member
      by_cases inside : point ≤ high
      · exact ⟨(low, high), List.mem_cons_self, Nat.le_of_not_lt below, inside⟩
      · rw [if_neg inside] at member
        obtain ⟨found, later, bounds⟩ := inductionHypothesis member
        exact ⟨found, List.mem_cons_of_mem _ later, bounds⟩

/-- What can be tried at every blank code point holds for all blanks. -/
theorem of_isBlank {property : Nat → Prop}
    (tried : ∀ range ∈ blankRanges, ∀ point ∈ List.range' range.1 (range.2 + 1 - range.1),
      property point) {c : Char} (blank : isBlank c = true) : property c.toNat := by
  obtain ⟨range, member, low, high⟩ := Ranges.exists_of_holds blank
  refine tried range member c.toNat ?_
  rw [List.mem_range'_1]
  omega

/-- The blank code points are few, so it can be tried that none of them belongs to a name. -/
theorem blankRanges_apart : ∀ range ∈ blankRanges, ∀ point ∈ List.range' range.1
    (range.2 + 1 - range.1), alphabeticRanges.holds point = false ∧
      numeralRanges.holds point = false ∧ point ≠ '_'.toNat := by
  decide +kernel

/-! ### Characters of names -/

theorem isNameChar_of_isNameStart {c : Char} (start : isNameStart c = true) :
    isNameChar c = true := by
  unfold isNameStart at start
  rw [Bool.or_eq_true] at start
  unfold isNameChar
  rcases start with letter | underscore
  · rw [letter, Bool.true_or, Bool.true_or]
  · rw [underscore, Bool.or_true]

/-- A blank is no character of a name. -/
theorem isNameChar_of_isBlank {c : Char} (blank : isBlank c = true) : isNameChar c = false := by
  obtain ⟨noLetter, noNumeral, noUnderscore⟩ := of_isBlank blankRanges_apart blank
  have other : c ≠ '_' := fun same => noUnderscore (congrArg Char.toNat same)
  unfold isNameChar isAlphabetic isNumeral Ranges.has
  rw [noLetter, noNumeral, beq_false_of_ne other]
  rfl

theorem isNameChar_of_mem_isName {text : String} (name : isName text = true) {c : Char}
    (member : c ∈ text.toList) : isNameChar c = true := by
  unfold isName at name
  cases chars : text.toList with
  | nil =>
    rw [chars] at member
    cases member
  | cons first rest =>
    rw [chars] at name member
    obtain ⟨start, others⟩ := (Bool.and_eq_true _ _).mp name
    rcases List.mem_cons.mp member with rfl | later
    · exact isNameChar_of_isNameStart start
    · exact List.all_eq_true.mp others c later

/-- A name holds no character that does not belong to names. -/
theorem not_mem_of_isName {text : String} (name : isName text = true) {c : Char}
    (foreign : isNameChar c = false) : c ∉ text.toList := by
  intro member
  rw [isNameChar_of_mem_isName name member] at foreign
  cases foreign

theorem isBlank_of_mem_isName {text : String} (name : isName text = true) {c : Char}
    (member : c ∈ text.toList) : isBlank c = false := by
  cases blank : isBlank c with
  | false => rfl
  | true => exact absurd member (not_mem_of_isName name (isNameChar_of_isBlank blank))

theorem ne_empty_of_isName {text : String} (name : isName text = true) : text ≠ "" := by
  rintro rfl
  cases name

end LineScript.Text
