/-
This file is about texts that can be written on a line and read back from it. A text fills a line if
it is not empty, has no blank at its ends and holds no newline; a word is such a text with no blank
inside. Words and texts set one after the other with single blanks between them fill a line again,
and the reader cuts them apart at the same places, be it after the first word or at the first equals
sign.
-/

import LineScript.Proofs.Blank
import LineScript.Proofs.Name
import LineScript.Stmt.Parser

namespace LineScript

open Text

/-! ### Texts and words -/

/-- A text that fills a line. -/
structure IsLineText (text : String) : Prop where
  filled : text ≠ ""
  trimmed : trim text = text
  oneLine : '\n' ∉ text.toList

/-- A word: a text without blanks. -/
structure IsWord (text : String) : Prop where
  filled : text ≠ ""
  solid : ∀ c ∈ text.toList, isBlank c = false

instance (text : String) : Decidable (IsLineText text) :=
  decidable_of_iff (text ≠ "" ∧ trim text = text ∧ '\n' ∉ text.toList)
    ⟨fun ⟨filled, trimmed, oneLine⟩ => ⟨filled, trimmed, oneLine⟩,
      fun ⟨filled, trimmed, oneLine⟩ => ⟨filled, trimmed, oneLine⟩⟩

theorem isWord_iff {text : String} :
    text ≠ "" ∧ (text.toList.all fun c => !isBlank c) = true ↔ IsWord text := by
  rw [List.all_eq_true]
  simp only [Bool.not_eq_true']
  exact ⟨fun ⟨filled, solid⟩ => ⟨filled, solid⟩, fun ⟨filled, solid⟩ => ⟨filled, solid⟩⟩

instance (text : String) : Decidable (IsWord text) :=
  decidable_of_iff _ isWord_iff

theorem toList_ne_nil {text : String} (filled : text ≠ "") : text.toList ≠ [] :=
  fun nothing => filled (String.toList_inj.mp nothing)

theorem IsWord.isLineText {word : String} (isWord : IsWord word) : IsLineText word where
  filled := isWord.filled
  trimmed := by
    rw [trim_eq_self_iff]
    refine ⟨trimFront_eq_self_iff.mpr ?_, trimBack_eq_self_iff.mpr ?_⟩
    · intro nonempty
      exact isWord.solid _ (List.head_mem nonempty)
    · intro nonempty
      exact isWord.solid _ (List.getLast_mem nonempty)
  oneLine := by
    intro member
    have newline : isBlank '\n' = true := by decide
    rw [isWord.solid _ member] at newline
    cases newline

/-- A word, a blank and a text that fills a line fill a line. -/
theorem IsLineText.append {word rest : String} (isWord : IsWord word) (fills : IsLineText rest) :
    IsLineText (word ++ " " ++ rest) where
  filled := by
    intro nothing
    have empty := congrArg String.toList nothing
    rw [toList_append_space] at empty
    exact List.append_ne_nil_of_right_ne_nil _ (List.cons_ne_nil _ _) empty
  trimmed := by
    have wordFilled := toList_ne_nil isWord.filled
    have restFilled := toList_ne_nil fills.filled
    have restTrimmed := trim_eq_self_iff.mp fills.trimmed
    rw [trim_eq_self_iff, toList_append_space]
    refine ⟨trimFront_eq_self_iff.mpr ?_, trimBack_eq_self_iff.mpr ?_⟩
    · intro nonempty
      rw [List.head_append_of_ne_nil wordFilled]
      exact isWord.solid _ (List.head_mem wordFilled)
    · intro nonempty
      rw [List.getLast_append_of_right_ne_nil _ _ (List.cons_ne_nil _ _),
        List.getLast_cons restFilled]
      exact trimBack_eq_self_iff.mp restTrimmed.back restFilled
  oneLine := by
    rw [toList_append_space]
    intro member
    rcases List.mem_append.mp member with inWord | later
    · exact isWord.isLineText.oneLine inWord
    · rcases List.mem_cons.mp later with space | inRest
      · exact absurd space (by decide)
      · exact fills.oneLine inRest

theorem firstWord_of_isWord {word rest : String} (isWord : IsWord word) (fills : IsLineText rest) :
    firstWord (word ++ " " ++ rest) = (word, rest) :=
  firstWord_append isWord.solid (trim_eq_self_iff.mp fills.trimmed)

/-! ### Names -/

theorem isName_of_isIdentifier {text : String} (identifier : isIdentifier text = true) :
    isName text = true :=
  ((Bool.and_eq_true _ _).mp identifier).1

theorem isWord_of_isIdentifier {name : String} (identifier : isIdentifier name = true) :
    IsWord name where
  filled := ne_empty_of_isName (isName_of_isIdentifier identifier)
  solid := fun _ => isBlank_of_mem_isName (isName_of_isIdentifier identifier)

/-! ### Equals signs -/

/-- Both parts of a text that is cut at an equals sign are trimmed and come from the text. -/
theorem splitAtEquals?_eq_some {text left right : String}
    (parts : splitAtEquals? text = some (left, right)) :
    trim right = right ∧ right.toList ⊆ text.toList := by
  unfold splitAtEquals? at parts
  simp only at parts
  split at parts
  · cases parts
  · rename_i equals rest after
    rw [Option.some.injEq, Prod.mk.injEq] at parts
    rw [← parts.2]
    refine ⟨trim_trim _, List.Subset.trans (trim_subset _) ?_⟩
    rw [String.toList_ofList]
    have suffix := List.dropWhile_suffix (l := text.toList) (· != '=')
    rw [after] at suffix
    exact List.Subset.trans (List.subset_cons_self equals rest) suffix.subset

/-- A name, an equals sign and a text that fills a line are cut into the name and the text. -/
theorem splitAtEquals?_binding {name expr : String} (identifier : isIdentifier name = true)
    (fills : IsLineText expr) :
    splitAtEquals? (name ++ " " ++ ("=" ++ " " ++ expr)) = some (name, expr) := by
  have isWord := isWord_of_isIdentifier identifier
  have space : isBlank ' ' = true := by decide
  have noEquals : ∀ c ∈ name.toList ++ [' '], (c != '=') = true := by
    intro c member
    rcases List.mem_append.mp member with inName | space
    · have foreign : isNameChar '=' = false := by decide
      have absent := not_mem_of_isName (isName_of_isIdentifier identifier) foreign
      exact bne_iff_ne.mpr fun same => absent (same ▸ inName)
    · rw [List.mem_singleton.mp space]
      decide
  have chars : (name ++ " " ++ ("=" ++ " " ++ expr)).toList =
      (name.toList ++ [' ']) ++ '=' :: ' ' :: expr.toList := by
    rw [toList_append_space, toList_append_space, List.append_assoc]
    rfl
  have nameBack : trim (String.ofList (name.toList ++ [' '])) = name := by
    have trimmed := trim_eq_self_iff.mp isWord.isLineText.trimmed
    have front : trimFront (name.toList ++ [' ']) = name.toList ++ [' '] := by
      rw [trimFront_eq_self_iff]
      intro nonempty
      rw [List.head_append_of_ne_nil (toList_ne_nil isWord.filled)]
      exact isWord.solid _ (List.head_mem _)
    rw [← String.toList_inj, toList_trim, String.toList_ofList, front, trimBack_concat space,
      trimmed.back]
  have exprFront : trim (String.ofList (' ' :: expr.toList)) = expr := by
    rw [← String.toList_inj, toList_trim, String.toList_ofList, trimFront_cons space,
      (trim_eq_self_iff.mp fills.trimmed).trim_eq]
  unfold splitAtEquals?
  simp only [chars]
  rw [List.takeWhile_append_of_pos noEquals, List.dropWhile_append_of_pos noEquals,
    List.takeWhile_cons, List.dropWhile_cons]
  simp only [bne_self_eq_false, Bool.false_eq_true, if_false, List.append_nil, nameBack, exprFront]

end LineScript
