/-
This file collects what the blanks of a text decide: that trimming leaves a trimmed text, that it
drops characters and adds none, and that a text made of a word, a blank and a trimmed rest is cut
into just these two. A trimmed text whose first word has nothing after it is that word.
-/

import LineScript.Text.Blank
import Mathlib.Data.List.DropRight

namespace LineScript.Text

/-! ### Trimmed characters -/

/-- Characters with no blank in front and none at the end. -/
structure IsTrimmed (chars : List Char) : Prop where
  front : trimFront chars = chars
  back : trimBack chars = chars

theorem trimBack_eq (chars : List Char) : trimBack chars = chars.rdropWhile isBlank := rfl

theorem trimBack_eq_self_iff {chars : List Char} :
    trimBack chars = chars ↔ ∀ nonempty : chars ≠ [], isBlank (chars.getLast nonempty) = false := by
  rw [trimBack_eq, List.rdropWhile_eq_self_iff]
  simp only [Bool.not_eq_true]

theorem trimFront_eq_self_iff {chars : List Char} :
    trimFront chars = chars ↔ ∀ nonempty : chars ≠ [], isBlank (chars.head nonempty) = false := by
  cases chars with
  | nil => simp [trimFront]
  | cons c rest =>
    unfold trimFront
    cases blank : isBlank c with
    | false => simp [blank]
    | true =>
      simp only [List.dropWhile_cons, blank, if_true, List.head_cons, ne_eq, reduceCtorEq,
        not_false_eq_true, forall_true_left, Bool.true_eq_false, iff_false]
      intro same
      have shorter := (List.dropWhile_suffix (l := rest) isBlank).length_le
      rw [same, List.length_cons] at shorter
      omega

/-- Characters with solid ones at both ends have no margins. -/
theorem isTrimmed_of_ends {first last : Char} (front : isBlank first = false)
    (back : isBlank last = false) (inside : List Char) :
    IsTrimmed (first :: (inside ++ [last])) := by
  refine ⟨trimFront_eq_self_iff.mpr fun _ => front, trimBack_eq_self_iff.mpr fun _ => ?_⟩
  rw [List.getLast_cons (List.concat_ne_nil last inside), List.getLast_concat]
  exact back

theorem trimFront_cons {c : Char} (blank : isBlank c = true) (chars : List Char) :
    trimFront (c :: chars) = trimFront chars :=
  List.dropWhile_cons_of_pos blank

theorem trimBack_concat {c : Char} (blank : isBlank c = true) (chars : List Char) :
    trimBack (chars ++ [c]) = trimBack chars :=
  List.rdropWhile_concat_pos isBlank chars c blank

/-- What is left after trimming in front is still trimmed there when the end is cut off. -/
theorem trimFront_trimBack {chars : List Char} (front : trimFront chars = chars) :
    trimFront (trimBack chars) = trimBack chars := by
  rw [trimFront_eq_self_iff] at front ⊢
  intro nonempty
  have kept : trimBack chars <+: chars := List.rdropWhile_prefix isBlank chars
  rw [kept.head nonempty]
  exact front _

theorem trimFront_trimFront (chars : List Char) : trimFront (trimFront chars) = trimFront chars :=
  List.dropWhile_idempotent isBlank chars

theorem trimBack_trimBack (chars : List Char) : trimBack (trimBack chars) = trimBack chars :=
  List.rdropWhile_idempotent isBlank chars

/-- Trimming at both ends leaves trimmed characters. -/
theorem isTrimmed_trim (chars : List Char) : IsTrimmed (trimBack (trimFront chars)) :=
  ⟨trimFront_trimBack (trimFront_trimFront chars), trimBack_trimBack (trimFront chars)⟩

theorem IsTrimmed.trim_eq {chars : List Char} (trimmed : IsTrimmed chars) :
    trimBack (trimFront chars) = chars := by
  rw [trimmed.front, trimmed.back]

theorem toList_trim (text : String) : (trim text).toList = trimBack (trimFront text.toList) :=
  String.toList_ofList

theorem isTrimmed_toList_trim (text : String) : IsTrimmed (trim text).toList := by
  rw [toList_trim]
  exact isTrimmed_trim text.toList

theorem trim_eq_self_iff {text : String} : trim text = text ↔ IsTrimmed text.toList := by
  constructor
  · intro same
    rw [← same]
    exact isTrimmed_toList_trim text
  · intro trimmed
    unfold trim
    rw [trimmed.trim_eq, String.ofList_toList]

theorem trim_trim (text : String) : trim (trim text) = trim text :=
  trim_eq_self_iff.mpr (isTrimmed_toList_trim text)

/-! ### Blanks around characters -/

/-- Characters are their trimmed form with blanks in front of it and after it. -/
theorem exists_margins (chars : List Char) :
    ∃ front back, chars = front ++ (trimBack (trimFront chars) ++ back) ∧
      (∀ c ∈ front, isBlank c = true) ∧ ∀ c ∈ back, isBlank c = true := by
  refine ⟨chars.takeWhile isBlank, (trimFront chars).rtakeWhile isBlank, ?_, ?_, ?_⟩
  · rw [trimBack_eq, List.rdropWhile_append_rtakeWhile]
    exact List.takeWhile_append_dropWhile.symm
  · exact fun c => List.mem_takeWhile_imp
  · exact fun c => List.mem_rtakeWhile_imp

/-- Blanks around characters are trimmed away with those that are there already. -/
theorem trim_margins {front back : List Char} (blankFront : ∀ c ∈ front, isBlank c = true)
    (blankBack : ∀ c ∈ back, isBlank c = true) (chars : List Char) :
    trimBack (trimFront (front ++ (chars ++ back))) = trimBack (trimFront chars) := by
  have dropped : trimFront back = [] := List.dropWhile_eq_nil_iff.mpr blankBack
  have cut : ∀ kept, trimBack (kept ++ back) = trimBack kept := by
    intro kept
    unfold trimBack
    rw [List.reverse_append, List.dropWhile_append_of_pos fun c member =>
      blankBack c (List.mem_reverse.mp member)]
  unfold trimFront at dropped ⊢
  rw [List.dropWhile_append_of_pos blankFront, List.dropWhile_append, dropped]
  split
  · rename_i empty
    rw [List.isEmpty_iff.mp empty]
  · exact cut _

theorem trim_trimEnd (text : String) : trim (trimEnd text) = trim text := by
  have blankBack : ∀ c ∈ text.toList.rtakeWhile isBlank, isBlank c = true :=
    fun c => List.mem_rtakeWhile_imp
  have whole : [] ++ (trimBack text.toList ++ text.toList.rtakeWhile isBlank) = text.toList :=
    List.rdropWhile_append_rtakeWhile
  have trimmed := trim_margins (List.forall_mem_nil _) blankBack (trimBack text.toList)
  rw [whole] at trimmed
  rw [← String.toList_inj, toList_trim, toList_trim, trimEnd, String.toList_ofList, trimmed]

theorem toList_trimEnd (text : String) : (trimEnd text).toList = trimBack text.toList :=
  String.toList_ofList

theorem trimEnd_trimEnd (text : String) : trimEnd (trimEnd text) = trimEnd text := by
  rw [← String.toList_inj, toList_trimEnd, toList_trimEnd, trimBack_trimBack]

/-- A text that holds more than blanks still does when its end is trimmed. -/
theorem isBlankText_trimEnd (text : String) : isBlankText (trimEnd text) = isBlankText text := by
  have whole : trimBack text.toList ++ text.toList.rtakeWhile isBlank = text.toList :=
    List.rdropWhile_append_rtakeWhile
  have cut : (text.toList.rtakeWhile isBlank).all isBlank = true :=
    List.all_eq_true.mpr fun c => List.mem_rtakeWhile_imp
  rw [isBlankText, isBlankText, toList_trimEnd, ← whole, List.all_append, cut, Bool.and_true,
    whole]

/-! ### Trimming drops characters and adds none -/

theorem trimBack_subset (chars : List Char) : trimBack chars ⊆ chars :=
  (List.rdropWhile_prefix isBlank chars).subset

theorem trimFront_subset (chars : List Char) : trimFront chars ⊆ chars :=
  (List.dropWhile_suffix isBlank).subset

theorem trim_subset (text : String) : (trim text).toList ⊆ text.toList := by
  rw [toList_trim]
  exact List.Subset.trans (trimBack_subset _) (trimFront_subset _)

theorem trimEnd_subset (text : String) : (trimEnd text).toList ⊆ text.toList := by
  unfold trimEnd
  rw [String.toList_ofList]
  exact trimBack_subset text.toList

/-! ### First words -/

theorem toList_firstWord_fst (text : String) :
    (firstWord text).1.toList = text.toList.takeWhile fun c => !isBlank c :=
  String.toList_ofList

theorem firstWord_snd (text : String) :
    (firstWord text).2 = trim (String.ofList (text.toList.dropWhile fun c => !isBlank c)) := by
  unfold firstWord trim
  rw [String.toList_ofList]

theorem firstWord_snd_subset (text : String) : (firstWord text).2.toList ⊆ text.toList := by
  rw [firstWord_snd]
  refine List.Subset.trans (trim_subset _) ?_
  rw [String.toList_ofList]
  exact (List.dropWhile_suffix _).subset

theorem trim_firstWord_snd (text : String) : trim (firstWord text).2 = (firstWord text).2 := by
  rw [firstWord_snd, trim_trim]

/-- The first word holds no blank. -/
theorem isBlank_of_mem_firstWord {text : String} {c : Char}
    (member : c ∈ (firstWord text).1.toList) : isBlank c = false := by
  rw [toList_firstWord_fst] at member
  simpa using List.mem_takeWhile_imp member

/-- A trimmed text with nothing after its first word is that word. -/
theorem firstWord_fst_of_snd_eq_empty {text : String} (trimmed : IsTrimmed text.toList)
    (nothing : (firstWord text).2 = "") : (firstWord text).1 = text := by
  have cut : text.toList.dropWhile (fun c => !isBlank c) = [] := by
    by_contra left
    have allBlank : ∀ c ∈ text.toList.dropWhile (fun c => !isBlank c), isBlank c = true := by
      have empty : trimBack (trimFront (text.toList.dropWhile fun c => !isBlank c)) = [] := by
        rw [firstWord_snd, ← String.toList_inj, toList_trim, String.toList_ofList] at nothing
        exact nothing
      rw [trimBack_eq, List.rdropWhile_eq_nil_iff] at empty
      intro c member
      rw [← List.takeWhile_append_dropWhile (p := isBlank)
        (l := text.toList.dropWhile fun c => !isBlank c)] at member
      rcases List.mem_append.mp member with early | late
      · exact List.mem_takeWhile_imp early
      · exact empty c late
    have suffix := List.dropWhile_suffix (l := text.toList) fun c => !isBlank c
    have lastBlank := allBlank _ (List.getLast_mem left)
    rw [suffix.getLast left, trimBack_eq_self_iff.mp trimmed.back] at lastBlank
    cases lastBlank
  rw [← String.toList_inj, toList_firstWord_fst]
  conv_rhs => rw [← List.takeWhile_append_dropWhile (p := fun c => !isBlank c) (l := text.toList)]
  rw [cut, List.append_nil]

/-- A word that has no blank is its own first word, with nothing after it. -/
theorem firstWord_word {word : String} (solid : ∀ c ∈ word.toList, isBlank c = false) :
    firstWord word = (word, "") := by
  have all : ∀ c ∈ word.toList, (!isBlank c) = true := fun c member => by
    rw [solid c member]
    rfl
  have taken : word.toList.takeWhile (fun c => !isBlank c) = word.toList :=
    List.takeWhile_eq_self_iff.mpr all
  have dropped : word.toList.dropWhile (fun c => !isBlank c) = [] :=
    List.dropWhile_eq_nil_iff.mpr all
  unfold firstWord
  simp only [taken, dropped, String.ofList_toList]
  rfl

theorem toList_append_space (first second : String) :
    (first ++ " " ++ second).toList = first.toList ++ ' ' :: second.toList := by
  rw [String.toList_append, String.toList_append, List.append_assoc]
  rfl

/-- A word, a blank and a trimmed rest are cut into the word and the rest. -/
theorem firstWord_append {word rest : String} (solid : ∀ c ∈ word.toList, isBlank c = false)
    (trimmed : IsTrimmed rest.toList) : firstWord (word ++ " " ++ rest) = (word, rest) := by
  have all : ∀ c ∈ word.toList, (!isBlank c) = true := fun c member => by
    rw [solid c member]
    rfl
  have space : isBlank ' ' = true := by decide
  have front : trimFront (' ' :: rest.toList) = rest.toList := by
    rw [trimFront_cons space, trimmed.front]
  unfold firstWord
  simp only [toList_append_space]
  rw [List.takeWhile_append_of_pos all, List.dropWhile_append_of_pos all, List.takeWhile_cons,
    List.dropWhile_cons]
  simp only [space, Bool.not_true, Bool.false_eq_true, if_false, List.append_nil,
    String.ofList_toList, front, trimmed.back]

end LineScript.Text
