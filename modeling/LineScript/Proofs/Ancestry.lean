/-
This file reads a path as the names it is made of. Empty parts and points between the slashes are no
names, so many texts are paths of the same names. Taking the parent of a path takes the last name
off and keeps whether the path starts at the root; the walk up from a path therefore meets all its
beginnings, the longest first. A relative path ends this walk at no names at all, which is the
directory it starts in, and not at the root.
-/

import LineScript.Files.Tree

namespace LineScript

open FileTree

/-! ### Parts and names -/

namespace Path

/-- Whether a part between slashes is a name. -/
def isNamePart (part : List Char) : Bool :=
  part != [] && part != ['.']

/-- The names among some parts. -/
def namesOf (parts : List (List Char)) : List String :=
  (parts.filter isNamePart).map String.ofList

/-- The names that a path is made of. -/
def names (path : String) : List String :=
  namesOf (parts path.toList)

/-- Whether a path starts at the root. -/
def isAbsolute (path : String) : Bool :=
  path.toList.head? == some '/'

theorem namesOf_append (first second : List (List Char)) :
    namesOf (first ++ second) = namesOf first ++ namesOf second := by
  rw [namesOf, List.filter_append, List.map_append]
  rfl

theorem namesOf_cons_of_name {part : List Char} (named : isNamePart part = true)
    (others : List (List Char)) :
    namesOf (part :: others) = String.ofList part :: namesOf others := by
  rw [namesOf, List.filter_cons_of_pos named, List.map_cons]
  rfl

theorem namesOf_cons_of_not_name {part : List Char} (plain : isNamePart part = false)
    (others : List (List Char)) : namesOf (part :: others) = namesOf others := by
  rw [namesOf, List.filter_cons_of_neg (by simp [plain])]
  rfl

end Path

theorem parts_ne_nil (chars : List Char) : parts chars ≠ [] := by
  cases chars with
  | nil => exact List.cons_ne_nil _ _
  | cons c rest =>
    unfold parts
    split
    · exact List.cons_ne_nil _ _
    · split <;> exact List.cons_ne_nil _ _

/-- A slash separates the parts before it from those after it. -/
theorem parts_append_slash (front back : List Char) :
    parts (front ++ '/' :: back) = parts front ++ parts back := by
  induction front with
  | nil => rfl
  | cons c rest inductionHypothesis =>
    rw [List.cons_append, parts, parts, inductionHypothesis]
    by_cases slash : c = '/'
    · rw [if_pos slash, if_pos slash, List.cons_append]
    · rw [if_neg slash, if_neg slash]
      obtain ⟨first, others, same⟩ := List.exists_cons_of_ne_nil (parts_ne_nil rest)
      rw [same]
      rfl

theorem parts_of_no_slash {chars : List Char} (whole : '/' ∉ chars) : parts chars = [chars] := by
  induction chars with
  | nil => rfl
  | cons c rest inductionHypothesis =>
    obtain ⟨other, restWhole⟩ := not_or.mp (fun member => whole (List.mem_cons.mpr member))
    rw [parts, if_neg (Ne.symm other), inductionHypothesis restWhole]

namespace Path

theorem namesOf_append_slash (front back : List Char) :
    namesOf (parts (front ++ '/' :: back)) = namesOf (parts front) ++ namesOf (parts back) := by
  rw [parts_append_slash, namesOf_append]

/-! ### Parents -/

/-- Slashes and points at the end of a path are no names. -/
theorem namesOf_trimReversed (reversed : List Char) :
    namesOf (parts (trimReversed reversed).reverse) = namesOf (parts reversed.reverse) := by
  fun_induction trimReversed reversed with
  | case1 => rfl
  | case2 rest inductionHypothesis =>
    rw [inductionHypothesis, List.reverse_cons, namesOf_append_slash]
    exact (List.append_nil _).symm
  | case3 rest inductionHypothesis =>
    rw [inductionHypothesis, List.reverse_cons, List.reverse_cons, List.append_assoc]
    exact ((namesOf_append_slash _ _).trans (List.append_nil _)).symm
  | case4 => rfl
  | case5 => rfl

/-- What is left of a path without the slashes and points at its end ends with a name. -/
theorem isNamePart_of_trimReversed {reversed : List Char} (left : trimReversed reversed ≠ []) :
    isNamePart ((trimReversed reversed).takeWhile (· != '/')).reverse = true := by
  fun_induction trimReversed reversed with
  | case1 => exact absurd rfl left
  | case2 rest inductionHypothesis => exact inductionHypothesis left
  | case3 rest inductionHypothesis => exact inductionHypothesis left
  | case4 => exact absurd rfl left
  | case5 chars filled noSlash noPoint notPoint =>
    obtain ⟨c, rest, rfl⟩ := List.exists_cons_of_ne_nil left
    have first : c ≠ '/' := fun slash => noSlash rest (slash ▸ rfl)
    rw [List.takeWhile_cons_of_pos (by simpa using first)]
    have notEmpty : (c :: rest.takeWhile (· != '/')).reverse ≠ [] := by simp
    have notAlone : (c :: rest.takeWhile (· != '/')).reverse ≠ ['.'] := by
      intro same
      obtain ⟨rfl, none⟩ := List.cons_eq_cons.mp (List.reverse_eq_iff.mp same)
      cases rest with
      | nil => exact notPoint rfl
      | cons next others =>
        by_cases slash : next = '/'
        · exact noPoint others (slash ▸ rfl)
        · rw [List.takeWhile_cons_of_pos (by simpa using slash)] at none
          cases none
    exact Bool.and_eq_true_iff.mpr ⟨bne_iff_ne.mpr notEmpty, bne_iff_ne.mpr notAlone⟩

theorem trimReversed_suffix (reversed : List Char) : trimReversed reversed <:+ reversed := by
  fun_induction trimReversed reversed with
  | case1 => exact List.suffix_rfl
  | case2 rest inductionHypothesis => exact inductionHypothesis.trans (List.suffix_cons _ rest)
  | case3 rest inductionHypothesis =>
    exact (inductionHypothesis.trans (List.suffix_cons _ rest)).trans (List.suffix_cons _ _)
  | case4 => exact List.nil_suffix
  | case5 => exact List.suffix_rfl

/-- What a path starts with before its components is no name. -/
theorem namesOf_root {chars back : List Char} (cut : back <+: chars.drop (rootLength chars)) :
    namesOf (parts (chars.take (rootLength chars) ++ back)) = namesOf (parts back) := by
  revert cut
  fun_cases rootLength chars with
  | case1 rest =>
    intro _
    exact namesOf_append_slash [] back
  | case2 =>
    intro cut
    rw [List.prefix_nil.mp cut]
    rfl
  | case3 rest =>
    intro cut
    cases back with
    | nil => rfl
    | cons c others =>
      obtain ⟨rfl, -⟩ := List.cons_prefix_cons.mp cut
      exact (namesOf_append_slash ['.'] others).trans (namesOf_append_slash [] others).symm
  | case4 => exact fun _ => rfl

/-- The names of a path are those behind its root. -/
theorem names_eq (path : String) :
    names path = namesOf (parts (path.toList.drop (rootLength path.toList))) := by
  have whole := namesOf_root (List.prefix_refl (path.toList.drop (rootLength path.toList)))
  rw [List.take_append_drop] at whole
  exact whole

/-- The last name of a path that ends with one, and the names before it. -/
theorem namesOf_reverse {reversed : List Char}
    (named : isNamePart (reversed.takeWhile (· != '/')).reverse = true) :
    namesOf (parts reversed.reverse) =
      namesOf (parts ((reversed.dropWhile (· != '/')).drop 1).reverse) ++
        [String.ofList (reversed.takeWhile (· != '/')).reverse] := by
  have whole : '/' ∉ (reversed.takeWhile (· != '/')).reverse := by
    intro member
    have passed := List.all_eq_true.mp List.all_takeWhile _ (List.mem_reverse.mp member)
    exact bne_iff_ne.mp passed rfl
  have last : namesOf (parts (reversed.takeWhile (· != '/')).reverse) =
      [String.ofList (reversed.takeWhile (· != '/')).reverse] := by
    rw [parts_of_no_slash whole, namesOf_cons_of_name named]
    rfl
  have split := List.takeWhile_append_dropWhile (p := (· != '/')) (l := reversed)
  cases rest : reversed.dropWhile (· != '/') with
  | nil =>
    rw [rest, List.append_nil] at split
    rw [split] at last ⊢
    exact last
  | cons c others =>
    obtain rfl : c = '/' := by
      have stopped := List.head_dropWhile_not (l := reversed) (· != '/') (by simp [rest])
      simpa [rest] using stopped
    rw [rest] at split
    have turned := congrArg List.reverse split
    rw [List.reverse_append, List.reverse_cons, List.append_assoc, List.singleton_append] at turned
    rw [← turned, namesOf_append_slash, last, List.drop_one, List.tail_cons]

/-- A beginning of a path that holds its root starts where the path starts. -/
theorem head?_root {chars back : List Char} (cut : back <+: chars.drop (rootLength chars)) :
    (chars.take (rootLength chars) ++ back).head? = some '/' ↔ chars.head? = some '/' := by
  revert cut
  fun_cases rootLength chars with
  | case1 rest => simp
  | case2 => simp
  | case3 rest => simp
  | case4 chars noRoot =>
    intro cut
    have relative : chars.head? ≠ some '/' := by
      intro head
      obtain ⟨rest, rfl⟩ := List.head?_eq_some_iff.mp head
      exact noRoot rest rfl
    rw [List.take_zero, List.nil_append]
    refine ⟨fun head => ?_, fun head => absurd head relative⟩
    obtain ⟨rest, rfl⟩ := List.head?_eq_some_iff.mp head
    obtain ⟨others, whole⟩ := cut
    exact congrArg List.head? whole.symm

/-- A path has the names of another but the last, starts where the other starts, and is a shorter
text. -/
structure IsAbove (parent path : String) : Prop where
  names_eq : names parent = (names path).dropLast
  isAbsolute_iff : isAbsolute parent = true ↔ isAbsolute path = true
  shorter : parent.length < path.length

theorem isAbsolute_iff {path : String} : isAbsolute path = true ↔ path.toList.head? = some '/' :=
  beq_iff_eq

/-- The components of a path, reversed and without the slashes and points at their end. -/
def components (path : String) : List Char :=
  trimReversed (path.toList.drop (rootLength path.toList)).reverse

/-- The components of a path without the last one and what separates it. -/
def upperComponents (path : String) : List Char :=
  trimReversed (((components path).dropWhile (· != '/')).drop 1)

theorem names_eq_components (path : String) :
    names path = namesOf (parts (components path).reverse) := by
  rw [components, namesOf_trimReversed, List.reverse_reverse, names_eq]

theorem isNamePart_of_components {path : String} (left : components path ≠ []) :
    isNamePart ((components path).takeWhile (· != '/')).reverse = true :=
  isNamePart_of_trimReversed left

theorem names_eq_upperComponents {path : String} (left : components path ≠ []) :
    namesOf (parts (upperComponents path).reverse) = (names path).dropLast := by
  rw [names_eq_components, namesOf_reverse (isNamePart_of_components left),
    List.dropLast_concat, upperComponents, namesOf_trimReversed]

theorem names_eq_nil_iff {path : String} : names path = [] ↔ components path = [] := by
  rw [names_eq_components]
  constructor
  · intro none
    refine Decidable.byContradiction fun left => ?_
    rw [namesOf_reverse (isNamePart_of_components left)] at none
    exact List.append_ne_nil_of_right_ne_nil _ (List.cons_ne_nil _ _) none
  · intro none
    rw [none]
    rfl

/-- The upper components are a beginning of what follows the root, and leave a name out. -/
theorem upperComponents_prefix {path : String} (left : components path ≠ []) :
    (upperComponents path).reverse <+: path.toList.drop (rootLength path.toList) ∧
      (upperComponents path).length < (path.toList.drop (rootLength path.toList)).length := by
  have upper : upperComponents path <:+ (components path).dropWhile (· != '/') :=
    (trimReversed_suffix _).trans (List.drop_suffix 1 _)
  have whole : components path <:+ (path.toList.drop (rootLength path.toList)).reverse :=
    trimReversed_suffix _
  have name : 0 < ((components path).takeWhile (· != '/')).length := by
    have named := (Bool.and_eq_true_iff.mp (isNamePart_of_components left)).1
    rw [← List.length_reverse]
    exact List.length_pos_iff.mpr (bne_iff_ne.mp named)
  have split := congrArg List.length
    (List.takeWhile_append_dropWhile (p := (· != '/')) (l := components path))
  rw [List.length_append] at split
  constructor
  · rw [← List.reverse_reverse (path.toList.drop _), List.reverse_prefix]
    exact upper.trans ((List.dropWhile_suffix _).trans whole)
  · have upperLength := upper.length_le
    have wholeLength := whole.length_le
    rw [List.length_reverse] at wholeLength
    omega

/-- Where the last component is taken off. -/
theorem parent?_of_components {path : String} (left : components path ≠ []) :
    parent? path = some (String.ofList
      (path.toList.take (rootLength path.toList) ++ (upperComponents path).reverse)) := by
  unfold parent?
  simp only
  split
  · rename_i none
    exact absurd none left
  · rfl

theorem parent?_of_no_components {path : String} (none : components path = []) :
    parent? path =
      if path.toList.take (rootLength path.toList) = ['.'] then some "" else .none := by
  unfold parent?
  simp only
  split
  · rfl
  · rename_i left
    exact absurd none left

theorem names_eq_nil_of_parent? {path : String} (top : parent? path = none) : names path = [] := by
  refine Decidable.byContradiction fun named => ?_
  rw [parent?_of_components (mt names_eq_nil_iff.mpr named)] at top
  cases top

/-- The parent of a path is above it. -/
theorem isAbove_of_parent? {path parent : String} (up : parent? path = some parent) :
    IsAbove parent path := by
  by_cases left : components path = []
  · rw [parent?_of_no_components left] at up
    split at up
    · rename_i point
      cases up
      obtain ⟨rest, same⟩ : ∃ rest, path.toList = '.' :: rest := by
        rw [← List.take_append_drop (rootLength path.toList) path.toList, point]
        exact ⟨_, rfl⟩
      refine ⟨?_, ?_, ?_⟩
      · rw [names_eq_nil_iff.mpr left]
        rfl
      · simp [isAbsolute_iff, same]
      · rw [← String.length_toList, ← String.length_toList, same]
        exact Nat.succ_pos _
    · cases up
  · rw [parent?_of_components left] at up
    cases up
    obtain ⟨cut, shorter⟩ := upperComponents_prefix left
    refine ⟨?_, ?_, ?_⟩
    · rw [names, String.toList_ofList, namesOf_root cut, names_eq_upperComponents left]
    · rw [isAbsolute_iff, isAbsolute_iff, String.toList_ofList, head?_root cut]
    · have whole := congrArg List.length
        (List.take_append_drop (rootLength path.toList) path.toList)
      rw [List.length_append] at whole
      rw [← String.length_toList, ← String.length_toList, String.toList_ofList,
        List.length_append, List.length_reverse]
      omega

/-! ### The walk up -/

/-- Of the places from `top` down to a place, the deepest that passes a test. -/
structure IsDeepest (test : List String → Bool) (top place found : List String) : Prop where
  below : top <+: found
  above : found <+: place
  passes : test found = true
  deepest : ∀ other, found <+: other → other <+: place → test other = true → other = found

theorem prefix_dropLast_of_ne {first second : List String} (cut : first <+: second)
    (other : first ≠ second) : first <+: second.dropLast := by
  obtain ⟨rest, rfl⟩ := cut
  have filled : rest ≠ [] := by
    rintro rfl
    exact other (List.append_nil first).symm
  rw [List.dropLast_append_of_ne_nil filled]
  exact List.prefix_append _ _

/-- A place that fails the test may be left out. -/
theorem isDeepest_dropLast_iff {test : List String → Bool} {top below found : List String}
    (fails : test (top ++ below) = false) :
    IsDeepest test top (top ++ below.dropLast) found ↔ IsDeepest test top (top ++ below) found := by
  have shorter : top ++ below.dropLast <+: top ++ below :=
    (List.prefix_append_right_inj top).mpr (List.dropLast_prefix below)
  have cut : ∀ other, top <+: other → other <+: top ++ below → test other = true →
      other <+: top ++ below.dropLast := by
    intro other lower upper passes
    obtain ⟨part, rfl⟩ := lower
    refine (List.prefix_append_right_inj top).mpr (prefix_dropLast_of_ne
      ((List.prefix_append_right_inj top).mp upper) ?_)
    rintro rfl
    rw [fails] at passes
    cases passes
  constructor
  · intro found
    exact ⟨found.below, found.above.trans shorter, found.passes, fun other lower upper passes =>
      found.deepest other lower (cut other (found.below.trans lower) upper passes) passes⟩
  · intro found
    exact ⟨found.below, cut _ found.below found.above found.passes, found.passes,
      fun other lower upper passes => found.deepest other lower (upper.trans shorter) passes⟩

/-- If some place passes the test, there is a deepest one. -/
theorem exists_isDeepest {test : List String → Bool} {top place passing : List String}
    (lower : top <+: passing) (upper : passing <+: place) (passes : test passing = true) :
    ∃ found, IsDeepest test top place found := by
  obtain ⟨below, rfl⟩ := lower.trans upper
  induction fewer : below.length generalizing below with
  | zero =>
    rw [List.length_eq_zero_iff.mp fewer, List.append_nil] at upper ⊢
    refine ⟨passing, lower, upper, passes, fun other after before _ => ?_⟩
    exact (before.trans lower).eq_of_length_le after.length_le
  | succ count inductionHypothesis =>
    cases whole : test (top ++ below) with
    | true =>
      exact ⟨top ++ below, List.prefix_append _ _, List.prefix_rfl, whole,
        fun other after before _ => before.eq_of_length_le after.length_le⟩
    | false =>
      have filled : below ≠ [] := List.ne_nil_of_length_eq_add_one fewer
      have cut := prefix_dropLast_of_ne upper fun same => by
        rw [same, whole] at passes
        cases passes
      rw [List.dropLast_append_of_ne_nil filled] at cut
      obtain ⟨found, deepest⟩ := inductionHypothesis _ cut (by rw [List.length_dropLast]; omega)
      exact ⟨found, (isDeepest_dropLast_iff whole).mp deepest⟩

/-- Where a place from `top` on passes the test, the deepest one is found without regard to
`top`. -/
theorem isDeepest_iff_of_passes {test : List String → Bool} {top place passing found : List String}
    (lower : top <+: passing) (upper : passing <+: place) (passes : test passing = true) :
    IsDeepest test top place found ↔ IsDeepest test [] place found := by
  constructor
  · intro deepest
    exact ⟨List.nil_prefix, deepest.above, deepest.passes, deepest.deepest⟩
  · intro deepest
    refine ⟨?_, deepest.above, deepest.passes, deepest.deepest⟩
    rcases List.prefix_or_prefix_of_prefix deepest.above upper with before | after
    · rw [← deepest.deepest passing before upper passes]
      exact lower
    · exact lower.trans after

/-- The walk up from a path finds the deepest place that passes a test, from where the path leads
up to where it starts. -/
theorem find?_ancestorsFrom {fuel : Nat} {path : String} (enough : path.length < fuel)
    (test : List String → Bool) (top found : List String) :
    ((ancestorsFrom fuel path).map fun other => top ++ names other).find? test = some found ↔
      IsDeepest test top (top ++ names path) found := by
  induction fuel generalizing path with
  | zero => cases enough
  | succ fuel inductionHypothesis =>
    have here : test (top ++ names path) = true →
        (some (top ++ names path) = some found ↔
          IsDeepest test top (top ++ names path) found) := by
      intro passes
      constructor
      · intro same
        cases same
        exact ⟨List.prefix_append _ _, List.prefix_rfl, passes,
          fun other lower upper _ => upper.eq_of_length_le lower.length_le⟩
      · intro deepest
        rw [deepest.deepest _ deepest.above List.prefix_rfl passes]
    rw [ancestorsFrom]
    cases up : parent? path with
    | some parent =>
      have above := isAbove_of_parent? up
      simp only [List.map_cons, List.find?_cons]
      cases passes : test (top ++ names path) with
      | true => exact here passes
      | false =>
        have shorter := above.shorter
        rw [← isDeepest_dropLast_iff passes, ← above.names_eq]
        exact inductionHypothesis (by omega)
    | none =>
      simp only [List.map_cons, List.map_nil, List.find?_cons, List.find?_nil]
      cases passes : test (top ++ names path) with
      | true => exact here passes
      | false =>
        rw [names_eq_nil_of_parent? up, List.append_nil] at passes ⊢
        constructor
        · intro none
          cases none
        · intro deepest
          have passed := deepest.passes
          rw [← deepest.below.eq_of_length_le deepest.above.length_le, passes] at passed
          cases passed

/-- The walk up stays where the path starts, and meets beginnings of its names. -/
theorem of_mem_ancestorsFrom {fuel : Nat} {path ancestor : String}
    (member : ancestor ∈ ancestorsFrom fuel path) :
    (isAbsolute ancestor = true ↔ isAbsolute path = true) ∧ names ancestor <+: names path := by
  induction fuel generalizing path with
  | zero =>
    rw [List.mem_singleton.mp member]
    exact ⟨Iff.rfl, List.prefix_rfl⟩
  | succ fuel inductionHypothesis =>
    rw [ancestorsFrom] at member
    split at member
    · rename_i parent up
      have above := isAbove_of_parent? up
      rcases List.mem_cons.mp member with rfl | upper
      · exact ⟨Iff.rfl, List.prefix_rfl⟩
      · obtain ⟨start, cut⟩ := inductionHypothesis upper
        rw [above.names_eq] at cut
        exact ⟨start.trans above.isAbsolute_iff, cut.trans (List.dropLast_prefix _)⟩
    · rw [List.mem_singleton.mp member]
      exact ⟨Iff.rfl, List.prefix_rfl⟩

theorem find?_ancestors (path : String) (test : List String → Bool) (top found : List String) :
    ((ancestors path).map fun other => top ++ names other).find? test = some found ↔
      IsDeepest test top (top ++ names path) found :=
  find?_ancestorsFrom (Nat.lt_succ_self _) test top found

end Path

end LineScript
