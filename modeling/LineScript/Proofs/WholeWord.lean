/-
This file compares the replacement of aliases with a plainer one. The plain replacement cuts a
stretch into its maximal runs, of characters of a class and of characters outside it in turn, and
puts the target in place of every run of the class that is a key. The search for aliases knows
nothing of runs: it tries one place after the other, and at each place the keys in the order of the
table. The two agree wherever a key matches exactly if it stands as a whole run, as long as the
pattern of the table is built at all.

If the keys are made of word characters, this holds for the class of word characters, in every line.
Accepted settings promise the class of names instead. There the two agree if at each place where a
key is found, its characters and its neighbours belong to both classes or to none; a numeral or a
mark that is in one class alone, next to a key, breaks the promise.
-/

import LineScript.Proofs.Margin
import LineScript.Proofs.Table
import Mathlib.Data.List.SplitBy

namespace LineScript

open Text

/-! ### Runs -/

/-- A stretch cut into its maximal runs: characters of a class, and characters outside it. -/
def runs (holds : Char → Bool) (stretch : List Char) : List (List Char) :=
  stretch.splitBy fun first second => holds first == holds second

/-- What is put in place of a run: the target of the alias, if the run belongs to the class and is
a key. -/
def replaceRun (holds : Char → Bool) (aliases : Table String) (run : List Char) : List Char :=
  if run.all holds then ((aliases.get? (String.ofList run)).map String.toList).getD run else run

/-- A stretch with all its runs replaced at once. -/
def replaceRuns (holds : Char → Bool) (aliases : Table String) (stretch : List Char) : List Char :=
  (runs holds stretch).flatMap (replaceRun holds aliases)

/-- A piece of a line with the runs of its code replaced. -/
def Piece.replaceRuns (holds : Char → Bool) (aliases : Table String) : Piece → List Char
  | .code stretch => LineScript.replaceRuns holds aliases stretch
  | .literal chars => chars

/-- A line with the runs of its code replaced. -/
def replaceWhole (holds : Char → Bool) (aliases : Table String) (line : String) : String :=
  String.ofList ((piecesFrom .code line.toList).flatMap (Piece.replaceRuns holds aliases))

/-- Where one part of a stretch ends and the next begins, the class changes. -/
def Apart (holds : Char → Bool) (front tail : List Char) : Prop :=
  ∀ last ∈ front.getLast?, ∀ first ∈ tail.head?, (holds last == holds first) = false

section Runs

variable {holds : Char → Bool} {front run tail : List Char}

theorem runs_append (apart : Apart holds front tail) :
    runs holds (front ++ tail) = runs holds front ++ runs holds tail :=
  List.splitBy_append apart

theorem runs_of_alike {kind : Bool} (filled : run ≠ []) (alike : ∀ c ∈ run, holds c = kind) :
    runs holds run = [run] := by
  refine List.splitBy_of_isChain filled (List.Pairwise.isChain ?_)
  refine List.pairwise_of_forall_mem_list fun first inRun second alsoInRun => ?_
  rw [alike first inRun, alike second alsoInRun]
  exact beq_self_eq_true kind

/-- A stretch starts with a run, which ends where the class changes. -/
theorem exists_run (holds : Char → Bool) (c : Char) (rest : List Char) :
    ∃ more tail, rest = more ++ tail ∧ (∀ d ∈ c :: more, holds d = holds c) ∧
      ∀ d ∈ tail.head?, holds d = !holds c := by
  refine ⟨rest.takeWhile fun d => holds d == holds c, rest.dropWhile fun d => holds d == holds c,
    List.takeWhile_append_dropWhile.symm, List.forall_mem_cons.mpr ⟨rfl, fun d member => ?_⟩,
    fun d member => ?_⟩
  · have same := List.mem_takeWhile_imp member
    exact beq_iff_eq.mp same
  · have ends := List.head?_dropWhile_not (fun d => holds d == holds c) rest
    rw [member] at ends
    exact Bool.eq_not.mpr (ne_of_beq_false ends)

theorem replaceRuns_append (apart : Apart holds front tail) (aliases : Table String) :
    replaceRuns holds aliases (front ++ tail) =
      replaceRuns holds aliases front ++ replaceRuns holds aliases tail := by
  rw [replaceRuns, runs_append apart, List.flatMap_append]
  rfl

theorem replaceRuns_of_alike {kind : Bool} (filled : run ≠ [])
    (alike : ∀ c ∈ run, holds c = kind) (aliases : Table String) :
    replaceRuns holds aliases run = replaceRun holds aliases run := by
  rw [replaceRuns, runs_of_alike filled alike, List.flatMap_singleton]

end Runs

/-! ### Keys that stand as runs -/

/-- The key of an alias, between these neighbours, is a whole run of a class. -/
structure Alias.IsRun (candidate : Alias) (holds : Char → Bool) (before after : Option Char) :
    Prop where
  filled : candidate.key ≠ []
  inside : ∀ c ∈ candidate.key, holds c = true
  left : before.any holds = false
  right : after.any holds = false

/-- In a stretch, the aliases match exactly where their keys stand as whole runs. -/
def MatchRuns (holds : Char → Bool) (aliases : List Alias) (stretch : List Char) : Prop :=
  ∀ candidate ∈ aliases, ∀ front back, stretch = front ++ (candidate.key ++ back) →
    (candidate.matchesAt front.getLast? (candidate.key ++ back) = true ↔
      candidate.IsRun holds front.getLast? back.head?)

theorem Alias.prefix_of_matchesAt {candidate : Alias} {before : Option Char} {rest : List Char}
    (matched : candidate.matchesAt before rest = true) : candidate.key <+: rest := by
  simp only [Alias.matchesAt, Bool.and_eq_true] at matched
  exact List.isPrefixOf_iff_prefix.mp matched.1.1

/-- Two rows of characters of a class that start the same stretch and after which the class ends are
the same. -/
theorem eq_of_run {holds : Char → Bool} {first second back tail : List Char}
    (same : first ++ back = second ++ tail) (inFirst : ∀ c ∈ first, holds c = true)
    (inSecond : ∀ c ∈ second, holds c = true) (endsFirst : back.head?.any holds = false)
    (endsSecond : tail.head?.any holds = false) : first = second := by
  have taken : ∀ {run rest : List Char}, (∀ c ∈ run, holds c = true) →
      rest.head?.any holds = false → (run ++ rest).takeWhile holds = run := by
    intro run rest inside ends
    rw [List.takeWhile_append_of_pos inside]
    cases rest with
    | nil => rw [List.takeWhile_nil, List.append_nil]
    | cons c rest =>
      rw [List.head?_cons, Option.any_some] at ends
      rw [List.takeWhile_cons_of_neg (Bool.eq_false_iff.mp ends), List.append_nil]
  rw [← taken inFirst endsFirst, same, taken inSecond endsSecond]

/-- The first entry of a table under the characters of a key, as an alias. -/
theorem find?_key_eq (entries : List (String × String)) (run : List Char) :
    (entries.map fun entry => (⟨entry.1.toList, entry.2.toList⟩ : Alias)).find?
        (fun candidate => candidate.key == run) =
      (entries.lookup (String.ofList run)).map fun target => ⟨run, target.toList⟩ := by
  induction entries with
  | nil => rfl
  | cons entry rest inductionHypothesis =>
    obtain ⟨key, target⟩ := entry
    rw [List.map_cons, List.find?_cons, List.lookup_cons]
    by_cases same : key.toList = run
    · have named : String.ofList run = key := by rw [← same, String.ofList_toList]
      rw [same, named, beq_self_eq_true, beq_self_eq_true]
      rfl
    · have other : String.ofList run ≠ key := by
        rintro rfl
        exact same String.toList_ofList
      rw [beq_false_of_ne same, beq_false_of_ne other]
      exact inductionHypothesis

namespace MatchRuns

variable {holds : Char → Bool} {aliases : Table String} {front run tail : List Char}

/-- Where a run of the class starts, the alias that is found is the one for the whole run. -/
theorem findAlias?_run
    (matchRuns : MatchRuns holds (aliasList aliases) (front ++ (run ++ tail))) (filled : run ≠ [])
    (inside : ∀ c ∈ run, holds c = true) (left : front.getLast?.any holds = false)
    (right : tail.head?.any holds = false) :
    findAlias? (aliasList aliases) front.getLast? (run ++ tail) =
      (aliases.get? (String.ofList run)).map fun target => ⟨run, target.toList⟩ := by
  have exactly : ∀ candidate ∈ aliasList aliases,
      candidate.matchesAt front.getLast? (run ++ tail) = (candidate.key == run) := by
    intro candidate member
    rw [Bool.eq_iff_iff, beq_iff_eq]
    constructor
    · intro matched
      obtain ⟨back, same⟩ := Alias.prefix_of_matchesAt matched
      rw [← same] at matchRuns matched
      have stands := (matchRuns candidate member front back rfl).mp matched
      exact eq_of_run same stands.inside inside stands.right right
    · rintro rfl
      exact (matchRuns candidate member front tail rfl).mpr ⟨filled, inside, left, right⟩
  rw [findAlias?, List.find?_congr exactly]
  exact find?_key_eq aliases.entries run

/-- Behind the start of a run of the class, and in a run outside it, no alias is found. -/
theorem findAlias?_eq_none {rest : List Char}
    (matchRuns : MatchRuns holds (aliasList aliases) (front ++ rest))
    (apart : front.getLast?.any holds = true ∨ rest.head?.any holds = false) :
    findAlias? (aliasList aliases) front.getLast? rest = none := by
  refine List.find?_eq_none.mpr fun candidate member matched => ?_
  obtain ⟨back, rfl⟩ := Alias.prefix_of_matchesAt matched
  have stands := (matchRuns candidate member front back rfl).mp matched
  rcases apart with inRun | outside
  · rw [stands.left] at inRun
    cases inRun
  · obtain ⟨first, others, key⟩ := List.exists_cons_of_ne_nil stands.filled
    rw [key, List.cons_append, List.head?_cons, Option.any_some,
      stands.inside first (key ▸ List.mem_cons_self)] at outside
    cases outside

end MatchRuns

/-! ### The walk over the runs -/

/-- The characters of a match that was replaced are passed over. -/
theorem substituteFrom_skip (aliases : List Alias) (front more tail : List Char) :
    substituteFrom aliases more.length front.getLast? true (more ++ tail) =
      substituteFrom aliases 0 (front ++ more).getLast? true tail := by
  induction more generalizing front with
  | nil => rw [List.length_nil, List.nil_append, List.append_nil]
  | cons c more inductionHypothesis =>
    have later := inductionHypothesis (front ++ [c])
    rw [List.getLast?_concat, List.append_assoc] at later
    rw [List.length_cons, List.cons_append, substituteFrom]
    exact later

/-- Characters at which no alias is found are copied. -/
theorem substituteFrom_copy {aliases : List Alias} (front : List Char) {run tail : List Char}
    (quiet : ∀ before c after, run = before ++ c :: after →
      findAlias? aliases (front ++ before).getLast? (c :: (after ++ tail)) = none)
    (filled : run ≠ []) (ended : Bool) :
    substituteFrom aliases 0 front.getLast? ended (run ++ tail) =
      run ++ substituteFrom aliases 0 (front ++ run).getLast? false tail := by
  induction run generalizing front ended with
  | nil => exact absurd rfl filled
  | cons c run inductionHypothesis =>
    have first := quiet [] c run rfl
    rw [List.append_nil] at first
    rw [List.cons_append, substituteFrom, first]
    refine congrArg (c :: ·) ?_
    by_cases last : run = []
    · rw [last, List.getLast?_concat]
      rfl
    · have later := inductionHypothesis (front ++ [c])
        (fun before d after same => by
          rw [List.append_assoc]
          exact quiet (c :: before) d after (congrArg (c :: ·) same)) last false
      rw [List.getLast?_concat, List.append_assoc] at later
      exact later

namespace MatchRuns

variable {holds : Char → Bool} {aliases : Table String} {front run tail : List Char}

/-- A run of the class is replaced if it is a key, and copied if it is none. -/
theorem substituteFrom_inside
    (matchRuns : MatchRuns holds (aliasList aliases) (front ++ (run ++ tail))) (filled : run ≠ [])
    (inside : ∀ c ∈ run, holds c = true) (left : front.getLast?.any holds = false)
    (right : tail.head?.any holds = false) (ended : Bool) :
    ∃ after, substituteFrom (aliasList aliases) 0 front.getLast? ended (run ++ tail) =
      replaceRun holds aliases run ++
        substituteFrom (aliasList aliases) 0 (front ++ run).getLast? after tail := by
  have found := matchRuns.findAlias?_run filled inside left right
  rw [replaceRun, if_pos (List.all_eq_true.mpr inside)]
  cases key : aliases.get? (String.ofList run) with
  | none =>
    rw [key] at found
    refine ⟨false, substituteFrom_copy front (fun before c after same => ?_) filled ended⟩
    subst same
    by_cases start : before = []
    · rw [start, List.append_nil]
      rw [start] at found
      exact found
    · rw [List.append_assoc, ← List.append_assoc] at matchRuns
      refine matchRuns.findAlias?_eq_none (.inl ?_)
      rw [List.getLast?_append_of_ne_nil _ start, List.getLast?_eq_some_getLast start]
      exact inside _ (List.mem_append_left _ (List.getLast_mem start))
  | some target =>
    obtain ⟨c, more, rfl⟩ := List.exists_cons_of_ne_nil filled
    rw [key, Option.map_some, List.cons_append] at found
    have passed := substituteFrom_skip (aliasList aliases) (front ++ [c]) more tail
    rw [List.getLast?_concat, List.append_assoc] at passed
    refine ⟨true, ?_⟩
    rw [List.cons_append, substituteFrom, found]
    simp only [if_neg filled, List.length_cons, Nat.add_sub_cancel]
    rw [passed]
    rfl

/-- A run outside the class is copied. -/
theorem substituteFrom_outside
    (matchRuns : MatchRuns holds (aliasList aliases) (front ++ (run ++ tail))) (filled : run ≠ [])
    (outside : ∀ c ∈ run, holds c = false) (ended : Bool) :
    substituteFrom (aliasList aliases) 0 front.getLast? ended (run ++ tail) =
      replaceRun holds aliases run ++
        substituteFrom (aliasList aliases) 0 (front ++ run).getLast? false tail := by
  obtain ⟨first, others, same⟩ := List.exists_cons_of_ne_nil filled
  have notAll : run.all holds = false :=
    List.all_eq_false.mpr ⟨first, same ▸ List.mem_cons_self,
      Bool.eq_false_iff.mp (outside first (same ▸ List.mem_cons_self))⟩
  rw [replaceRun, notAll]
  refine substituteFrom_copy front (fun before c after cut => ?_) filled ended
  subst cut
  rw [List.append_assoc, ← List.append_assoc] at matchRuns
  exact matchRuns.findAlias?_eq_none
    (.inr (outside c (List.mem_append_right _ List.mem_cons_self)))

/-- The rest of a stretch, from where one run ends and the next begins, is replaced run by run. -/
theorem substituteFrom_eq (front rest : List Char)
    (matchRuns : MatchRuns holds (aliasList aliases) (front ++ rest))
    (apart : Apart holds front rest) (ended : Bool) :
    substituteFrom (aliasList aliases) 0 front.getLast? ended rest =
      replaceRuns holds aliases rest := by
  -- A run is taken as a whole, so the induction is on how many characters are left.
  induction size : rest.length using Nat.strongRecOn generalizing front rest ended with
  | ind size inductionHypothesis =>
    subst size
    cases rest with
    | nil =>
      rw [substituteFrom, matchRuns.findAlias?_eq_none (.inr rfl)]
      rfl
    | cons c rest =>
      obtain ⟨more, tail, rfl, alike, ends⟩ := exists_run holds c rest
      have filled : c :: more ≠ [] := List.cons_ne_nil c more
      have changes : Apart holds (c :: more) tail := by
        intro last inRun first behind
        rw [alike last (List.mem_of_getLast? inRun), ends first behind]
        exact Bool.beq_not_self _
      have changesBehind : Apart holds (front ++ c :: more) tail := by
        rw [Apart, List.getLast?_append_of_ne_nil _ filled]
        exact changes
      have shorter : tail.length < (c :: (more ++ tail)).length := by
        rw [List.length_cons, List.length_append]
        omega
      have later : ∀ after, substituteFrom (aliasList aliases) 0 (front ++ c :: more).getLast?
          after tail = replaceRuns holds aliases tail := fun after =>
        inductionHypothesis _ shorter (front ++ c :: more) tail
          (by rw [List.append_assoc]; exact matchRuns) changesBehind after rfl
      rw [← List.cons_append] at matchRuns ⊢
      rw [replaceRuns_append changes, replaceRuns_of_alike filled alike]
      cases kind : holds c with
      | true =>
        rw [kind] at alike ends
        have left : front.getLast?.any holds = false := by
          refine Bool.eq_false_iff.mpr fun inRun => ?_
          obtain ⟨last, isLast, member⟩ := Option.any_eq_true _ _ |>.mp inRun
          have differs := apart last isLast c rfl
          rw [member, kind] at differs
          cases differs
        have right : tail.head?.any holds = false := by
          refine Bool.eq_false_iff.mpr fun inRun => ?_
          obtain ⟨first, behind, member⟩ := Option.any_eq_true _ _ |>.mp inRun
          rw [ends first behind] at member
          cases member
        obtain ⟨after, replaced⟩ := matchRuns.substituteFrom_inside filled alike left right ended
        rw [replaced, later]
      | false =>
        rw [kind] at alike
        rw [matchRuns.substituteFrom_outside filled alike ended, later]

theorem substitute_eq {stretch : List Char}
    (matchRuns : MatchRuns holds (aliasList aliases) stretch) :
    substitute (aliasList aliases) stretch = replaceRuns holds aliases stretch :=
  matchRuns.substituteFrom_eq [] stretch nofun false

end MatchRuns

/-- A line is replaced run by run, if the aliases match whole runs in each of its stretches. -/
theorem applyAliases_eq_replaceWhole [PatternEngine] {holds : Char → Bool}
    {aliases : Table String} {line : String} (built : aliasRefusal? aliases = none)
    (matchRuns : ∀ stretch, .code stretch ∈ piecesFrom .code line.toList →
      MatchRuns holds (aliasList aliases) stretch) :
    applyAliases aliases line = replaceWhole holds aliases line := by
  have pieces : ∀ piece ∈ piecesFrom .code line.toList,
      piece.substitute (aliasList aliases) = piece.replaceRuns holds aliases := by
    intro piece member
    cases piece with
    | code stretch => exact (matchRuns stretch member).substitute_eq
    | literal chars => rfl
  rw [← String.toList_inj, toList_applyAliases_of_built built, aliased, List.flatMap_congr pieces,
    replaceWhole, String.toList_ofList]

/-! ### Keys made of word characters -/

/-- A key of word characters matches where neither neighbour is one. -/
theorem Alias.matchesAt_word {candidate : Alias} (filled : candidate.key ≠ [])
    (inside : ∀ c ∈ candidate.key, isWordChar c = true) (before : Option Char) (back : List Char) :
    candidate.matchesAt before (candidate.key ++ back) = true ↔
      candidate.IsRun isWordChar before back.head? := by
  have starts : candidate.key.isPrefixOf (candidate.key ++ back) = true :=
    List.isPrefixOf_iff_prefix.mpr (List.prefix_append _ _)
  have opens : isBoundary before (candidate.key ++ back).head? = !before.any isWordChar := by
    rw [List.head?_append_of_ne_nil _ filled, List.head?_eq_some_head filled, isBoundary,
      Option.any_some, inside _ (List.head_mem filled), Bool.bne_true]
  have closes : isBoundary (candidate.key.getLast?.or before) back.head? =
      !back.head?.any isWordChar := by
    rw [List.getLast?_eq_some_getLast filled, Option.some_or, isBoundary, Option.any_some,
      inside _ (List.getLast_mem filled), Bool.true_bne]
  rw [matchesAt, starts, opens, List.drop_left, closes, Bool.true_and, Bool.and_eq_true,
    Bool.not_eq_true', Bool.not_eq_true']
  exact ⟨fun ends => ⟨filled, inside, ends.1, ends.2⟩, fun stands => ⟨stands.left, stands.right⟩⟩

theorem matchRuns_words {aliases : Table String}
    (words : ∀ entry ∈ aliases.entries, entry.1 ≠ "" ∧ entry.1.toList.all isWordChar = true)
    (stretch : List Char) : MatchRuns isWordChar (aliasList aliases) stretch := by
  intro candidate member front back _
  obtain ⟨entry, inTable, rfl⟩ := List.mem_map.mp member
  obtain ⟨filled, inside⟩ := words entry inTable
  exact Alias.matchesAt_word (toList_ne_nil filled) (List.all_eq_true.mp inside) _ back

/-- A run of the class and its neighbours are parts of their own. -/
theorem replaceRuns_around {holds : Char → Bool} {front run back : List Char} (filled : run ≠ [])
    (inside : ∀ c ∈ run, holds c = true) (left : front.getLast?.any holds = false)
    (right : back.head?.any holds = false) (aliases : Table String) :
    replaceRuns holds aliases (front ++ (run ++ back)) =
      replaceRuns holds aliases front ++
        (replaceRun holds aliases run ++ replaceRuns holds aliases back) := by
  have opens : Apart holds front (run ++ back) := by
    intro last isLast first isFirst
    rw [isLast, Option.any_some] at left
    rw [List.head?_append_of_ne_nil _ filled] at isFirst
    rw [left, inside first (List.mem_of_head? isFirst)]
    rfl
  have closes : Apart holds run back := by
    intro last isLast first isFirst
    rw [isFirst, Option.any_some] at right
    rw [right, inside last (List.mem_of_getLast? isLast)]
    rfl
  rw [replaceRuns_append opens, replaceRuns_append closes, replaceRuns_of_alike filled inside]

/-- The order of a table does not matter to the plain replacement. -/
theorem replaceWhole_of_perm (holds : Char → Bool) {aliases other : Table String}
    (same : other.entries.Perm aliases.entries) (line : String) :
    replaceWhole holds other line = replaceWhole holds aliases line := by
  have run : replaceRun holds other = replaceRun holds aliases := by
    funext run
    rw [replaceRun, Table.get?_of_perm same, replaceRun]
  have piece : Piece.replaceRuns holds other = Piece.replaceRuns holds aliases := by
    funext piece
    cases piece with
    | code stretch => rw [Piece.replaceRuns, replaceRuns, run, Piece.replaceRuns, replaceRuns]
    | literal chars => rfl
  rw [replaceWhole, piece, replaceWhole]

/-- If the pattern of a table is built and its keys are made of word characters, the aliases are
replaced as whole words, all at once. The order of the table does not matter, as long as the pattern
is built, and what is put in place of a word is not looked at again. -/
theorem applyAliases_whole_words [PatternEngine] {aliases : Table String}
    (built : aliasRefusal? aliases = none)
    (words : ∀ entry ∈ aliases.entries, entry.1 ≠ "" ∧ entry.1.toList.all isWordChar = true)
    (line : String) :
    applyAliases aliases line = replaceWhole isWordChar aliases line ∧
      (∀ other : Table String, other.entries.Perm aliases.entries → aliasRefusal? other = none →
        applyAliases other line = applyAliases aliases line) ∧
      ∀ (front back : List Char) (key target : String), aliases.get? key = some target →
        front.getLast?.any isWordChar = false → back.head?.any isWordChar = false →
        substitute (aliasList aliases) (front ++ (key.toList ++ back)) =
          substitute (aliasList aliases) front ++
            (target.toList ++ substitute (aliasList aliases) back) := by
  have whole : ∀ {table : Table String}, table.entries.Perm aliases.entries →
      aliasRefusal? table = none →
      applyAliases table line = replaceWhole isWordChar table line := fun same built =>
    applyAliases_eq_replaceWhole built fun stretch _ =>
      matchRuns_words (fun entry member => words entry (same.mem_iff.mp member)) stretch
  refine ⟨whole (.refl _) built, fun other same otherBuilt => ?_,
    fun front back key target stands left right => ?_⟩
  · rw [whole same otherBuilt, whole (.refl _) built, replaceWhole_of_perm isWordChar same]
  · obtain ⟨filled, inside⟩ := words _ (Table.get?_eq_some_iff.mp stands)
    have replaced : replaceRun isWordChar aliases key.toList = target.toList := by
      rw [replaceRun, if_pos inside, String.ofList_toList, stands]
      rfl
    have runByRun (stretch : List Char) :
        substitute (aliasList aliases) stretch = replaceRuns isWordChar aliases stretch :=
      (matchRuns_words words stretch).substitute_eq
    rw [runByRun, runByRun, runByRun,
      replaceRuns_around (toList_ne_nil filled) (List.all_eq_true.mp inside) left right, replaced]

/-- Aliases of which two are swapped, and of which some start with the key of another. -/
def swappedAliases : Table String :=
  .ofList [("a", "b"), ("b", "a"), ("ab", "été"), ("été", "ab_1"), ("ab_1", "a")]

theorem applyAliases_swappedAliases :
    aliasRefusal? swappedAliases = none ∧
      (∀ entry ∈ swappedAliases.entries, entry.1 ≠ "" ∧ entry.1.toList.all isWordChar = true) ∧
      replaceWhole isWordChar swappedAliases "b a+ab(ab_1) 'ab' abc été" =
        "a b+été(a) 'ab' abc ab_1" ∧
      applyAliases swappedAliases "b a+ab(ab_1) 'ab' abc été" = "a b+été(a) 'ab' abc ab_1" := by
  have words : ∀ entry ∈ swappedAliases.entries,
      entry.1 ≠ "" ∧ entry.1.toList.all isWordChar = true := by decide +kernel
  have plain : replaceWhole isWordChar swappedAliases "b a+ab(ab_1) 'ab' abc été" =
      "a b+été(a) 'ab' abc ab_1" := by decide +kernel
  have built : aliasRefusal? swappedAliases = none := by decide +kernel
  exact ⟨built, words, plain, (applyAliases_whole_words built words _).1.trans plain⟩

/-! ### Names -/

/-- Whether names and words are made of the same characters in a key that is found at the start of
`rest`, and right before and after it. -/
def Alias.clearAt (candidate : Alias) (before : Option Char) (rest : List Char) : Bool :=
  !candidate.key.isPrefixOf rest ||
    (before.toList ++ rest.take (candidate.key.length + 1)).all fun c =>
      isNameChar c == isWordChar c

/-- Whether this is so at every place of a stretch, and for every key. -/
def keysClear (aliases : List Alias) : (before : Option Char) → List Char → Bool
  | _, [] => true
  | before, c :: rest =>
    (aliases.all fun candidate => candidate.clearAt before (c :: rest)) &&
      keysClear aliases (some c) rest

theorem clearAt_of_keysClear {aliases : List Alias} (front : List Char) {middle rest : List Char}
    (clear : keysClear aliases front.getLast? (middle ++ rest) = true) (filled : rest ≠ [])
    {candidate : Alias} (member : candidate ∈ aliases) :
    candidate.clearAt (front ++ middle).getLast? rest = true := by
  induction middle generalizing front with
  | nil =>
    obtain ⟨c, others, rfl⟩ := List.exists_cons_of_ne_nil filled
    rw [List.nil_append, keysClear, Bool.and_eq_true] at clear
    rw [List.append_nil]
    exact List.all_eq_true.mp clear.1 candidate member
  | cons c middle inductionHypothesis =>
    rw [List.cons_append, keysClear, Bool.and_eq_true] at clear
    have later := inductionHypothesis (front ++ [c]) (by rw [List.getLast?_concat]; exact clear.2)
    rw [List.append_assoc] at later
    exact later

/-- Under accepted settings, a key that stands clear matches where it is a whole name. -/
theorem matchRuns_names {settings : Settings} (accepted : settings.validate = .ok settings)
    {stretch : List Char}
    (clear : keysClear (aliasList settings.aliases) none stretch = true) :
    MatchRuns isNameChar (aliasList settings.aliases) stretch := by
  rintro candidate member front back rfl
  have filled := (forWord_of_validate accepted candidate member).filled
  have names : ∀ c ∈ candidate.key, isNameChar c = true := by
    obtain ⟨entry, inTable, rfl⟩ := List.mem_map.mp member
    have pair := (Bool.and_eq_true _ _).mp (isWordPair_of_validate accepted inTable)
    exact fun c => isNameChar_of_mem_isName pair.1
  have agree : ∀ c, c ∈ front.getLast? ∨ c ∈ candidate.key ∨ c ∈ back.head? →
      isNameChar c = isWordChar c := by
    have here := clearAt_of_keysClear [] clear (List.append_ne_nil_of_left_ne_nil filled _) member
    have found : candidate.key.isPrefixOf (candidate.key ++ back) = true :=
      List.isPrefixOf_iff_prefix.mpr (List.prefix_append _ _)
    rw [Alias.clearAt, found, Bool.not_true, Bool.false_or, List.nil_append,
      List.take_length_add_append] at here
    intro c near
    refine beq_iff_eq.mp (List.all_eq_true.mp here c ?_)
    rw [List.mem_append, List.mem_append, Option.mem_toList]
    refine near.imp_right (Or.imp_right fun next => ?_)
    obtain ⟨others, rfl⟩ := List.head?_eq_some_iff.mp next
    exact List.mem_cons_self
  have words : ∀ c ∈ candidate.key, isWordChar c = true := fun c inKey =>
    (agree c (.inr (.inl inKey))).symm.trans (names c inKey)
  have sides : ∀ side : Option Char, (∀ c ∈ side, isNameChar c = isWordChar c) →
      side.any isWordChar = side.any isNameChar := by
    rintro (_ | c) same
    · rfl
    · exact (same c rfl).symm
  have left := sides front.getLast? fun c isLast => agree c (.inl isLast)
  have right := sides back.head? fun c isFirst => agree c (.inr (.inr isFirst))
  rw [Alias.matchesAt_word filled words]
  exact ⟨fun stands => ⟨filled, names, left ▸ stands.left, right ▸ stands.right⟩,
    fun stands => ⟨filled, words, left.trans stands.left, right.trans stands.right⟩⟩

/-- Under accepted settings whose pattern is built, aliases are replaced as whole names: a name that
is a key becomes the target, a longer name stays as it is, and everything else is copied. This needs
that wherever a key is found in the code of a line, names and words are made of the same characters
there. -/
theorem applyAliases_whole_names [PatternEngine] {settings : Settings}
    (accepted : settings.validate = .ok settings)
    (built : aliasRefusal? settings.aliases = none) {line : String}
    (clear : ∀ stretch, .code stretch ∈ piecesFrom .code line.toList →
      keysClear (aliasList settings.aliases) none stretch = true) :
    applyAliases settings.aliases line = replaceWhole isNameChar settings.aliases line :=
  applyAliases_eq_replaceWhole built fun stretch member =>
    matchRuns_names accepted (clear stretch member)

/-- A name with a numeral that is in no word stands in the line, but not next to a key. -/
theorem applyAliases_letter :
    Settings.standard.validate = .ok .standard ∧
      aliasRefusal? Settings.standard.aliases = none ∧
      (∀ stretch, .code stretch ∈ piecesFrom .code "let x² = letter + 'let' + print.let".toList →
        keysClear (aliasList Settings.standard.aliases) none stretch = true) ∧
      replaceWhole isNameChar Settings.standard.aliases "let x² = letter + 'let' + print.let" =
        "set x² = letter + 'let' + show.set" ∧
      applyAliases Settings.standard.aliases "let x² = letter + 'let' + print.let" =
        "set x² = letter + 'let' + show.set" := by
  have pieces : piecesFrom .code "let x² = letter + 'let' + print.let".toList =
      [.code "let x² = letter + ".toList, .literal "'let'".toList,
        .code " + print.let".toList] := by
    decide +kernel
  have clear : ∀ stretch,
      .code stretch ∈ piecesFrom .code "let x² = letter + 'let' + print.let".toList →
        keysClear (aliasList Settings.standard.aliases) none stretch = true := by
    intro stretch member
    rw [pieces] at member
    simp only [List.mem_cons, Piece.code.injEq, reduceCtorEq, List.not_mem_nil, or_false,
      false_or] at member
    rcases member with rfl | rfl <;> decide +kernel
  have plain : replaceWhole isNameChar Settings.standard.aliases
      "let x² = letter + 'let' + print.let" = "set x² = letter + 'let' + show.set" := by
    decide +kernel
  have accepted : Settings.standard.validate = .ok .standard := rfl
  have built : aliasRefusal? Settings.standard.aliases = none := by decide +kernel
  exact ⟨accepted, built, clear, plain,
    (applyAliases_whole_names accepted built clear).trans plain⟩

/-- Next to a key, the two kinds of characters matter. In the first line a key is replaced although
it is a part of a longer name, which goes on with a numeral that is in no word. In the second it is
not replaced although it is a whole name, because a mark that is in no name follows. -/
theorem alias_within_name :
    Settings.standard.validate = .ok .standard ∧
      isName "let²" = true ∧
      applyAliases Settings.standard.aliases "let² = 1" = "set² = 1" ∧
      replaceWhole isNameChar Settings.standard.aliases "let² = 1" = "let² = 1" ∧
      applyAliases Settings.standard.aliases "let\u0301" = "let\u0301" ∧
      replaceWhole isNameChar Settings.standard.aliases "let\u0301" = "set\u0301" := by
  refine ⟨rfl, ?_⟩
  decide +kernel

end LineScript
