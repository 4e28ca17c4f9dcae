/-
This file proves which settings file a command line finds for a script. The search goes up from the
directory of the script as far as the path of the script names directories. Along a path without
`..` every directory on the way is entered, so whether a candidate is there depends on the place
alone and not on how the path is written: of two paths that start at the root, or of two that start
in the working directory, each finds what the other finds, the nearest file.

A path that starts at the root is searched up to the root. A relative path is searched up to the
working directory only. So the two agree unless the nearest file is above the working directory,
where the relative path finds nothing.
-/

import LineScript.Command.Run
import LineScript.Proofs.Ancestry
import LineScript.Proofs.Monad

namespace LineScript

open LineScript.Path

namespace FileTree

variable {tree : FileTree}

/-! ### Walks through directories -/

/-- The place that a path starts from. -/
def origin (tree : FileTree) (path : String) : List String :=
  if isAbsolute path then [] else tree.directory

/-- The place that some parts of a path lead to. -/
def walk (tree : FileTree) (start : List String) (parts : List (List Char)) :
    Except PathError (List String) :=
  parts.foldlM (fun location part => tree.step location (String.ofList part)) start

theorem locate_eq_walk {path : String} (filled : path ≠ "") :
    tree.locate path = tree.walk (tree.origin path) (parts path.toList) := by
  unfold locate
  simp only
  rw [if_neg filled, walk, origin]
  by_cases root : path.toList.head? = some '/'
  · rw [if_pos root, if_pos (isAbsolute_iff.mpr root)]
  · rw [if_neg root, if_neg (mt isAbsolute_iff.mp root)]

theorem walk_cons (start : List String) (part : List Char) (others : List (List Char)) :
    tree.walk start (part :: others) =
      tree.step start (String.ofList part) >>= fun next => tree.walk next others := by
  rw [walk, List.foldlM_cons]
  rfl

theorem walk_append (start : List String) (first second : List (List Char)) :
    tree.walk start (first ++ second) =
      tree.walk start first >>= fun next => tree.walk next second :=
  List.foldlM_append

/-- A part that is no name leads nowhere else. -/
theorem step_of_not_name {location : List String} (isOpen : tree.isDirectory location = true)
    {part : List Char} (plain : isNamePart part = false) :
    tree.step location (String.ofList part) = .ok location := by
  have blank : String.ofList part = "" ∨ String.ofList part = "." := by
    simp only [isNamePart, Bool.and_eq_false_iff, bne_eq_false_iff_eq] at plain
    rcases plain with rfl | rfl
    · exact .inl rfl
    · exact .inr rfl
  unfold step
  rw [isOpen, if_neg (by simp), if_pos blank]

/-- A name leads into a directory, or to a file. -/
theorem step_of_name {location : List String} (isOpen : tree.isDirectory location = true)
    {part : List Char} (named : isNamePart part = true) (down : String.ofList part ≠ "..") :
    tree.step location (String.ofList part) =
      if tree.isDirectory (location ++ [String.ofList part]) ||
          (tree.file? (location ++ [String.ofList part])).isSome then
        .ok (location ++ [String.ofList part])
      else .error .notFound := by
  have filled : ¬ (String.ofList part = "" ∨ String.ofList part = ".") := by
    obtain ⟨notEmpty, notPoint⟩ := Bool.and_eq_true_iff.mp named
    rintro (empty | point)
    · exact bne_iff_ne.mp notEmpty (String.ofList_injective empty)
    · exact bne_iff_ne.mp notPoint (String.ofList_injective point)
  unfold step
  rw [isOpen, if_neg (by simp), if_neg filled, if_neg down]

theorem isDirectory_of_step {location next : List String} {part : String}
    (stepped : tree.step location part = .ok next) : tree.isDirectory location = true := by
  unfold step at stepped
  split at stepped
  · cases stepped
  · rename_i isOpen
    simpa using isOpen

/-- All places from one down to another are directories. -/
def Entered (tree : FileTree) (start place : List String) : Prop :=
  ∀ between, start <+: between → between <+: place → tree.isDirectory between = true

theorem Entered.mono {start upper place : List String} (entered : tree.Entered start place)
    (cut : upper <+: place) : tree.Entered start upper :=
  fun between lower before => entered between lower (before.trans cut)

/-- Through directories that are all there, a walk arrives at its names. -/
theorem walk_of_entered {start : List String} {parts : List (List Char)}
    (down : ".." ∉ namesOf parts) (entered : tree.Entered start (start ++ namesOf parts)) :
    tree.walk start parts = .ok (start ++ namesOf parts) := by
  induction parts generalizing start with
  | nil => exact congrArg Except.ok (List.append_nil start).symm
  | cons part others inductionHypothesis =>
    have isOpen := entered start List.prefix_rfl (List.prefix_append _ _)
    rw [walk_cons]
    cases named : isNamePart part with
    | false =>
      rw [namesOf_cons_of_not_name named] at down entered ⊢
      rw [step_of_not_name isOpen named]
      exact inductionHypothesis down entered
    | true =>
      rw [namesOf_cons_of_name named, List.mem_cons, not_or] at down
      rw [namesOf_cons_of_name named, List.append_cons] at entered ⊢
      rw [step_of_name isOpen named (Ne.symm down.1),
        if_pos (Bool.or_eq_true_iff.mpr (.inl (entered _ (List.prefix_append _ _)
          (List.prefix_append _ _))))]
      exact inductionHypothesis down.2 fun place lower upper =>
        entered place ((List.prefix_append _ _).trans lower) upper

/-- A walk that arrives has entered every directory on its way. -/
theorem entered_of_walk {start location : List String} {parts : List (List Char)}
    (down : ".." ∉ namesOf parts) (walked : tree.walk start parts = .ok location) :
    location = start ++ namesOf parts ∧ ∀ between, start <+: between → between <+: location →
      between ≠ location → tree.isDirectory between = true := by
  induction parts generalizing start with
  | nil =>
    cases walked
    exact ⟨(List.append_nil location).symm, fun place lower upper other =>
      absurd (upper.eq_of_length_le lower.length_le) other⟩
  | cons part others inductionHypothesis =>
    rw [walk_cons] at walked
    obtain ⟨next, stepped, walked⟩ := except_bind_eq_ok.mp walked
    have isOpen := isDirectory_of_step stepped
    cases named : isNamePart part with
    | false =>
      rw [step_of_not_name isOpen named] at stepped
      cases stepped
      rw [namesOf_cons_of_not_name named] at down ⊢
      exact inductionHypothesis down walked
    | true =>
      rw [namesOf_cons_of_name named, List.mem_cons, not_or] at down
      rw [step_of_name isOpen named (Ne.symm down.1)] at stepped
      split at stepped
      · cases stepped
        obtain ⟨rfl, entered⟩ := inductionHypothesis down.2 walked
        refine ⟨?_, fun place lower upper other => ?_⟩
        · rw [namesOf_cons_of_name named]
          exact (List.append_cons _ _ _).symm
        · -- A place below the start is the start, or it is below the first name.
          by_cases first : start = place
          · exact first ▸ isOpen
          · refine entered place ?_ upper other
            refine List.prefix_of_prefix_length_le (List.prefix_append _ _) upper ?_
            have longer : start.length < place.length :=
              Nat.lt_of_le_of_ne lower.length_le fun same => first (lower.eq_of_length same)
            rw [List.length_append]
            exact longer
      · cases stepped

/-! ### Candidates -/

/-- Whether a directory holds a settings file. -/
def holdsSettings (tree : FileTree) (directory : List String) : Bool :=
  (tree.file? (directory ++ [settingsFile])).isSome

/-- The parts of a name in a directory are those of the directory, up to slashes at their end, and
the name. -/
theorem parts_join (directory : String) :
    ∃ before, parts (join directory settingsFile).toList = before ++ [settingsFile.toList] ∧
      namesOf before = names directory := by
  have whole : parts settingsFile.toList = [settingsFile.toList] := parts_of_no_slash (by decide)
  unfold join
  split
  · rename_i empty
    refine ⟨[], whole, ?_⟩
    rw [names, List.getLast?_eq_none_iff.mp empty]
    rfl
  · rename_i slash
    obtain ⟨front, same⟩ := List.getLast?_eq_some_iff.mp slash
    refine ⟨parts front, ?_, ?_⟩
    · rw [String.toList_append, same, List.append_assoc, List.singleton_append,
        parts_append_slash, whole]
    · rw [names, same, namesOf_append_slash]
      exact (List.append_nil _).symm
  · refine ⟨parts directory.toList, ?_, rfl⟩
    rw [String.toList_append, String.toList_append, List.append_assoc]
    exact (parts_append_slash _ _).trans (congrArg _ whole)

/-- A candidate starts where its directory starts. -/
theorem origin_join (directory : String) :
    tree.origin (join directory settingsFile) = tree.origin directory := by
  have same : isAbsolute (join directory settingsFile) = isAbsolute directory := by
    unfold isAbsolute join
    split
    · rename_i empty
      rw [List.getLast?_eq_none_iff.mp empty]
      rfl
    · rename_i last
      obtain ⟨front, ends⟩ := List.getLast?_eq_some_iff.mp last
      rw [String.toList_append, ends]
      cases front <;> rfl
    · rename_i last
      obtain ⟨front, ends⟩ := List.getLast?_eq_some_iff.mp last
      rw [String.toList_append, String.toList_append, ends]
      cases front <;> rfl
  rw [origin, origin, same]

theorem join_ne_empty (directory : String) : join directory settingsFile ≠ "" := by
  obtain ⟨before, same, -⟩ := parts_join directory
  intro empty
  rw [empty] at same
  have last := congrArg List.getLast? same
  rw [List.getLast?_concat] at last
  exact absurd last (by decide)

/-- Where the directories on the way are all there, a candidate is there if the place holds it. -/
theorem candidate_of_entered {directory : String} (down : ".." ∉ names directory)
    (entered : tree.Entered (tree.origin directory) (tree.origin directory ++ names directory)) :
    tree.isFile (join directory settingsFile) =
        tree.holdsSettings (tree.origin directory ++ names directory) ∧
      (tree.holdsSettings (tree.origin directory ++ names directory) = true →
        tree.locate (join directory settingsFile) =
          .ok (tree.origin directory ++ names directory ++ [settingsFile])) := by
  obtain ⟨before, same, named⟩ := parts_join directory
  have isOpen := entered _ (List.prefix_append _ _) List.prefix_rfl
  rw [← named] at down entered isOpen ⊢
  have located : tree.locate (join directory settingsFile) =
      if tree.isDirectory (tree.origin directory ++ namesOf before ++ [settingsFile]) ||
          tree.holdsSettings (tree.origin directory ++ namesOf before) then
        .ok (tree.origin directory ++ namesOf before ++ [settingsFile])
      else .error .notFound := by
    rw [locate_eq_walk (join_ne_empty directory), same, origin_join, walk_append,
      walk_of_entered down entered]
    show tree.walk (tree.origin directory ++ namesOf before) [settingsFile.toList] = _
    rw [walk_cons, step_of_name isOpen (by decide) (by decide)]
    simp only [String.ofList_toList, holdsSettings]
    exact bind_pure _
  constructor
  · rw [isFile, located]
    by_cases there :
        (tree.isDirectory (tree.origin directory ++ namesOf before ++ [settingsFile]) ||
          tree.holdsSettings (tree.origin directory ++ namesOf before)) = true
    · rw [if_pos there]
      rfl
    · rw [if_neg there]
      exact (Bool.or_eq_false_iff.mp (Bool.eq_false_iff.mpr there)).2.symm
  · intro holds
    rw [located, holds, Bool.or_true, if_pos rfl]

/-! ### The search -/

theorem firstFile?_eq_find? (paths : List String) :
    tree.files.firstFile? paths = paths.find? tree.isFile := by
  induction paths with
  | nil => rfl
  | cons path rest inductionHypothesis =>
    rw [Files.firstFile?, List.find?_cons, inductionHypothesis]
    show (if tree.isFile path = true then some path else rest.find? tree.isFile) = _
    cases tree.isFile path <;> rfl

/-- The place of the file that a search for settings finds, if it finds one. -/
def foundFrom (tree : FileTree) (directory : String) : Option (List String) :=
  Option.bind (tree.files.discover directory) fun path => (tree.locate path).toOption

/-- Among ancestors of a directory that can be entered, the first candidate that is there is that of
the first place that holds one. -/
theorem bind_find?_candidates {directory : String} (down : ".." ∉ names directory)
    (entered : tree.Entered (tree.origin directory) (tree.origin directory ++ names directory))
    {upper : List String} (known : ∀ ancestor ∈ upper,
      tree.origin ancestor = tree.origin directory ∧ names ancestor <+: names directory) :
    ((upper.map fun ancestor => join ancestor settingsFile).find? tree.isFile).bind
        (fun path => (tree.locate path).toOption) =
      ((upper.map fun ancestor => tree.origin directory ++ names ancestor).find?
        tree.holdsSettings).map (· ++ [settingsFile]) := by
  induction upper with
  | nil => rfl
  | cons ancestor others inductionHypothesis =>
    obtain ⟨⟨start, cut⟩, rest⟩ := List.forall_mem_cons.mp known
    have enteredAbove :
        tree.Entered (tree.origin ancestor) (tree.origin ancestor ++ names ancestor) := by
      rw [start]
      exact entered.mono ((List.prefix_append_right_inj _).mpr cut)
    obtain ⟨there, located⟩ :=
      candidate_of_entered (fun member => down (cut.subset member)) enteredAbove
    rw [start] at there located
    rw [List.map_cons, List.map_cons, List.find?_cons, List.find?_cons, there]
    cases holds : tree.holdsSettings (tree.origin directory ++ names ancestor) with
    | true =>
      show (tree.locate (join ancestor settingsFile)).toOption = _
      rw [located holds]
      rfl
    | false => exact inductionHypothesis rest

/-- A search from a directory finds the file of the deepest place that holds one, from the directory
up to where its path starts. -/
theorem foundFrom_eq_some_iff {directory : String} (down : ".." ∉ names directory)
    (entered : tree.Entered (tree.origin directory) (tree.origin directory ++ names directory))
    {place : List String} :
    tree.foundFrom directory = some place ↔
      ∃ holder, IsDeepest tree.holdsSettings (tree.origin directory)
        (tree.origin directory ++ names directory) holder ∧ place = holder ++ [settingsFile] := by
  have known : ∀ ancestor ∈ ancestors directory, tree.origin ancestor = tree.origin directory ∧
      names ancestor <+: names directory := by
    intro ancestor member
    obtain ⟨start, cut⟩ := of_mem_ancestorsFrom member
    refine ⟨?_, cut⟩
    simp only [origin, start]
  rw [foundFrom, Files.discover, firstFile?_eq_find?, bind_find?_candidates down entered known,
    Option.map_eq_some_iff]
  constructor
  · rintro ⟨holder, first, rfl⟩
    exact ⟨holder, (find?_ancestors _ _ _ _).mp first, rfl⟩
  · rintro ⟨holder, deepest, rfl⟩
    exact ⟨holder, (find?_ancestors _ _ _ _).mpr deepest, rfl⟩

/-! ### Command lines -/

/-- The settings in the bytes of a file. -/
def settingsOfBytes (bytes : ByteArray) : Except SettingsError Settings :=
  match String.fromUTF8? bytes with
  | none => .error (.unreadable "stream did not contain valid UTF-8")
  | some text => parseSettings text

/-- The settings in the file at a place, or the standard ones without such a place. -/
def settingsIn (tree : FileTree) (place? : Option (List String)) :
    Except SettingsError Settings :=
  match place?.bind tree.file? with
  | none => .ok .standard
  | some bytes => settingsOfBytes bytes

theorem isFile_of_discover {directory path : String}
    (found : tree.files.discover directory = some path) :
    ∃ place bytes, tree.locate path = .ok place ∧ tree.file? place = some bytes := by
  rw [Files.discover, firstFile?_eq_find?] at found
  have there := List.find?_some found
  unfold isFile at there
  split at there
  · cases there
  · rename_i place located
    obtain ⟨bytes, same⟩ := Option.isSome_iff_exists.mp there
    exact ⟨place, bytes, located, same⟩

theorem loadSettings_of_file {path : String} {place : List String} {bytes : ByteArray}
    (located : tree.locate path = .ok place) (there : tree.file? place = some bytes) :
    Logged.value (tree.files.loadSettings path) = settingsOfBytes bytes := by
  have bytesRead : tree.files.read path = .ok bytes := by
    show tree.read path = .ok bytes
    simp only [FileTree.read, located, there]
  -- in memory an answer comes at once, so each step is an application
  have atOnce : ∀ {α β : Type} (first : Id α) (next : α → Id β), (first >>= next) = next first :=
    fun _ _ => rfl
  rw [Files.loadSettings, Files.readText, settingsOfBytes, bytesRead, atOnce, atOnce]
  cases decoded : String.fromUTF8? bytes with
  | none =>
    simp only [decoded]
    rfl
  | some text =>
    simp only [decoded]
    cases parsed : parseSettings text with
    | error error =>
      simp only [pure, parsed]
    | ok settings =>
      simp only [pure, parsed]

/-- The place of the settings file that a command line finds, if it finds one. -/
def settingsPlace? (tree : FileTree) (workingDirectory : String) (options : Options) :
    Option (List String) :=
  tree.foundFrom (options.task.searchDirectory workingDirectory)

/-- A command line without a settings file of its own takes its settings from the place that the
search finds. -/
theorem settings_eq_settingsIn {options : Options} (unset : options.settingsPath = none)
    (workingDirectory : String) :
    options.settings tree.files workingDirectory =
      (tree.settingsIn (tree.settingsPlace? workingDirectory options)).map fun settings =>
        { settings with strict := settings.strict || options.strict } := by
  unfold Options.settings settingsPlace? foundFrom
  rw [unset]
  cases same : tree.files.discover (options.task.searchDirectory workingDirectory) with
  | none => rfl
  | some path =>
    obtain ⟨place, bytes, located, there⟩ := isFile_of_discover same
    show Except.map _ (tree.files.loadSettings path).value = _
    rw [loadSettings_of_file located there]
    simp only [Option.bind_some, settingsIn, located, Except.toOption, there]

/-- A command line runs the script at a place, by a path without `..`, and leaves the settings to
the search. -/
structure Runs (tree : FileTree) (arguments : List String) (options : Options) (path : String)
    (script : List String) : Prop where
  read : readArguments .initial arguments = .run options
  asked : options.task = .script path
  unset : options.settingsPath = none
  down : ".." ∉ names path
  located : tree.locate path = .ok script
  isFile : (tree.file? script).isSome = true

namespace Runs

variable {arguments : List String} {options : Options} {path : String} {script : List String}
  (runs : tree.Runs arguments options path script)

include runs

theorem walked : tree.walk (tree.origin path) (parts path.toList) = .ok script := by
  have filled : path ≠ "" := by
    rintro rfl
    cases runs.located
  rw [← locate_eq_walk filled]
  exact runs.located

theorem not_isDirectory : tree.isDirectory script = false := by
  rw [isDirectory, Option.isNone_eq_false_iff.mpr runs.isFile, Bool.false_and]

/-- The script is where the names of its path lead from where the path starts, and every directory
above it was entered. -/
theorem entered :
    script = tree.origin path ++ names path ∧ ∀ place, tree.origin path <+: place →
      place <+: script → place ≠ script → tree.isDirectory place = true :=
  entered_of_walk runs.down runs.walked

theorem names_ne_nil : names path ≠ [] := by
  intro none
  obtain ⟨same, -⟩ := runs.entered
  rw [none, List.append_nil] at same
  obtain ⟨part, others, split⟩ := List.exists_cons_of_ne_nil (parts_ne_nil path.toList)
  have walked := runs.walked
  rw [split, walk_cons] at walked
  obtain ⟨next, stepped, -⟩ := except_bind_eq_ok.mp walked
  have isOpen := isDirectory_of_step stepped
  rw [← same, runs.not_isDirectory] at isOpen
  cases isOpen

/-- The path of a script has a parent, which leads to the directory of the script. -/
theorem exists_parent :
    ∃ parent, parent? path = some parent ∧ tree.origin parent = tree.origin path ∧
      names parent = (names path).dropLast ∧
      tree.origin path ++ names parent = script.dropLast := by
  obtain ⟨same, -⟩ := runs.entered
  cases up : parent? path with
  | none => exact absurd (names_eq_nil_of_parent? up) runs.names_ne_nil
  | some parent =>
    have above := isAbove_of_parent? up
    refine ⟨parent, rfl, ?_, above.names_eq, ?_⟩
    · simp only [origin, above.isAbsolute_iff]
    · rw [above.names_eq, same, List.dropLast_append_of_ne_nil runs.names_ne_nil]

end Runs

/-- The settings of a script are those of the deepest place that holds some, from the directory of
the script up to where its path starts. -/
theorem settingsPlace?_of_runs {arguments : List String} {options : Options} {path : String}
    {script : List String} (runs : tree.Runs arguments options path script)
    (workingDirectory : String) {place : List String} :
    tree.settingsPlace? workingDirectory options = some place ↔
      ∃ holder, IsDeepest tree.holdsSettings (tree.origin path) script.dropLast holder ∧
        place = holder ++ [settingsFile] := by
  obtain ⟨same, entered⟩ := runs.entered
  obtain ⟨parent, up, start, upper, place⟩ := runs.exists_parent
  have search : options.task.searchDirectory workingDirectory = parent := by
    rw [runs.asked, Task.searchDirectory, up]
    rfl
  have down : ".." ∉ names parent := by
    rw [upper]
    exact fun member => runs.down ((List.dropLast_prefix _).subset member)
  have filled : script ≠ [] := by
    rw [same]
    exact List.append_ne_nil_of_right_ne_nil _ runs.names_ne_nil
  rw [settingsPlace?, search, foundFrom_eq_some_iff down, start, place]
  rw [start, place]
  intro other lower upper
  refine entered other lower (upper.trans (List.dropLast_prefix script)) ?_
  rintro rfl
  have shorter := upper.length_le
  rw [List.length_dropLast] at shorter
  have named := List.length_pos_iff.mpr filled
  omega

end FileTree

open FileTree

/-- The options of a command line that only names a script. -/
def Options.ofScript (path : String) : Options :=
  ⟨.script path, .standard, false, none, false⟩

theorem readArguments_singleton_iff (path : String) :
    readArguments .initial [path] = .run (.ofScript path) ↔ path.toList.head? ≠ some '-' := by
  unfold readArguments
  split
  case h_10 =>
    by_cases dashed : path.toList.head? = some '-'
    · simp [dashed]
    · simp [dashed, PartialOptions.withTask, PartialOptions.initial, readArguments,
        PartialOptions.finish, Options.ofScript]
  all_goals simp [readArguments, PartialOptions.finish, PartialOptions.initial]

/-- Which settings a command line finds depends on the place of its script, as far as the path
reaches. A path from the root finds the nearest settings file above the script; a relative one finds
the nearest that is not above the working directory. The two are the same exactly if a directory
from the working directory down to that of the script holds settings, or no directory above the
script does. In each case the run takes the settings that are in the file, or the standard ones if
none is found. An argument by itself names a script unless it starts with a dash. -/
theorem settings_nearest_within_path {tree : FileTree} {script : List String}
    {relative absolute : String} {near far : Options} {nearArguments farArguments : List String}
    (nearRuns : tree.Runs nearArguments near relative script)
    (farRuns : tree.Runs farArguments far absolute script)
    (isRelative : isAbsolute relative = false) (isRooted : isAbsolute absolute = true)
    (workingDirectory : String) :
    (∀ place, tree.settingsPlace? workingDirectory far = some place ↔
        ∃ holder, IsDeepest tree.holdsSettings [] script.dropLast holder ∧
          place = holder ++ [settingsFile]) ∧
      (∀ place, tree.settingsPlace? workingDirectory near = some place ↔
        ∃ holder, IsDeepest tree.holdsSettings tree.directory script.dropLast holder ∧
          place = holder ++ [settingsFile]) ∧
      (tree.settingsPlace? workingDirectory near = tree.settingsPlace? workingDirectory far ↔
        (∃ holder, tree.directory <+: holder ∧ holder <+: script.dropLast ∧
            tree.holdsSettings holder = true) ∨
          ∀ holder, holder <+: script.dropLast → tree.holdsSettings holder = false) ∧
      (∀ options ∈ [near, far], options.settings tree.files workingDirectory =
        (tree.settingsIn (tree.settingsPlace? workingDirectory options)).map fun settings =>
          { settings with strict := settings.strict || options.strict }) ∧
      ∀ path, readArguments .initial [path] = .run (.ofScript path) ↔
        path.toList.head? ≠ some '-' := by
  have nearFinds : ∀ place, tree.settingsPlace? workingDirectory near = some place ↔
      ∃ holder, IsDeepest tree.holdsSettings tree.directory script.dropLast holder ∧
        place = holder ++ [settingsFile] := by
    intro place
    rw [settingsPlace?_of_runs nearRuns, origin, isRelative, if_neg Bool.false_ne_true]
  have farFinds : ∀ place, tree.settingsPlace? workingDirectory far = some place ↔
      ∃ holder, IsDeepest tree.holdsSettings [] script.dropLast holder ∧
        place = holder ++ [settingsFile] := by
    intro place
    rw [settingsPlace?_of_runs farRuns, origin, isRooted, if_pos rfl]
  refine ⟨farFinds, nearFinds, ?_, ?_, readArguments_singleton_iff⟩
  · constructor
    · intro same
      by_cases held : ∃ holder, holder <+: script.dropLast ∧ tree.holdsSettings holder = true
      · obtain ⟨passing, upper, holds⟩ := held
        obtain ⟨holder, deepest⟩ := exists_isDeepest List.nil_prefix upper holds
        have found := same.trans ((farFinds _).mpr ⟨holder, deepest, rfl⟩)
        obtain ⟨nearest, isNearest, -⟩ := (nearFinds _).mp found
        exact .inl ⟨nearest, isNearest.below, isNearest.above, isNearest.passes⟩
      · exact .inr fun holder upper =>
          Bool.eq_false_iff.mpr fun holds => held ⟨holder, upper, holds⟩
    · intro reached
      refine Option.ext fun place => ?_
      rw [nearFinds, farFinds]
      refine exists_congr fun holder => and_congr_left fun _ => ?_
      rcases reached with ⟨passing, lower, upper, holds⟩ | none
      · exact isDeepest_iff_of_passes lower upper holds
      · constructor <;>
        · intro deepest
          cases (none holder deepest.above).symm.trans deepest.passes
  · intro options member
    simp only [List.mem_cons, List.not_mem_nil, or_false] at member
    rcases member with rfl | rfl
    · exact settings_eq_settingsIn nearRuns.unset workingDirectory
    · exact settings_eq_settingsIn farRuns.unset workingDirectory

/-- A project with settings of its own below others, and with a directory in its place that is named
like a settings file. -/
def projectTree : FileTree where
  entries :=
    [⟨["home", "tayozanx.yaml"], some "strict: true\n".toUTF8⟩,
     ⟨["home", "project", "tayozanx.yaml"], some "".toUTF8⟩,
     ⟨["home", "project", "scenes", "tayozanx.yaml"], none⟩,
     ⟨["home", "project", "scenes", "intro.tzx"], some "show 1\n".toUTF8⟩]
  directory := ["home", "project"]

/-- Two ways to write the path of a script in that project, which find the settings of the
project. -/
theorem settings_of_projectTree :
    projectTree.settingsPlace? "/home/project" (.ofScript "./scenes//intro.tzx") =
        projectTree.settingsPlace? "/home/project"
          (.ofScript "/home/./project/scenes/intro.tzx") ∧
      projectTree.settingsPlace? "/home/project" (.ofScript "/home/./project/scenes/intro.tzx") =
        some ["home", "project", "tayozanx.yaml"] := by
  have near : projectTree.Runs ["./scenes//intro.tzx"] (.ofScript "./scenes//intro.tzx")
      "./scenes//intro.tzx" ["home", "project", "scenes", "intro.tzx"] :=
    ⟨rfl, rfl, rfl, by decide, rfl, by decide⟩
  have far : projectTree.Runs ["/home/./project/scenes/intro.tzx"]
      (.ofScript "/home/./project/scenes/intro.tzx") "/home/./project/scenes/intro.tzx"
      ["home", "project", "scenes", "intro.tzx"] :=
    ⟨rfl, rfl, rfl, by decide, rfl, by decide⟩
  obtain ⟨-, -, same, -, -⟩ := settings_nearest_within_path near far rfl rfl "/home/project"
  refine ⟨same.mpr (.inl ⟨["home", "project"], by decide, by decide, by decide⟩), ?_⟩
  decide

/-- A project whose settings are in the directory above the working directory. -/
def sharedTree : FileTree where
  entries :=
    [⟨["home", "tayozanx.yaml"], some "strict: true\n".toUTF8⟩,
     ⟨["home", "project", "play.tzx"], some "show 1\n".toUTF8⟩]
  directory := ["home", "project"]

/-- The path from the root finds the settings above the working directory, as a snippet does that is
run there. The relative path of the same script finds none. -/
theorem settings_above_missed :
    sharedTree.Runs ["play.tzx"] (.ofScript "play.tzx") "play.tzx"
        ["home", "project", "play.tzx"] ∧
      sharedTree.Runs ["/home/project/play.tzx"] (.ofScript "/home/project/play.tzx")
        "/home/project/play.tzx" ["home", "project", "play.tzx"] ∧
      sharedTree.settingsPlace? "/home/project" (.ofScript "/home/project/play.tzx") =
        some ["home", "tayozanx.yaml"] ∧
      sharedTree.settingsPlace? "/home/project"
          { Options.ofScript "" with task := .snippet "show 1" } =
        some ["home", "tayozanx.yaml"] ∧
      sharedTree.settingsPlace? "/home/project" (.ofScript "play.tzx") = none :=
  ⟨⟨rfl, rfl, rfl, by decide, rfl, by decide⟩, ⟨rfl, rfl, rfl, by decide, rfl, by decide⟩,
    by decide, by decide, by decide⟩

end LineScript
