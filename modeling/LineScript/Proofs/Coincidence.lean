/-
This file proves that a run depends on its environment only through the names that its expressions
mention. Two environments that agree on these may differ everywhere else. The runs from them do the
same to the sink and end in the same way, and they agree at the end on these names and on all that
was set or declared on the way.

To say what was set on the way, the changes of a run are written down as they are made. A history is
an environment together with its changes, and running over histories is running over environments
with the list of changes beside. From environments that agree on what is mentioned the two lists are
the same, so each part of an environment was overwritten with the same on both sides, or left alone
on both.
-/

import LineScript.Proofs.Mention
import LineScript.Proofs.Store
import LineScript.Proofs.Table

namespace LineScript

/-! ### Parts of an environment -/

/-- A part of an environment that each change either overwrites or leaves alone. -/
def IsPart {α : Type} (part : Environment → α) : Prop :=
  ∀ change : Change, (∀ environment, part (change.apply environment) = part environment) ∨
    ∃ given, ∀ environment, part (change.apply environment) = given

namespace IsPart

variable {α β : Type} {part : Environment → α}

theorem comp (isPart : IsPart part) (view : α → β) : IsPart fun environment =>
    view (part environment) := by
  intro change
  rcases isPart change with kept | ⟨given, overwritten⟩
  · exact .inl fun environment => congrArg view (kept environment)
  · exact .inr ⟨view given, fun environment => congrArg view (overwritten environment)⟩

/-- The same change on both sides keeps an agreement. -/
theorem agree_apply (isPart : IsPart part) {first second : Environment}
    (agree : part first = part second) (change : Change) :
    part (change.apply first) = part (change.apply second) := by
  rcases isPart change with kept | ⟨given, overwritten⟩
  · rw [kept, kept, agree]
  · rw [overwritten, overwritten]

theorem agree_foldr (isPart : IsPart part) {first second : Environment}
    (agree : part first = part second) (changes : List Change) :
    part (changes.foldr Change.apply first) = part (changes.foldr Change.apply second) := by
  induction changes with
  | nil => exact agree
  | cons change earlier inductionHypothesis => exact isPart.agree_apply inductionHypothesis change

end IsPart

theorem isPart_value (name : String) : IsPart fun environment => environment.values.get? name := by
  intro change
  cases change with
  | value key given =>
    by_cases same : name = key
    · exact .inr ⟨some given, fun environment => same ▸ Table.get?_insert_self _ _ _⟩
    · exact .inl fun environment => Table.get?_insert_of_ne _ same _
  | record key fields => exact .inl fun _ => rfl
  | entity key => exact .inl fun _ => rfl

theorem isPart_record (name : String) :
    IsPart fun environment => environment.records.get? name := by
  intro change
  cases change with
  | value key given => exact .inl fun _ => rfl
  | record key fields =>
    by_cases same : name = key
    · exact .inr ⟨some fields, fun environment => same ▸ Table.get?_insert_self _ _ _⟩
    · exact .inl fun environment => Table.get?_insert_of_ne _ same _
  | entity key => exact .inl fun _ => rfl

theorem isPart_entity (name : String) :
    IsPart fun environment => environment.entities.get? name := by
  intro change
  cases change with
  | value key given => exact .inl fun _ => rfl
  | record key fields => exact .inl fun _ => rfl
  | entity key =>
    by_cases same : name = key
    · exact .inr ⟨some .empty, fun environment => same ▸ Table.get?_insert_self _ _ _⟩
    · exact .inl fun environment => Table.get?_insert_of_ne _ same _

theorem isPart_answer (mention : Mention) :
    IsPart fun environment => environment.bindings.answer mention := by
  cases mention with
  | var name => exact isPart_value name
  | member record field =>
    exact (isPart_record record).comp fun found => found.bind fun fields => fields.get? field

/-- Two environments agree at a target. -/
def Target.Agree : Target → Environment → Environment → Prop
  | .value name, first, second => first.values.get? name = second.values.get? name
  | .record name, first, second => first.records.get? name = second.records.get? name
  | .entity name, first, second => first.entities.get? name = second.entities.get? name

theorem Change.agree_target (change : Change) (first second : Environment) :
    change.target.Agree (change.apply first) (change.apply second) := by
  cases change with
  | value name given =>
    exact (Table.get?_insert_self _ _ _).trans (Table.get?_insert_self _ _ _).symm
  | record name fields =>
    exact (Table.get?_insert_self _ _ _).trans (Table.get?_insert_self _ _ _).symm
  | entity name =>
    exact (Table.get?_insert_self _ _ _).trans (Table.get?_insert_self _ _ _).symm

theorem Target.Agree.apply {target : Target} {first second : Environment}
    (agree : target.Agree first second) (change : Change) :
    target.Agree (change.apply first) (change.apply second) := by
  cases target with
  | value name => exact (isPart_value name).agree_apply agree change
  | record name => exact (isPart_record name).agree_apply agree change
  | entity name => exact (isPart_entity name).agree_apply agree change

/-- After the same changes two environments agree at all their targets. -/
theorem agree_of_mem_changes {changes : List Change} {change : Change} (member : change ∈ changes)
    (first second : Environment) :
    change.target.Agree (changes.foldr Change.apply first)
      (changes.foldr Change.apply second) := by
  induction member with
  | head earlier => exact change.agree_target _ _
  | tail latest _ inductionHypothesis => exact inductionHypothesis.apply latest

/-! ### Histories -/

/-- An environment and the changes that led to it, the latest first. -/
structure History where
  environment : Environment
  changes : List Change

/-- Histories as a store: every change is also written down. -/
def Store.histories : Store History where
  bindings history := history.environment.bindings
  change change history := ⟨change.apply history.environment, change :: history.changes⟩

/-- The run of a program over histories, from an environment without a past. -/
def runHistory (sink : Sink) (program : Program) (environment : Environment)
    (events : List Event) : EStateM.Result RunError (RunState History) Unit :=
  thenFlush sink (Store.histories.runAll sink program) ⟨⟨environment, []⟩, events, []⟩

/-- The changes that a run of a program makes, in order. -/
def changesOf (sink : Sink) (program : Program) (environment : Environment)
    (events : List Event) : List Change :=
  (endState (runHistory sink program environment events)).names.changes.reverse

/-- Writing the changes down does not disturb a run. -/
theorem runHistory_matched (sink : Sink) (program : Program) (environment : Environment)
    (events : List Event) (notices : List Notice) :
    Matched (fun found history => found = history.environment)
      (runTree sink program ⟨environment, events, notices⟩)
      (runHistory sink program environment events) := by
  have compositional : Compositional .environments .histories sink sink (fun _ => True)
      (fun _ => True) fun _ left right =>
        Lockstep (fun found history => found = history.environment) left right :=
    Lockstep.compositional sink (fun _ _ same _ _ => by rw [same]; rfl)
      fun change _ _ same => congrArg change.apply same
  have body := compositional.runAll program (fun _ _ => trivial) fun _ _ => trivial
  rw [runAll_environments] at body
  exact Lockstep.thenFlush sink body _ _ ⟨rfl, rfl⟩

/-! ### Environments that agree on what is mentioned -/

/-- The names that the expressions of statements mention, at any depth. -/
def Stmt.allMentions (statements : List Stmt) : List Mention :=
  (Stmt.allExpressions statements).flatMap mentionsOf

/-- Two histories with the same changes, from two beginnings. -/
structure Parallel (first second : Environment) (found given : History) : Prop where
  changes : found.changes = given.changes
  left : found.environment = found.changes.foldr Change.apply first
  right : given.environment = given.changes.foldr Change.apply second

theorem Parallel.change {first second : Environment} {found given : History}
    (parallel : Parallel first second found given) (change : Change) :
    Parallel first second (Store.histories.change change found)
      (Store.histories.change change given) :=
  ⟨congrArg (change :: ·) parallel.changes, congrArg change.apply parallel.left,
    congrArg change.apply parallel.right⟩

theorem Parallel.agreeOn {first second : Environment} {mentions : List Mention}
    (agree : AgreeOn first.bindings second.bindings mentions) {found given : History}
    (parallel : Parallel first second found given) :
    AgreeOn found.environment.bindings given.environment.bindings mentions := by
  intro mention member
  rw [parallel.left, parallel.right, parallel.changes]
  exact (isPart_answer mention).agree_foldr (agree mention member) given.changes

/-- From environments that agree on all mentions the same changes are made. -/
theorem runHistory_parallel {program : Program} {first second : Environment}
    (agree : AgreeOn first.bindings second.bindings (Stmt.allMentions program)) (sink : Sink)
    (events : List Event) :
    Matched (Parallel first second) (runHistory sink program first events)
      (runHistory sink program second events) := by
  have compositional : Compositional .histories .histories sink sink
      (fun expr => expr ∈ Stmt.allExpressions program) (fun _ => True) fun _ left right =>
        Lockstep (Parallel first second) left right :=
    Lockstep.compositional sink
      (fun found given parallel expr member => evaluate_congr _ _ expr fun mention inside =>
        parallel.agreeOn agree mention (List.mem_flatMap.mpr ⟨expr, member, inside⟩))
      fun change _ _ parallel => parallel.change change
  have body := compositional.runAll program (fun _ member => member) fun _ _ => trivial
  exact Lockstep.thenFlush sink body _ _ ⟨rfl, rfl, rfl, rfl⟩

/-- A run leaves the environment that it found with the changes that it made. -/
theorem names_runTree (sink : Sink) (program : Program) (environment : Environment)
    (events : List Event) (notices : List Notice) :
    (endState (runTree sink program ⟨environment, events, notices⟩)).names =
      (changesOf sink program environment events).foldl
        (fun found change => change.apply found) environment := by
  have alone : AgreeOn environment.bindings environment.bindings (Stmt.allMentions program) :=
    fun _ _ => rfl
  have parallel := (runHistory_parallel alone sink events).alike.names
  rw [changesOf, List.foldl_reverse, (runHistory_matched sink program environment events
    notices).alike.names]
  exact parallel.left

/-- From two environments that agree on all that the expressions of a program mention, at any depth,
the runs of the program do the same to the sink, fail with the same error or not at all, and make
the same changes, in the same order. In the end the environments agree on all that is mentioned, and
at every target that was changed on the way. This holds for every sink. -/
theorem runTree_coincidence (sink : Sink) (program : Program) {first second : Environment}
    (agree : AgreeOn first.bindings second.bindings (Stmt.allMentions program))
    (events : List Event) (notices otherNotices : List Notice) :
    let one := runTree sink program ⟨first, events, notices⟩
    let other := runTree sink program ⟨second, events, otherNotices⟩
    let changes := changesOf sink program first events
    (endState one).events = (endState other).events ∧
      endError? one = endError? other ∧
      AgreeOn (endState one).names.bindings (endState other).names.bindings
        (Stmt.allMentions program) ∧
      (endState one).names = changes.foldl (fun found change => change.apply found) first ∧
      (endState other).names = changes.foldl (fun found change => change.apply found) second ∧
      ∀ change ∈ changes, change.target.Agree (endState one).names (endState other).names := by
  intro one other changes
  have firstMatched := runHistory_matched sink program first events notices
  have secondMatched := runHistory_matched sink program second events otherNotices
  have matched := runHistory_parallel agree sink events
  have sameChanges : changes = changesOf sink program second events :=
    congrArg List.reverse matched.alike.names.changes
  have firstNames := names_runTree sink program first events notices
  have secondNames := names_runTree sink program second events otherNotices
  rw [← sameChanges] at secondNames
  refine ⟨?_, ?_, ?_, firstNames, secondNames, fun change member => ?_⟩
  · exact firstMatched.alike.events.trans (matched.alike.events.trans
      secondMatched.alike.events.symm)
  · exact firstMatched.endError?_eq.trans (matched.endError?_eq.trans
      secondMatched.endError?_eq.symm)
  · rw [firstMatched.alike.names, secondMatched.alike.names]
    exact matched.alike.names.agreeOn agree
  · rw [firstNames, secondNames, ← List.foldr_reverse, ← List.foldr_reverse]
    exact agree_of_mem_changes (List.mem_reverse.mpr member) first second

/-- A program that reads `n` and `base.x`. It sets `total`, declares `point` twice, and comes to no
statement that sets `big`. -/
def scopedProgram : Program :=
  [.assign 1 "total" "n * 2",
    .block 2 (.loop "n") [.record 3 "point" (Table.empty.insert "x" "base.x + n")],
    .block 6 (.branch "n > 5") [.assign 7 "big" "1"]]

/-- An environment with a value of its own for the names that the program does not read. -/
def scopedEnvironment (own : Value) : Environment where
  values := .ofList [("n", .int 2), ("total", own), ("big", own)]
  records := .ofList [("base", .ofList [("x", .int 1), ("y", own)]), ("point", .empty)]
  entities := .empty

theorem runTree_coincidence_scoped :
    AgreeOn (scopedEnvironment (.int 8)).bindings (scopedEnvironment (.bool true)).bindings
        (Stmt.allMentions scopedProgram) ∧
      changesOf .unlimited scopedProgram (scopedEnvironment (.int 8)) [] =
        [.value "total" (.int 4), .record "point" (.ofList [("x", .int 3)]),
          .record "point" (.ofList [("x", .int 3)])] ∧
      (Target.value "total").Agree
        (endState (runTree .unlimited scopedProgram ⟨scopedEnvironment (.int 8), [], []⟩)).names
        (endState (runTree .unlimited scopedProgram
          ⟨scopedEnvironment (.bool true), [], []⟩)).names := by
  have agree : AgreeOn (scopedEnvironment (.int 8)).bindings
      (scopedEnvironment (.bool true)).bindings (Stmt.allMentions scopedProgram) := by
    have mentions : Stmt.allMentions scopedProgram =
        [.var "n", .var "n", .member "base" "x", .var "n", .var "n"] := by decide +kernel
    rw [mentions]
    simp only [AgreeOn, List.forall_mem_cons]
    exact ⟨rfl, rfl, rfl, rfl, rfl, List.forall_mem_nil _⟩
  have changes : changesOf .unlimited scopedProgram (scopedEnvironment (.int 8)) [] =
      [.value "total" (.int 4), .record "point" (.ofList [("x", .int 3)]),
        .record "point" (.ofList [("x", .int 3)])] := rfl
  obtain ⟨-, -, -, -, -, atTargets⟩ :=
    runTree_coincidence .unlimited scopedProgram agree [] [] []
  rw [changes] at atTargets
  exact ⟨agree, changes, atTargets _ List.mem_cons_self⟩

end LineScript
