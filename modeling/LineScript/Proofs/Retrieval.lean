/-
This file shows that what a program stores can be read back under the name it was stored under. An
assignment stores the value of a variable and a record those of its fields. The names in them were
accepted by the parser, so they are identifiers, and an identifier is an expression that looks
itself up. There is no name that can be set but never be read, and a program may take the name of a
constant for its own.
-/

import LineScript.Proofs.Action
import LineScript.Proofs.Identifier
import LineScript.Proofs.Mention
import LineScript.Proofs.OnePass
import LineScript.Proofs.Table
import LineScript.Run.Tree

namespace LineScript

/-! ### Statements at every depth -/

mutual

/-- A statement and all statements inside it, a block before its body. -/
def Stmt.preorder : Stmt → List Stmt
  | .print line expr => [.print line expr]
  | .assign line name expr => [.assign line name expr]
  | .record line name fields => [.record line name fields]
  | .block line header body => .block line header body :: Stmt.allPreorder body

/-- Statements and all statements inside them, one after the other. -/
def Stmt.allPreorder : List Stmt → List Stmt
  | [] => []
  | first :: rest => first.preorder ++ Stmt.allPreorder rest

end

theorem Stmt.allPreorder_append (front back : List Stmt) :
    Stmt.allPreorder (front ++ back) = Stmt.allPreorder front ++ Stmt.allPreorder back := by
  induction front with
  | nil => rfl
  | cons first rest inductionHypothesis =>
    rw [List.cons_append, allPreorder, allPreorder, inductionHypothesis, List.append_assoc]

theorem Stmt.allPreorder_singleton (stmt : Stmt) : Stmt.allPreorder [stmt] = stmt.preorder :=
  List.append_nil _

theorem Stmt.mem_preorder_self (stmt : Stmt) : stmt ∈ stmt.preorder := by
  cases stmt <;> exact List.mem_cons_self

/-! ### What statements store -/

/-- A mention as it is written in an expression. -/
def Mention.text : Mention → String
  | .var name => name
  | .member record field => record ++ "." ++ field

/-- Whether the names in a mention are identifiers. -/
def Mention.isReadable : Mention → Bool
  | .var name => isIdentifier name
  | .member record field => isIdentifier record && isIdentifier field

/-- What a statement stores, if it is one that stores: under which mentions, and the expressions
that give the values. -/
def Stmt.stores? : Stmt → Option (List (Mention × String))
  | .print _ _ => none
  | .assign _ name expr => some [(.var name, expr)]
  | .record _ name fields =>
    some (fields.entries.map fun entry => (.member name entry.1, entry.2))
  | .block _ _ _ => none

/-- A mention that holds identifiers is read as what it is. -/
theorem Mention.evaluate_text {mention : Mention} (readable : mention.isReadable = true)
    {bindings : Bindings} {value : Value} (bound : bindings.answer mention = some value) :
    evaluate bindings mention.text = .ok value := by
  cases mention with
  | var name => exact evaluate_identifier readable bound
  | member record field =>
    obtain ⟨identifier, fieldIdentifier⟩ := (Bool.and_eq_true _ _).mp readable
    exact evaluate_member identifier fieldIdentifier bound

/-! ### Accepted names -/

/-- Statements that store only under identifiers, at every depth. -/
def StoresReadably (statements : List Stmt) : Prop :=
  ∀ stmt ∈ Stmt.allPreorder statements, ∀ stored ∈ stmt.stores?, ∀ entry ∈ stored,
    entry.1.isReadable = true

namespace StoresReadably

theorem nil : StoresReadably [] :=
  fun _ member => absurd member List.not_mem_nil

theorem append {front back : List Stmt} (first : StoresReadably front)
    (second : StoresReadably back) : StoresReadably (front ++ back) := by
  unfold StoresReadably
  rw [Stmt.allPreorder_append]
  exact List.forall_mem_append.mpr ⟨first, second⟩

theorem print (line : Nat) (expr : String) : StoresReadably [.print line expr] := by
  intro stmt member stored stores
  cases List.mem_singleton.mp member
  cases stores

theorem assign (line : Nat) {name : String} (identifier : isIdentifier name = true)
    (expr : String) : StoresReadably [.assign line name expr] := by
  intro stmt member stored stores entry inside
  cases List.mem_singleton.mp member
  cases stores
  cases List.mem_singleton.mp inside
  exact identifier

theorem record (line : Nat) {name : String} {fields : Table String}
    (identifier : isIdentifier name = true)
    (each : ∀ entry ∈ fields.entries, isIdentifier entry.1 = true) :
    StoresReadably [.record line name fields] := by
  intro stmt member stored stores entry inside
  cases List.mem_singleton.mp member
  cases stores
  obtain ⟨source, known, rfl⟩ := List.mem_map.mp inside
  exact (Bool.and_eq_true _ _).mpr ⟨identifier, each source known⟩

theorem block (line : Nat) (header : Header) {body : List Stmt} (inside : StoresReadably body) :
    StoresReadably [.block line header body] := by
  intro stmt member
  rw [Stmt.allPreorder_singleton] at member
  rcases List.mem_cons.mp member with rfl | later
  · intro stored stores
    cases stores
  · exact inside stmt later

end StoresReadably

/-- A line by itself that is a statement stores only under identifiers. -/
theorem Line.storesReadably {line : Line} {stmt : Stmt}
    (read : line.classify = .ok (.statement stmt)) : StoresReadably [stmt] := by
  cases Line.spells_of_classify read (by simp) with
  | print => exact .print _ _
  | assign _ _ identifier _ => exact .assign _ identifier _

/-- A pass that holds identifiers wherever something will be stored. -/
structure Pass.Readable (pass : Pass) : Prop where
  blocks : ∀ block ∈ pass.blocks, StoresReadably block.before
  statements : StoresReadably pass.statements
  record? : ∀ record ∈ pass.record?, isIdentifier record.name = true ∧
    ∀ entry ∈ record.fields.entries, isIdentifier entry.1 = true

theorem Pass.Readable.start : Pass.start.Readable :=
  ⟨fun _ member => absurd member List.not_mem_nil, .nil, fun _ member => by cases member⟩

/-- An `end` makes a statement of the innermost block. -/
theorem Pass.Readable.pop {pass next : Pass} {number : Nat} (holds : pass.Readable)
    (popped : pass.pop number = .ok next) : next.Readable := by
  unfold Pass.pop at popped
  cases blocks : pass.blocks with
  | nil =>
    rw [blocks] at popped
    cases popped
  | cons block outer =>
    rw [blocks] at popped
    cases popped
    have waiting := holds.blocks
    rw [blocks] at waiting
    obtain ⟨before, others⟩ := List.forall_mem_cons.mp waiting
    exact ⟨others, before.append (.block _ _ holds.statements), holds.record?⟩

/-- A line keeps it so. -/
theorem Pass.Readable.step {strict : Bool} {pass next : Pass} {line : Line}
    (holds : pass.Readable) (taken : pass.step strict line = .ok next) : next.Readable := by
  cases Pass.step_eq_iff.mp taken with
  | field inside _ read =>
    obtain ⟨identifier, each⟩ := holds.record? _ inside
    obtain ⟨-, fieldIdentifier, -⟩ := binding_eq_ok.mp read
    refine ⟨holds.blocks, holds.statements, ?_⟩
    rintro _ ⟨⟩
    refine ⟨identifier, fun entry member => ?_⟩
    rcases mem_putEntry member with rfl | old
    · exact fieldIdentifier
    · exact each entry old
  | endRecord inside _ =>
    obtain ⟨identifier, each⟩ := holds.record? _ inside
    exact ⟨holds.blocks, holds.statements.append (.record _ identifier each),
      fun _ none => by cases none⟩
  | statement _ read =>
    exact ⟨holds.blocks, holds.statements.append (Line.storesReadably read), holds.record?⟩
  | opener _ _ =>
    exact ⟨List.forall_mem_cons.mpr ⟨holds.statements, holds.blocks⟩, .nil, holds.record?⟩
  | recordOpener _ read =>
    refine ⟨holds.blocks, holds.statements, ?_⟩
    rintro _ ⟨⟩
    cases Line.spells_of_classify read (by simp) with
    | record _ _ _ identifier =>
      exact ⟨identifier, fun _ member => absurd member List.not_mem_nil⟩
  | closing _ _ popped => exact holds.pop popped
  | skipped _ _ _ => exact ⟨holds.blocks, holds.statements, holds.record?⟩

/-- The parser accepts only identifiers as names of what is stored. -/
theorem storesReadably_of_parseProgram {strict : Bool} {lines : List Line} {program : Program}
    (read : (parseProgram strict lines).value = .ok program) : StoresReadably program := by
  rw [value_parseProgram] at read
  obtain ⟨final, readable, rfl⟩ := Pass.exists_of_read
    (fun _ _ _ _ holds taken => Pass.Readable.step holds taken) Pass.Readable.start read
  exact readable.statements

/-! ### What a run stores -/

section Run

variable {line : Nat} {name expr : String} {state after : RunState Environment}

theorem run_assign_eq_ok (sink : Sink) :
    (Stmt.assign line name expr).run sink state = .ok () after ↔
      ∃ value, evaluate state.names.bindings expr = .ok value ∧
        after = { state with names := state.names.define name value } := by
  rw [Stmt.run, bind_eq_ok]
  constructor
  · rintro ⟨value, middle, evaluated, changed⟩
    obtain ⟨known, rfl⟩ := evaluateAt_eq_ok.mp evaluated
    cases changed
    exact ⟨value, known, rfl⟩
  · rintro ⟨value, known, rfl⟩
    exact ⟨value, state, evaluateAt_eq_ok.mpr ⟨known, rfl⟩, rfl⟩

/-- If the fields of a record have values, each of them stands in the record at the end, and what
stood there under other names stays. Nothing else changes. -/
theorem evaluateFields_eq_ok {entries : List (String × String)} {fields values : Record}
    (distinct : (entries.map Prod.fst).Nodup)
    (ran : evaluateFields line fields entries state = .ok values after) :
    after = state ∧
      (∀ entry ∈ entries, ∃ value, evaluate state.names.bindings entry.2 = .ok value ∧
        values.get? entry.1 = some value) ∧
      ∀ other ∉ entries.map Prod.fst, values.get? other = fields.get? other := by
  induction entries generalizing fields with
  | nil =>
    cases ran
    exact ⟨rfl, fun _ member => absurd member List.not_mem_nil, fun _ _ => rfl⟩
  | cons entry rest inductionHypothesis =>
    obtain ⟨field, expr⟩ := entry
    obtain ⟨fresh, distinctRest⟩ := List.nodup_cons.mp distinct
    rw [evaluateFields, bind_eq_ok] at ran
    obtain ⟨value, middle, evaluated, others⟩ := ran
    obtain ⟨known, rfl⟩ := evaluateAt_eq_ok.mp evaluated
    obtain ⟨same, each, kept⟩ := inductionHypothesis distinctRest others
    refine ⟨same, List.forall_mem_cons.mpr ⟨⟨value, known, ?_⟩, each⟩, ?_⟩
    · rw [kept field fresh, Table.get?_insert_self]
    · intro other absent
      rw [List.map_cons, List.mem_cons, not_or] at absent
      rw [kept other absent.2, Table.get?_insert_of_ne _ absent.1]

theorem exists_evaluateFields {entries : List (String × String)}
    (each : ∀ entry ∈ entries, ∃ value, evaluate state.names.bindings entry.2 = .ok value)
    (fields : Record) : ∃ values, evaluateFields line fields entries state = .ok values state := by
  induction entries generalizing fields with
  | nil => exact ⟨fields, rfl⟩
  | cons entry rest inductionHypothesis =>
    obtain ⟨field, expr⟩ := entry
    obtain ⟨⟨value, known⟩, others⟩ := List.forall_mem_cons.mp each
    obtain ⟨values, ran⟩ := inductionHypothesis others (fields.insert field value)
    exact ⟨values, bind_eq_ok.mpr ⟨value, state, evaluateAt_eq_ok.mpr ⟨known, rfl⟩, ran⟩⟩

theorem run_record_eq_ok {fields : Table String} (sink : Sink) :
    (Stmt.record line name fields).run sink state = .ok () after ↔
      ∃ values, evaluateFields line .empty fields.entries state = .ok values state ∧
        after = { state with names := state.names.defineRecord name values } := by
  rw [Stmt.run, bind_eq_ok]
  constructor
  · rintro ⟨values, middle, evaluated, changed⟩
    obtain ⟨rfl, -, -⟩ := evaluateFields_eq_ok fields.distinct evaluated
    cases changed
    exact ⟨values, evaluated, rfl⟩
  · rintro ⟨values, evaluated, rfl⟩
    exact ⟨values, state, evaluated, rfl⟩

variable {stmt : Stmt} {stored : List (Mention × String)}

/-- A statement that stores fails only if an expression in it does. -/
theorem exists_run_of_stores (stores : stmt.stores? = some stored) (sink : Sink)
    (each : ∀ entry ∈ stored, ∃ value, evaluate state.names.bindings entry.2 = .ok value) :
    ∃ after, stmt.run sink state = .ok () after := by
  cases stmt with
  | print => cases stores
  | assign line name expr =>
    cases stores
    obtain ⟨value, known⟩ := each _ (List.mem_singleton_self _)
    exact ⟨_, (run_assign_eq_ok sink).mpr ⟨value, known, rfl⟩⟩
  | record line name fields =>
    cases stores
    have known : ∀ entry ∈ fields.entries, ∃ value,
        evaluate state.names.bindings entry.2 = .ok value :=
      fun entry member =>
        each (.member name entry.1, entry.2) (List.mem_map.mpr ⟨entry, member, rfl⟩)
    obtain ⟨values, evaluated⟩ := exists_evaluateFields known .empty
    exact ⟨_, (run_record_eq_ok sink).mpr ⟨values, evaluated, rfl⟩⟩
  | block => cases stores

/-- After a statement that stores, the names hold what its expressions had for values before. -/
theorem answer_of_run (stores : stmt.stores? = some stored) {sink : Sink}
    (ran : stmt.run sink state = .ok () after) :
    ∀ entry ∈ stored, ∃ value, evaluate state.names.bindings entry.2 = .ok value ∧
      after.names.bindings.answer entry.1 = some value := by
  cases stmt with
  | print => cases stores
  | assign line name expr =>
    cases stores
    obtain ⟨value, known, rfl⟩ := (run_assign_eq_ok sink).mp ran
    exact List.forall_mem_singleton.mpr ⟨value, known, Table.get?_insert_self _ name value⟩
  | record line name fields =>
    cases stores
    obtain ⟨values, evaluated, rfl⟩ := (run_record_eq_ok sink).mp ran
    obtain ⟨-, each, -⟩ := evaluateFields_eq_ok fields.distinct evaluated
    refine List.forall_mem_map.mpr fun entry member => ?_
    obtain ⟨value, known, held⟩ := each entry member
    refine ⟨value, known, ?_⟩
    show ((state.names.records.insert name values).get? name).bind (·.get? entry.1) = some value
    rw [Table.get?_insert_self, Option.bind_some, held]
  | block => cases stores

end Run

/-- A text is an identifier exactly if it is scanned as this name and nothing else. So whatever a
program stores can be read back: an assignment or a record, at any depth of a program that is
accepted, runs to its end exactly if its expressions have values, and then the variable or the field
as it is written in an expression has the value that was stored. This holds in every environment,
and the names may be those of constants. -/
theorem identifiers_read_back :
    (∀ name, isIdentifier name = true ↔
      ∃ stream, scan name = .ok stream ∧ stream.tokens.map Token.kind = [.name name]) ∧
    ∀ (strict : Bool) (lines : List Line) (program : Program),
      (parseProgram strict lines).value = .ok program →
      ∀ stmt ∈ Stmt.allPreorder program, ∀ stored, stmt.stores? = some stored →
      ∀ (sink : Sink) (state : RunState Environment),
        ((∃ after, stmt.run sink state = .ok () after) ↔
          ∀ entry ∈ stored, ∃ value, evaluate state.names.bindings entry.2 = .ok value) ∧
        ∀ after, stmt.run sink state = .ok () after → ∀ entry ∈ stored, ∃ value,
          evaluate state.names.bindings entry.2 = .ok value ∧
            after.names.bindings.answer entry.1 = some value ∧
            evaluate after.names.bindings entry.1.text = .ok value := by
  refine ⟨fun name => isIdentifier_iff_scan, ?_⟩
  intro strict lines program read stmt member stored stores sink state
  have readable := storesReadably_of_parseProgram read stmt member stored stores
  refine ⟨⟨?_, exists_run_of_stores stores sink⟩, ?_⟩
  · rintro ⟨after, ran⟩ entry inside
    obtain ⟨value, known, -⟩ := answer_of_run stores ran entry inside
    exact ⟨value, known⟩
  · intro after ran entry inside
    obtain ⟨value, known, held⟩ := answer_of_run stores ran entry inside
    exact ⟨value, known, held, Mention.evaluate_text (readable entry inside) held⟩

/-- A program with a variable and a field that are named as constants. -/
def constantProgram : Program :=
  [.block 1 .tick [.assign 2 "pi" "3", .record 3 "tau" (Table.empty.insert "inf" "'x'")]]

theorem constant_names_read_back :
    (parseProgram false [⟨1, "tick"⟩, ⟨2, "set pi = 3"⟩, ⟨3, "data tau"⟩, ⟨4, "inf = 'x'"⟩,
        ⟨5, "end"⟩, ⟨6, "end"⟩]).value = .ok constantProgram ∧
      (∃ after, (Stmt.assign 2 "pi" "3").run .unlimited ⟨.empty, [], []⟩ = .ok () after ∧
        evaluate after.names.bindings "pi" = .ok (.int 3)) ∧
      ∃ after, (Stmt.record 3 "tau" (Table.empty.insert "inf" "'x'")).run .unlimited
          ⟨.empty, [], []⟩ = .ok () after ∧
        evaluate after.names.bindings "tau.inf" = .ok (.string "x") := by
  have read : (parseProgram false [⟨1, "tick"⟩, ⟨2, "set pi = 3"⟩, ⟨3, "data tau"⟩,
      ⟨4, "inf = 'x'"⟩, ⟨5, "end"⟩, ⟨6, "end"⟩]).value = .ok constantProgram := rfl
  have three : evaluate Environment.empty.bindings "3" = .ok (.int 3) := by decide +kernel
  have letter : evaluate Environment.empty.bindings "'x'" = .ok (.string "x") := by decide +kernel
  have one := identifiers_read_back.2 false _ _ read (.assign 2 "pi" "3")
    (.tail _ (.head _)) _ rfl .unlimited ⟨.empty, [], []⟩
  have other := identifiers_read_back.2 false _ _ read
    (.record 3 "tau" (Table.empty.insert "inf" "'x'")) (.tail _ (.tail _ (.head _))) _ rfl
    .unlimited ⟨.empty, [], []⟩
  refine ⟨read, ?_, ?_⟩
  · obtain ⟨after, ran⟩ := one.1.mpr (List.forall_mem_singleton.mpr ⟨_, three⟩)
    obtain ⟨value, known, -, found⟩ := one.2 after ran _ (List.mem_singleton_self _)
    cases known.symm.trans three
    exact ⟨after, ran, found⟩
  · obtain ⟨after, ran⟩ := other.1.mpr (List.forall_mem_singleton.mpr ⟨_, letter⟩)
    obtain ⟨value, known, -, found⟩ := other.2 after ran _ (List.mem_singleton_self _)
    cases known.symm.trans letter
    exact ⟨after, ran, found⟩

end LineScript
