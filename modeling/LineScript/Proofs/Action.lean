/-
This file says what the steps of a run do. Each of them is opened once, by an equation for its
result from a given state, and later proofs cite these equations.

Two properties of actions are then shown to pass from parts to the whole. An action keeps a
relation when the names it leaves are always related to the names it found, whether it fails or
not. Two actions on different names run in lockstep when, from related names and the same events,
they come to the same result, do the same to the sink and leave related names again. Notices are
no part of either: they tell about a run and change nothing in it.
-/

import LineScript.Proofs.Monad
import LineScript.Run.Action

namespace LineScript

variable {names others α β : Type}

/-! ### Results -/

/-- The state that a run leaves, whether it failed or not. -/
def endState : EStateM.Result RunError (RunState names) α → RunState names
  | .ok _ state => state
  | .error _ state => state

/-- The error that ended a run, if one did. -/
def endError? : EStateM.Result RunError (RunState names) α → Option RunError
  | .ok _ _ => none
  | .error error _ => some error

theorem endError?_eq_some {result : EStateM.Result RunError (RunState names) α} {error : RunError}
    (failed : endError? result = some error) : ∃ final, result = .error error final := by
  cases result with
  | ok value final => cases failed
  | error early final =>
    cases failed
    exact ⟨final, rfl⟩

/-! ### Equations of the steps -/

theorem evaluateAt_apply (bindings : names → Bindings) (line : Nat) (expr : String)
    (state : RunState names) :
    evaluateAt bindings line expr state =
      match evaluate (bindings state.names) expr with
      | .ok value => .ok value state
      | .error error => .error (.eval (error.atLine line)) state := by
  unfold evaluateAt
  rw [bind_apply, get_apply]
  simp only
  cases evaluate (bindings state.names) expr with
  | ok value => exact pure_apply value state
  | error error => exact throw_apply _ state

/-- An evaluation changes nothing. -/
theorem endState_evaluateAt (bindings : names → Bindings) (line : Nat) (expr : String)
    (state : RunState names) : endState (evaluateAt bindings line expr state) = state := by
  rw [evaluateAt_apply]
  cases evaluate (bindings state.names) expr <;> rfl

theorem evaluateAt_eq_ok {bindings : names → Bindings} {line : Nat} {expr : String} {value : Value}
    {state final : RunState names} :
    evaluateAt bindings line expr state = .ok value final ↔
      evaluate (bindings state.names) expr = .ok value ∧ final = state := by
  rw [evaluateAt_apply]
  cases evaluate (bindings state.names) expr with
  | ok result =>
    constructor
    · intro same
      cases same
      exact ⟨rfl, rfl⟩
    · rintro ⟨same, rfl⟩
      cases same
      rfl
  | error error =>
    constructor
    · intro failed
      cases failed
    · rintro ⟨failed, _⟩
      cases failed

theorem evaluateAt_eq_error {bindings : names → Bindings} {line : Nat} {expr : String}
    {failure : RunError} {state final : RunState names} :
    evaluateAt bindings line expr state = .error failure final ↔
      ∃ error, evaluate (bindings state.names) expr = .error error ∧
        failure = .eval (error.atLine line) ∧ final = state := by
  rw [evaluateAt_apply]
  cases evaluate (bindings state.names) expr with
  | ok value =>
    constructor
    · intro failed
      cases failed
    · rintro ⟨_, failed, _⟩
      cases failed
  | error error =>
    constructor
    · intro failed
      cases failed
      exact ⟨error, rfl, rfl, rfl⟩
    · rintro ⟨_, same, rfl, rfl⟩
      cases same
      rfl

theorem writeBytes_apply (sink : Sink) (bytes : ByteArray) (state : RunState names) :
    writeBytes sink bytes state =
      if bytes.isEmpty then .ok () state
      else
        match sink.write state.events bytes with
        | .accepted => .ok () { state with events := .write bytes :: state.events }
        | .refused kept message =>
          .error (.output message)
            (if kept = 0 then state
            else { state with events := .write (bytes.extract 0 kept) :: state.events }) := by
  unfold writeBytes
  by_cases empty : bytes.isEmpty
  · rw [if_pos empty, if_pos empty]
    rfl
  · rw [if_neg empty, if_neg empty]
    show (match sink.write state.events bytes with
      | .accepted => emit (.write bytes)
      | .refused kept message => do
        if kept ≠ 0 then emit (.write (bytes.extract 0 kept))
        throw (.output message) : Action names Unit) state = _
    cases sink.write state.events bytes with
    | accepted => rfl
    | refused kept message =>
      cases kept with
      | zero => rfl
      | succ kept => rfl

theorem flushSink_apply (sink : Sink) (state : RunState names) :
    flushSink sink state =
      match sink.flush state.events with
      | some message => .error (.output message) { state with events := .flush :: state.events }
      | none => .ok () { state with events := .flush :: state.events } := by
  show (match sink.flush state.events with
    | some message => throw (.output message)
    | none => pure () : Action names Unit) { state with events := .flush :: state.events } = _
  cases sink.flush state.events <;> rfl

theorem forM_note_apply (notices : List Notice) (state : RunState names) :
    (notices.forM note : Action names Unit) state =
      .ok () { state with notices := notices.reverse ++ state.notices } := by
  induction notices generalizing state with
  | nil => rfl
  | cons notice rest inductionHypothesis =>
    have others := inductionHypothesis { state with notices := notice :: state.notices }
    rw [List.reverse_cons, List.append_assoc]
    exact others

/-- Where flushes do not fail, an action followed by a flush ends as it does alone. -/
theorem thenFlush_apply {sink : Sink} (flushes : ∀ events, sink.flush events = none)
    (action : Action names Unit) (state : RunState names) :
    thenFlush sink action state =
      match action state with
      | .ok _ final => .ok () { final with events := .flush :: final.events }
      | .error error final => .error error { final with events := .flush :: final.events } := by
  have flushed (final : RunState names) :
      flushSink sink final = .ok () { final with events := .flush :: final.events } := by
    rw [flushSink_apply, flushes]
  unfold thenFlush
  cases action state with
  | ok value final => exact flushed final
  | error error final => simp only [flushed]

/-- Whatever the action and the flush come to, the flush is the last event. -/
theorem events_thenFlush (sink : Sink) (action : Action names Unit) (state : RunState names) :
    (endState (thenFlush sink action state)).events =
      .flush :: (endState (action state)).events := by
  have flushed (final : RunState names) :
      (endState (flushSink sink final)).events = .flush :: final.events := by
    rw [flushSink_apply]
    split <;> rfl
  unfold thenFlush
  cases action state with
  | ok value final => exact flushed final
  | error error final =>
    have last := flushed final
    simp only
    generalize flushSink sink final = result at last ⊢
    cases result <;> exact last

/-- A last flush leaves the names as the action left them. -/
theorem names_thenFlush (sink : Sink) (action : Action names Unit) (state : RunState names) :
    (endState (thenFlush sink action state)).names = (endState (action state)).names := by
  have flushed (final : RunState names) :
      (endState (flushSink sink final)).names = final.names := by
    rw [flushSink_apply]
    split <;> rfl
  unfold thenFlush
  cases action state with
  | ok value final => exact flushed final
  | error error final =>
    have last := flushed final
    simp only
    generalize flushSink sink final = result at last ⊢
    cases result <;> exact last

theorem events_onOwnNames (initial : names) (action : Action names Unit)
    (state : RunState others) :
    (endState (onOwnNames initial action state)).events =
      (endState (action ⟨initial, state.events, state.notices⟩)).events := by
  unfold onOwnNames
  cases action ⟨initial, state.events, state.notices⟩ <;> rfl

/-! ### Relations that actions keep -/

/-- A relation that goes through sequences of steps, of any number of them. -/
structure Sequential (relation : names → names → Prop) : Prop where
  reflexive : ∀ found, relation found found
  transitive : ∀ ⦃first second third⦄, relation first second → relation second third →
    relation first third

/-- An action keeps a relation: the names it leaves are related to the names it found, also when
it fails. -/
def Keeps (relation : names → names → Prop) (action : Action names α) : Prop :=
  ∀ state, relation state.names (endState (action state)).names

namespace Keeps

variable {relation : names → names → Prop}

theorem changeNames {change : names → names} (changed : ∀ found, relation found (change found)) :
    Keeps relation (LineScript.changeNames change) :=
  fun state => changed state.names

variable (sequential : Sequential relation)

include sequential

theorem pure (value : α) : Keeps relation (Pure.pure value : Action names α) :=
  fun state => sequential.reflexive state.names

theorem throw (error : RunError) : Keeps relation (MonadExcept.throw error : Action names α) :=
  fun state => sequential.reflexive state.names

theorem emit (event : Event) : Keeps relation (LineScript.emit event) :=
  fun state => sequential.reflexive state.names

theorem note (notice : Notice) : Keeps relation (LineScript.note notice) :=
  fun state => sequential.reflexive state.names

theorem evaluateAt (bindings : names → Bindings) (line : Nat) (expr : String) :
    Keeps relation (LineScript.evaluateAt bindings line expr) := by
  intro state
  rw [endState_evaluateAt]
  exact sequential.reflexive state.names

theorem writeLine (sink : Sink) (text : String) :
    Keeps relation (LineScript.writeLine sink text) := by
  intro state
  unfold LineScript.writeLine writeText
  rw [writeBytes_apply]
  split
  · exact sequential.reflexive state.names
  · split
    · exact sequential.reflexive state.names
    · split <;> exact sequential.reflexive state.names

theorem flushSink (sink : Sink) : Keeps relation (LineScript.flushSink sink) := by
  intro state
  rw [flushSink_apply]
  split <;> exact sequential.reflexive state.names

theorem bind {action : Action names α} {next : α → Action names β} (first : Keeps relation action)
    (rest : ∀ value, Keeps relation (next value)) : Keeps relation (action >>= next) := by
  intro state
  have kept := first state
  rw [bind_apply]
  cases result : action state with
  | ok value middle =>
    rw [result] at kept
    exact sequential.transitive kept (rest value middle)
  | error error middle =>
    rw [result] at kept
    exact kept

end Keeps

/-! ### Lockstep -/

/-- Two states are alike when their events are the same and their names are related. -/
structure Alike (related : names → others → Prop) (left : RunState names)
    (right : RunState others) : Prop where
  events : left.events = right.events
  names : related left.names right.names

/-- Two results match when both are the same value or both the same error, and the states left
behind are alike. -/
inductive Matched (related : names → others → Prop) :
    EStateM.Result RunError (RunState names) α → EStateM.Result RunError (RunState others) α → Prop
  | ok {value : α} {left : RunState names} {right : RunState others}
      (alike : Alike related left right) : Matched related (.ok value left) (.ok value right)
  | error {error : RunError} {left : RunState names} {right : RunState others}
      (alike : Alike related left right) : Matched related (.error error left) (.error error right)

/-- Two actions run in lockstep when from alike states they come to matching results. -/
def Lockstep (related : names → others → Prop) (left : Action names α)
    (right : Action others α) : Prop :=
  ∀ found given, Alike related found given → Matched related (left found) (right given)

namespace Matched

variable {related : names → others → Prop}
  {left : EStateM.Result RunError (RunState names) α}
  {right : EStateM.Result RunError (RunState others) α}

theorem endError?_eq (matched : Matched related left right) : endError? left = endError? right := by
  cases matched <;> rfl

theorem alike (matched : Matched related left right) :
    Alike related (endState left) (endState right) := by
  cases matched <;> assumption

end Matched

namespace Lockstep

variable {related : names → others → Prop}

theorem bind {left : Action names α} {right : Action others α} {leftNext : α → Action names β}
    {rightNext : α → Action others β} (first : Lockstep related left right)
    (rest : ∀ value, Lockstep related (leftNext value) (rightNext value)) :
    Lockstep related (left >>= leftNext) (right >>= rightNext) := by
  intro found given alike
  rw [bind_apply, bind_apply]
  have matched := first found given alike
  generalize left found = leftResult at matched
  generalize right given = rightResult at matched
  cases matched with
  | ok alikeEnd => exact rest _ _ _ alikeEnd
  | error alikeEnd => exact .error alikeEnd

theorem pure (value : α) :
    Lockstep related (Pure.pure value : Action names α) (Pure.pure value : Action others α) :=
  fun _ _ alike => .ok alike

theorem throw (error : RunError) :
    Lockstep related (MonadExcept.throw error : Action names α)
      (MonadExcept.throw error : Action others α) :=
  fun _ _ alike => .error alike

theorem emit (event : Event) :
    Lockstep related (LineScript.emit event) (LineScript.emit event) :=
  fun _ _ alike => .ok ⟨congrArg (event :: ·) alike.events, alike.names⟩

theorem note (notice : Notice) :
    Lockstep related (LineScript.note notice) (LineScript.note notice) :=
  fun _ _ alike => .ok ⟨alike.events, alike.names⟩

/-- A notice on one side alone does not break the step. -/
theorem note_left (notice : Notice) {left : Action names α} {right : Action others α}
    (rest : Lockstep related left right) :
    Lockstep related (LineScript.note notice >>= fun _ => left) right := by
  intro found given alike
  exact rest _ _ ⟨alike.events, alike.names⟩

theorem changeNames {change : names → names} {otherChange : others → others}
    (changed : ∀ found given, related found given → related (change found) (otherChange given)) :
    Lockstep related (LineScript.changeNames change) (LineScript.changeNames otherChange) :=
  fun _ _ alike => .ok ⟨alike.events, changed _ _ alike.names⟩

theorem evaluateAt {bindings : names → Bindings} {otherBindings : others → Bindings} {line : Nat}
    {expr : String}
    (same : ∀ found given, related found given →
      evaluate (bindings found) expr = evaluate (otherBindings given) expr) :
    Lockstep related (LineScript.evaluateAt bindings line expr)
      (LineScript.evaluateAt otherBindings line expr) := by
  intro found given alike
  rw [evaluateAt_apply, evaluateAt_apply, same _ _ alike.names]
  cases evaluate (otherBindings given.names) expr with
  | ok value => exact .ok alike
  | error error => exact .error alike

theorem writeLine (sink : Sink) (text : String) :
    Lockstep related (LineScript.writeLine sink text) (LineScript.writeLine sink text) := by
  intro found given alike
  unfold LineScript.writeLine writeText
  rw [writeBytes_apply, writeBytes_apply, alike.events]
  split
  · exact .ok alike
  · split
    · exact .ok ⟨rfl, alike.names⟩
    · split
      · exact .error alike
      · exact .error ⟨rfl, alike.names⟩

theorem flushSink (sink : Sink) :
    Lockstep related (LineScript.flushSink sink) (LineScript.flushSink sink) := by
  intro found given alike
  rw [flushSink_apply, flushSink_apply, alike.events]
  split
  · exact .error ⟨rfl, alike.names⟩
  · exact .ok ⟨rfl, alike.names⟩

/-- The last flush comes after the same events on both sides, and decides alike. -/
theorem thenFlush (sink : Sink) {left : Action names Unit} {right : Action others Unit}
    (body : Lockstep related left right) :
    Lockstep related (LineScript.thenFlush sink left) (LineScript.thenFlush sink right) := by
  intro found given alike
  have matched := body found given alike
  unfold LineScript.thenFlush
  generalize left found = leftResult at matched
  generalize right given = rightResult at matched
  cases matched with
  | ok alikeEnd => exact flushSink sink _ _ alikeEnd
  | @error error leftEnd rightEnd alikeEnd =>
    -- A flush that fails decides the error, otherwise the first error stays. The flushes match too.
    have flushed := flushSink sink leftEnd rightEnd alikeEnd
    simp only
    generalize LineScript.flushSink sink leftEnd = leftFlush at flushed
    generalize LineScript.flushSink sink rightEnd = rightFlush at flushed
    cases flushed with
    | ok alikeFlushed => exact .error alikeFlushed
    | error alikeFlushed => exact .error alikeFlushed

/-- Where the names are given up at the end, only their beginnings have to be related. -/
theorem onOwnNames {left : Action names Unit} {right : Action others Unit}
    (body : Lockstep related left right) {initial : names} {otherInitial : others}
    (starts : related initial otherInitial) {outer outerOthers : Type}
    {around : outer → outerOthers → Prop} :
    Lockstep around (LineScript.onOwnNames initial left)
      (LineScript.onOwnNames otherInitial right) := by
  intro found given alike
  have matched := body ⟨initial, found.events, found.notices⟩
    ⟨otherInitial, given.events, given.notices⟩ ⟨alike.events, starts⟩
  unfold LineScript.onOwnNames
  generalize left ⟨initial, found.events, found.notices⟩ = leftResult at matched
  generalize right ⟨otherInitial, given.events, given.notices⟩ = rightResult at matched
  cases matched with
  | ok alikeEnd => exact .ok ⟨alikeEnd.events, alike.names⟩
  | error alikeEnd => exact .error ⟨alikeEnd.events, alike.names⟩

/-- Notices may differ altogether. -/
theorem forM_note (notices otherNotices : List Notice) :
    Lockstep related (notices.forM LineScript.note : Action names Unit)
      (otherNotices.forM LineScript.note : Action others Unit) := by
  intro found given alike
  rw [forM_note_apply, forM_note_apply]
  exact .ok ⟨alike.events, alike.names⟩

end Lockstep

end LineScript
