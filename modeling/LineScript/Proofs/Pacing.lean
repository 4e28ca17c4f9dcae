/-
This file proves that nothing is left unflushed where a run rests. Between two frames it pauses, and
what was written before has then been flushed. At the end, the last thing a run does is to flush,
whether it came to its end or stopped with an error, at whatever depth and in whatever frame.

That pauses come after flushes holds of every action and for every sink: no step of a run breaks it.
That a flush comes last is a property of the parts that end a run, and needs a sink that does not
fail, since a title that cannot be written ends the run before its first part.
-/

import LineScript.Proofs.Store

namespace LineScript

variable {names others α β : Type}

/-! ### Paced events -/

/-- Events, the latest first, in which every pause comes right after a flush. -/
inductive Paced : List Event → Prop
  | nil : Paced []
  | write {earlier : List Event} (bytes : ByteArray) :
      Paced earlier → Paced (.write bytes :: earlier)
  | flush {earlier : List Event} : Paced earlier → Paced (.flush :: earlier)
  | pause {earlier : List Event} (milliseconds : Nat) :
      Paced (.flush :: earlier) → Paced (.pause milliseconds :: .flush :: earlier)

theorem Paced.of_append {later events : List Event} (paced : Paced (later ++ events)) :
    Paced events := by
  induction later with
  | nil => exact paced
  | cons event later inductionHypothesis =>
    refine inductionHypothesis ?_
    rw [List.cons_append] at paced
    generalize later ++ events = earlier at paced ⊢
    cases paced <;> assumption

/-- Read in the order in which they happened, each pause has a flush right before it. -/
theorem Paced.getLast?_eq_flush {events front back : List Event} {milliseconds : Nat}
    (paced : Paced events) (split : events.reverse = front ++ .pause milliseconds :: back) :
    front.getLast? = some .flush := by
  have latestFirst : events = back.reverse ++ .pause milliseconds :: front.reverse := by
    rw [← List.reverse_reverse events, split, List.reverse_append, List.reverse_cons,
      List.append_assoc, List.singleton_append]
  rw [latestFirst] at paced
  have atPause := paced.of_append
  rw [← List.head?_reverse]
  generalize front.reverse = earlier at atPause ⊢
  cases atPause
  exact List.head?_cons

/-! ### Actions that keep the pace -/

/-- An action that keeps events paced, also when it fails. -/
def Paces (action : Action names α) : Prop :=
  ∀ state, Paced state.events → Paced (endState (action state)).events

namespace Paces

theorem of_silent {action : Action names α}
    (silent : ∀ state, (endState (action state)).events = state.events) : Paces action := by
  intro state paced
  rw [silent]
  exact paced

theorem bind {action : Action names α} {next : α → Action names β} (first : Paces action)
    (rest : ∀ value, Paces (next value)) : Paces (action >>= next) := by
  intro state paced
  have middlePaced := first state paced
  rw [bind_apply]
  cases ran : action state with
  | ok value middle =>
    rw [ran] at middlePaced
    exact rest value middle middlePaced
  | error error middle =>
    rw [ran] at middlePaced
    exact middlePaced

theorem writeBytes (sink : Sink) (bytes : ByteArray) :
    Paces (LineScript.writeBytes sink bytes : Action names Unit) := by
  intro state paced
  rw [writeBytes_apply]
  split
  · exact paced
  · split
    · exact .write bytes paced
    · split
      · exact paced
      · exact .write _ paced

/-- The pause comes right after the flush, and does not come where the flush fails. -/
theorem pauseBetween (sink : Sink) : Paces (LineScript.pauseBetween sink : Action names Unit) := by
  intro state paced
  unfold LineScript.pauseBetween
  rw [bind_apply, flushSink_apply]
  cases sink.flush state.events with
  | none => exact .pause tickInterval (.flush paced)
  | some message => exact .flush paced

theorem thenFlush (sink : Sink) {action : Action names Unit} (body : Paces action) :
    Paces (LineScript.thenFlush sink action) := by
  intro state paced
  rw [events_thenFlush]
  exact .flush (body state paced)

theorem onOwnNames (initial : names) {action : Action names Unit} (body : Paces action) :
    Paces (LineScript.onOwnNames initial action : Action others Unit) := by
  intro state paced
  rw [events_onOwnNames]
  exact body _ paced

theorem pervasive (sink : Sink) : Pervasive sink sink fun _ _ action _ => Paces action where
  pure _ := of_silent fun _ => rfl
  throw _ := of_silent fun _ => rfl
  bind := bind
  get := of_silent fun _ => rfl
  note _ := of_silent fun _ => rfl
  evaluateAt bindings line expr := of_silent fun state =>
    congrArg RunState.events (endState_evaluateAt bindings line expr state)
  writeText text := writeBytes sink text.toUTF8
  pauseBetween := pauseBetween sink
  changeNames _ := of_silent fun _ => rfl
  thenFlush := thenFlush sink
  onOwnNames initial _ _ body := onOwnNames initial body

end Paces

/-! ### Actions that end with a flush -/

/-- The last event is a flush. -/
def IsFlushed (state : RunState names) : Prop :=
  state.events.head? = some .flush

/-- An action that leaves nothing unflushed, also when it fails. -/
def EndsFlushed (action : Action names α) : Prop :=
  ∀ state, IsFlushed (endState (action state))

/-- An action that leaves nothing unflushed when it fails. -/
def FailsFlushed (action : Action names α) : Prop :=
  ∀ state error final, action state = .error error final → IsFlushed final

theorem EndsFlushed.failsFlushed {action : Action names α} (ends : EndsFlushed action) :
    FailsFlushed action := by
  intro state error final failed
  have flushed := ends state
  rw [failed] at flushed
  exact flushed

namespace FailsFlushed

/-- An action that does not fail. -/
theorem of_succeeds {action : Action names α}
    (succeeds : ∀ state, ∃ value final, action state = .ok value final) : FailsFlushed action := by
  intro state error final failed
  obtain ⟨value, other, succeeded⟩ := succeeds state
  rw [succeeded] at failed
  cases failed

theorem writeText (text : String) :
    FailsFlushed (LineScript.writeText .unlimited text : Action names Unit) := by
  refine of_succeeds fun state => ?_
  unfold LineScript.writeText
  rw [writeBytes_apply]
  split
  · exact ⟨_, _, rfl⟩
  · exact ⟨_, _, rfl⟩

theorem forM_note (notices : List Notice) :
    FailsFlushed (notices.forM LineScript.note : Action names Unit) := by
  refine of_succeeds fun state => ?_
  induction notices generalizing state with
  | nil => exact ⟨_, _, rfl⟩
  | cons notice rest inductionHypothesis => exact inductionHypothesis _

end FailsFlushed

namespace EndsFlushed

theorem thenFlush (sink : Sink) (action : Action names Unit) :
    EndsFlushed (LineScript.thenFlush sink action) := by
  intro state
  rw [IsFlushed, events_thenFlush, List.head?_cons]

theorem onOwnNames (initial : names) {action : Action names Unit} (body : EndsFlushed action) :
    EndsFlushed (LineScript.onOwnNames initial action : Action others Unit) := by
  intro state
  rw [IsFlushed, events_onOwnNames]
  exact body _

/-- What comes last decides, if nothing before it fails with something unflushed. -/
theorem after {action : Action names α} {next : α → Action names β} (first : FailsFlushed action)
    (rest : ∀ value, EndsFlushed (next value)) : EndsFlushed (action >>= next) := by
  intro state
  rw [bind_apply]
  cases ran : action state with
  | ok value middle => exact rest value middle
  | error error middle => exact first state error middle ran

theorem treePart (sink : Sink) (program : Program) :
    EndsFlushed (LineScript.treePart sink program) :=
  onOwnNames _ (thenFlush sink _)

theorem machinePart (listing : Bool) (program : Program) :
    EndsFlushed (LineScript.machinePart .unlimited listing program) := by
  have chunk : EndsFlushed (LineScript.runChunk .unlimited (compile program).value) :=
    after (FailsFlushed.of_succeeds fun _ => ⟨_, _, rfl⟩) fun _ => thenFlush .unlimited _
  have ran : EndsFlushed (LineScript.onOwnNames Table.empty _ : Action Unit Unit) :=
    onOwnNames Table.empty chunk
  refine after (FailsFlushed.forM_note _) fun _ => ?_
  cases listing with
  | false => exact ran
  | true =>
    exact after (FailsFlushed.writeText _) fun _ => after (FailsFlushed.writeText _) fun _ => ran

/-- Every mode ends with a flush. Where the first of two parts fails, it has flushed as well. -/
theorem runProgram (listing : Bool) (program : Program) (mode : Mode) :
    EndsFlushed (LineScript.runProgram .unlimited listing program mode) := by
  have tree := treePart .unlimited program
  have machine := machinePart listing program
  cases mode with
  | tree => exact tree
  | machine => exact machine
  | both =>
    exact after (FailsFlushed.writeText _) fun _ => after tree.failsFlushed fun _ =>
      after (FailsFlushed.writeText _) fun _ => machine

end EndsFlushed

/-! ### Runs -/

/-- If a source is a program, then running it into a sink that does not fail ends with a flush,
whether the run comes to its end or stops with an error, and each of its pauses comes right after a
flush. -/
theorem runSource_flushes [PatternEngine] {settings : Settings} {source : String}
    {program : Program} (parsed : (parseSource settings source).value = .ok program)
    (mode : Mode) (listing : Bool) :
    let events := (runSource .unlimited settings mode listing source).events
    events.getLast? = some .flush ∧
      ∀ front milliseconds back, events = front ++ .pause milliseconds :: back →
        front.getLast? = some .flush := by
  intro events
  have latestFirst : events.reverse = (endState (runProgram .unlimited listing program mode
      ⟨(), [], (parseSource settings source).notices.reverse⟩)).events := by
    rw [← List.reverse_reverse (endState _).events, ← events_ofResult, ← runSource_of_ok parsed]
  refine ⟨?_, fun front milliseconds back split => ?_⟩
  · rw [← List.head?_reverse, latestFirst]
    exact EndsFlushed.runProgram listing program mode _
  · have paces := (Paces.pervasive .unlimited).runProgram listing program mode
    have paced : Paced events.reverse := latestFirst ▸ paces ⟨(), [], _⟩ .nil
    rw [← List.reverse_reverse events] at split
    exact paced.getLast?_eq_flush split

/-- A tick block whose second frame divides by zero. -/
def failingFrame : String :=
  "set n = 1\ntick\nshow 1 / n\nset n = 0\nend"

theorem runSource_flushes_failingFrame :
    let report := runSource .unlimited .standard .both true failingFrame
    report.error?.isSome = true ∧ report.events.getLast? = some .flush ∧
      ∃ front milliseconds back, report.events = front ++ .pause milliseconds :: back ∧
        front.getLast? = some .flush := by
  have parses : (parseSource .standard failingFrame).value.isOk = true := by decide +kernel
  have runs : ((runSource .unlimited .standard .both true failingFrame).error?.isSome &&
      (runSource .unlimited .standard .both true failingFrame).events.any (· matches .pause _)) =
      true := by decide +kernel
  obtain ⟨failed, rests⟩ := (Bool.and_eq_true _ _).mp runs
  cases parsed : (parseSource .standard failingFrame).value with
  | error error =>
    rw [parsed] at parses
    cases parses
  | ok program =>
    obtain ⟨last, pauses⟩ := runSource_flushes parsed .both true
    obtain ⟨event, member, isPause⟩ := List.any_eq_true.mp rests
    obtain ⟨front, back, split⟩ := List.append_of_mem member
    cases event with
    | write bytes => cases isPause
    | flush => cases isPause
    | pause milliseconds =>
      exact ⟨failed, last, front, milliseconds, back, split, pauses _ _ _ split⟩

end LineScript
