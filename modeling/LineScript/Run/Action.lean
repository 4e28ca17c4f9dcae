/-
Actions: the steps of a run. They read and change the names of the program, write to a sink, and
may fail; what was done before a failure stays done.
-/

import LineScript.Eval.Basic
import LineScript.Notice
import LineScript.Run.Sink

namespace LineScript

/-- Why a run stops early: an expression has no value, or the sink failed. -/
inductive RunError where
  | eval (error : EvalError)
  | output (message : String)
deriving DecidableEq

/-- The state of a run: the names of the program, the events and the notices so far. Events and
notices stand with the latest first. -/
structure RunState (names : Type) where
  names : names
  events : List Event
  notices : List Notice

/-- A step of a run. -/
abbrev Action (names : Type) := EStateM RunError (RunState names)

variable {names : Type}

/-! ### Output -/

/-- Adds an event. -/
def emit (event : Event) : Action names Unit :=
  modify fun state => { state with events := event :: state.events }

/-- Adds a notice. -/
def note (notice : Notice) : Action names Unit :=
  modify fun state => { state with notices := notice :: state.notices }

/-- Gives bytes to the sink. What it keeps of them is an event, if it is anything at all. -/
def writeBytes (sink : Sink) (bytes : ByteArray) : Action names Unit := do
  if bytes.isEmpty then return ()
  match sink.write (← get).events bytes with
  | .accepted => emit (.write bytes)
  | .refused kept message =>
    if kept ≠ 0 then emit (.write (bytes.extract 0 kept))
    throw (.output message)

/-- Writes a text. -/
def writeText (sink : Sink) (text : String) : Action names Unit :=
  writeBytes sink text.toUTF8

/-- Writes a text and ends the line. -/
def writeLine (sink : Sink) (text : String) : Action names Unit :=
  writeText sink (text ++ "\n")

/-- Asks the sink to pass on what it holds. A flush that fails is an event too. -/
def flushSink (sink : Sink) : Action names Unit := do
  let failure := sink.flush (← get).events
  emit .flush
  match failure with
  | some message => throw (.output message)
  | none => return ()

/-! ### Evaluation -/

/-- The value of an expression for the statement on a line. -/
def evaluateAt (bindings : names → Bindings) (line : Nat) (expr : String) :
    Action names Value := do
  match evaluate (bindings (← get).names) expr with
  | .ok value => return value
  | .error error => throw (.eval (error.atLine line))

/-- Changes the names of the program. -/
def changeNames (change : names → names) : Action names Unit :=
  modify fun state => { state with names := change state.names }

/-! ### Composition -/

/-- An action done a number of times. -/
def times (action : Action names Unit) : Nat → Action names Unit
  | 0 => return ()
  | count + 1 => do
    action
    times action count

/-- An action followed by a flush, which comes also after a failure. A flush that fails decides
the result. -/
def thenFlush (sink : Sink) (action : Action names Unit) : Action names Unit := fun state =>
  match action state with
  | .ok _ state => flushSink sink state
  | .error error state =>
    match flushSink sink state with
    | .ok _ state => .error error state
    | .error failure state => .error failure state

/-- An action on names of its own, which are given up at the end. -/
def onOwnNames {others : Type} (initial : names) (action : Action names Unit) :
    Action others Unit := fun state =>
  match action ⟨initial, state.events, state.notices⟩ with
  | .ok result final => .ok result ⟨state.names, final.events, final.notices⟩
  | .error error final => .error error ⟨state.names, final.events, final.notices⟩

end LineScript
