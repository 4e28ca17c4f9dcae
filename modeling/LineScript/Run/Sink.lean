/-
Where output goes. A sink is asked to take bytes or to pass on what it holds, and may refuse
either. How it answers may depend on all that happened before, so a sink is a function of the
events so far. A run keeps its events, the latest first.
-/

namespace LineScript

/-! ### Events -/

/-- What a run does to the outside: it writes bytes, flushes, or pauses. -/
inductive Event where
  | write (bytes : ByteArray)
  | flush
  | pause (milliseconds : Nat)

/-- The bytes of an event. -/
def Event.bytes : Event → ByteArray
  | .write bytes => bytes
  | _ => ByteArray.empty

/-- The number of bytes that events wrote. -/
def writtenSize (events : List Event) : Nat :=
  events.foldl (fun size event => size + event.bytes.size) 0

/-- All bytes that events wrote, the earliest event standing first in the list. -/
def writtenBytes (events : List Event) : ByteArray :=
  events.foldl (fun bytes event => bytes ++ event.bytes) ByteArray.empty

/-- The events with neighbouring writes made one. -/
def mergeWrites : List Event → List Event
  | [] => []
  | .write bytes :: rest =>
    match mergeWrites rest with
    | .write more :: others => .write (bytes ++ more) :: others
    | others => .write bytes :: others
  | event :: rest => event :: mergeWrites rest

/-! ### Sinks -/

/-- How a sink answers when it is given bytes: it takes all, or it keeps a first part and fails. -/
inductive Reply where
  | accepted
  | refused (kept : Nat) (message : String)
deriving DecidableEq, Repr

/-- A sink. Its answers may depend on the events so far, the latest first. A flush answers with
the message of its failure, if it fails. -/
structure Sink where
  write : List Event → ByteArray → Reply
  flush : List Event → Option String

namespace Sink

/-- The sink that takes everything. -/
def unlimited : Sink :=
  ⟨fun _ _ => .accepted, fun _ => none⟩

/-- The sink that takes so many bytes in all and refuses the rest. -/
def limited (limit : Nat) : Sink where
  write events bytes :=
    let room := limit - writtenSize events
    if bytes.size ≤ room then .accepted else .refused room "sink full"
  flush _ := none

/-- The sink that answers writes like another one and fails every flush. -/
def withoutFlush (sink : Sink) : Sink :=
  { sink with flush := fun _ => some "flush failed" }

end Sink

/-! ### Bytes as text -/

/-- The text of bytes that may end inside a character. The beginning of a character that is cut
off shows as one replacement character. -/
def textOfBytes (bytes : ByteArray) : String :=
  match String.fromUTF8? bytes with
  | some text => text
  | none =>
    let cut (length : Nat) := String.fromUTF8? (bytes.extract 0 (bytes.size - length))
    match (cut 1).or ((cut 2).or (cut 3)) with
    | some text => text ++ "\ufffd"
    | none => "\ufffd"

end LineScript
