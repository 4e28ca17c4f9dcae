/-
This file compares a run into a sink that takes only so many bytes with the run into one that takes
everything. As long as the bytes fit, the two runs are the same. With the first byte that does not
fit, the limited run is over. It has then written what fits, and its error is that of the sink,
whatever the other run goes on to do.

The two runs are compared action by action, from a state where everything fitted so far. The other
run only ever adds to its events, so what a limited run has written stays a first part of what the
other one writes.
-/

import LineScript.Proofs.Store

namespace LineScript

/-! ### Bytes written so far -/

/-- All bytes that events wrote, the latest event standing first in the list. -/
def writtenSoFar (events : List Event) : ByteArray :=
  writtenBytes events.reverse

theorem writtenSoFar_cons (event : Event) (events : List Event) :
    writtenSoFar (event :: events) = writtenSoFar events ++ event.bytes := by
  rw [writtenSoFar, writtenSoFar, writtenBytes, List.reverse_cons, List.foldl_append]
  rfl

theorem writtenSoFar_flush (events : List Event) :
    writtenSoFar (.flush :: events) = writtenSoFar events :=
  (writtenSoFar_cons _ _).trans ByteArray.append_empty

theorem writtenSoFar_append (later events : List Event) :
    writtenSoFar (later ++ events) = writtenSoFar events ++ writtenSoFar later := by
  induction later with
  | nil => exact ByteArray.append_empty.symm
  | cons event later inductionHypothesis =>
    rw [List.cons_append, writtenSoFar_cons, writtenSoFar_cons, inductionHypothesis,
      ByteArray.append_assoc]

theorem size_writtenSoFar (events : List Event) :
    (writtenSoFar events).size = writtenSize events := by
  have total : ∀ start, events.foldl (fun size event => size + event.bytes.size) start =
      start + (writtenSoFar events).size := by
    induction events with
    | nil => exact fun start => rfl
    | cons event events inductionHypothesis =>
      intro start
      rw [List.foldl_cons, inductionHypothesis, writtenSoFar_cons, ByteArray.size_append]
      omega
  rw [writtenSize, total, Nat.zero_add]

/-! ### Limited sinks -/

/-- A sink that takes so many bytes in all. Of bytes that do not fit it keeps what fits and fails,
always with the same message. It never fails to flush. -/
structure Sink.TakesOnly (sink : Sink) (limit : Nat) (message : String) : Prop where
  accepts : ∀ events bytes, bytes.size ≤ limit - writtenSize events →
    sink.write events bytes = .accepted
  refuses : ∀ events bytes, limit - writtenSize events < bytes.size →
    sink.write events bytes = .refused (limit - writtenSize events) message
  flushes : ∀ events, sink.flush events = none

theorem takesOnly_limited (limit : Nat) : (Sink.limited limit).TakesOnly limit "sink full" where
  accepts _ _ fits := if_pos fits
  refuses _ _ exceeds := if_neg (Nat.not_le.mpr exceeds)
  flushes _ := rfl

/-! ### Truncated actions -/

variable {names : Type} {limit : Nat} {message : String} {sink : Sink} {α β : Type}

/-- An action that is cut off at the limit. Where all bytes of the whole action fit, the cut one
does the same. Otherwise it fails, and has written the bytes that fit. -/
structure Truncates (limit : Nat) (message : String) (α : Type) (whole cut : Action names α) :
    Prop where
  grows : ∀ state, state.events <:+ (endState (whole state)).events
  same : ∀ state, writtenSize (endState (whole state)).events ≤ limit → cut state = whole state
  stops : ∀ state, writtenSize state.events ≤ limit →
    limit < writtenSize (endState (whole state)).events →
    ∃ final, cut state = .error (.output message) final ∧
      writtenSoFar final.events = (writtenSoFar (endState (whole state)).events).extract 0 limit

/-- The first bytes do not change when there are more events. -/
theorem extract_writtenSoFar {events later : List Event} (suffix : events <:+ later)
    (filled : limit ≤ writtenSize events) :
    (writtenSoFar later).extract 0 limit = (writtenSoFar events).extract 0 limit := by
  obtain ⟨added, rfl⟩ := suffix
  have nothing : limit - writtenSize events = 0 := Nat.sub_eq_zero_of_le filled
  rw [writtenSoFar_append, ByteArray.extract_append, size_writtenSoFar, nothing]
  have empty : (writtenSoFar added).extract (0 - writtenSize events) 0 = .empty :=
    ByteArray.extract_eq_empty_iff.mpr (by omega)
  rw [empty, ByteArray.append_empty]

theorem writtenSize_le_of_suffix {events later : List Event} (suffix : events <:+ later) :
    writtenSize events ≤ writtenSize later := by
  obtain ⟨added, rfl⟩ := suffix
  rw [← size_writtenSoFar, ← size_writtenSoFar, writtenSoFar_append, ByteArray.size_append]
  exact Nat.le_add_right _ _

theorem extract_of_size_le {bytes : ByteArray} (fits : bytes.size ≤ limit) :
    bytes.extract 0 limit = bytes := by
  have nothing : bytes.extract bytes.size limit = .empty :=
    ByteArray.extract_eq_empty_iff.mpr (Nat.min_le_right _ _)
  rw [ByteArray.extract_eq_extract_append_extract bytes.size (Nat.zero_le _) fits, nothing,
    ByteArray.append_empty, ByteArray.extract_zero_size]

/-- A write that is refused adds what the sink keeps. -/
theorem writtenSoFar_kept (bytes : ByteArray) (kept : Nat) (state : RunState names) :
    writtenSoFar (if kept = 0 then state
      else { state with events := .write (bytes.extract 0 kept) :: state.events }).events =
      writtenSoFar state.events ++ bytes.extract 0 kept := by
  split
  · rename_i full
    have nothing : bytes.extract 0 kept = .empty :=
      ByteArray.extract_eq_empty_iff.mpr (by omega)
    rw [nothing, ByteArray.append_empty]
  · exact writtenSoFar_cons _ _

namespace Truncates

/-- An action that writes no bytes is the same with every limit. -/
theorem of_quiet {whole cut : Action names α} (same : cut = whole)
    (quiet : ∀ state, ∃ added, (endState (whole state)).events = added ++ state.events ∧
      writtenSoFar added = .empty) : Truncates limit message α whole cut where
  grows state := by
    obtain ⟨added, events, -⟩ := quiet state
    exact ⟨added, events.symm⟩
  same state _ := congrFun same state
  stops state fits exceeds := by
    obtain ⟨added, events, nothing⟩ := quiet state
    rw [events, ← size_writtenSoFar, writtenSoFar_append, nothing, ByteArray.append_empty,
      size_writtenSoFar] at exceeds
    exact absurd fits (Nat.not_le.mpr exceeds)

theorem of_silent {action : Action names α}
    (silent : ∀ state, (endState (action state)).events = state.events) :
    Truncates limit message α action action :=
  of_quiet rfl fun state => ⟨[], silent state, rfl⟩

theorem bind {whole cut : Action names α} {wholeNext cutNext : α → Action names β}
    (first : Truncates limit message α whole cut)
    (rest : ∀ value, Truncates limit message β (wholeNext value) (cutNext value)) :
    Truncates limit message β (whole >>= wholeNext) (cut >>= cutNext) := by
  have continued : ∀ state, (endState (whole state)).events <:+
      (endState ((whole >>= wholeNext) state)).events := by
    intro state
    rw [bind_apply]
    cases whole state with
    | ok value middle => exact (rest value).grows middle
    | error error middle => exact List.suffix_refl _
  refine ⟨fun state => (first.grows state).trans (continued state), fun state fits => ?_,
    fun state fits exceeds => ?_⟩
  · have fitsFirst := Nat.le_trans (writtenSize_le_of_suffix (continued state)) fits
    rw [bind_apply] at fits
    rw [bind_apply, bind_apply, first.same state fitsFirst]
    cases ran : whole state with
    | ok value middle =>
      rw [ran] at fits
      exact (rest value).same middle fits
    | error error middle => rfl
  · by_cases fitsFirst : writtenSize (endState (whole state)).events ≤ limit
    · -- All bytes of the first action fit, so the second is cut off.
      rw [bind_apply] at exceeds
      rw [bind_apply, bind_apply, first.same state fitsFirst]
      cases ran : whole state with
      | ok value middle =>
        rw [ran] at exceeds fitsFirst
        exact (rest value).stops middle fitsFirst exceeds
      | error error middle =>
        rw [ran] at exceeds fitsFirst
        exact absurd fitsFirst (Nat.not_le.mpr exceeds)
    · -- The first action is cut off, and the second is never begun.
      have exceedsFirst := Nat.not_le.mp fitsFirst
      obtain ⟨final, stopped, written⟩ := first.stops state fits exceedsFirst
      refine ⟨final, ?_, written.trans ?_⟩
      · rw [bind_apply, stopped]
      · exact (extract_writtenSoFar (continued state) (Nat.le_of_lt exceedsFirst)).symm

/-- Bytes are written as far as they fit. -/
theorem writeBytes (takes : sink.TakesOnly limit message) (bytes : ByteArray) :
    Truncates limit message Unit (LineScript.writeBytes .unlimited bytes : Action names Unit)
      (LineScript.writeBytes sink bytes) := by
  by_cases empty : bytes.isEmpty = true
  · have nothing (sink : Sink) : (LineScript.writeBytes sink bytes : Action names Unit) = pure () :=
      funext fun state => by rw [writeBytes_apply, if_pos empty, pure_apply]
    rw [nothing, nothing]
    exact of_silent fun _ => rfl
  · have whole (state : RunState names) : LineScript.writeBytes .unlimited bytes state =
        .ok () { state with events := .write bytes :: state.events } := by
      rw [writeBytes_apply, if_neg empty]
      rfl
    have size (events : List Event) :
        writtenSize (.write bytes :: events) = writtenSize events + bytes.size := by
      rw [← size_writtenSoFar, writtenSoFar_cons, ByteArray.size_append, size_writtenSoFar]
      rfl
    refine ⟨fun state => ?_, fun state fits => ?_, fun state fits exceeds => ?_⟩
    · rw [whole]
      exact List.suffix_cons _ _
    · rw [whole, endState, size] at fits
      rw [whole, writeBytes_apply, if_neg empty, takes.accepts _ _ (by omega)]
    · rw [whole, endState, size] at exceeds
      rw [whole, writeBytes_apply, if_neg empty, takes.refuses _ _ (by omega)]
      refine ⟨_, rfl, ?_⟩
      have all : (writtenSoFar state.events).extract 0 limit = writtenSoFar state.events :=
        extract_of_size_le (by rw [size_writtenSoFar]; exact fits)
      rw [writtenSoFar_kept, endState, writtenSoFar_cons, Event.bytes, ByteArray.extract_append,
        all, size_writtenSoFar, Nat.zero_sub]

theorem flushSink (takes : sink.TakesOnly limit message) :
    Truncates limit message Unit (LineScript.flushSink .unlimited : Action names Unit)
      (LineScript.flushSink sink) := by
  have same : (LineScript.flushSink sink : Action names Unit) =
      LineScript.flushSink .unlimited :=
    funext fun state => by rw [flushSink_apply, flushSink_apply, takes.flushes]; rfl
  exact of_quiet same fun state => ⟨[.flush], rfl, rfl⟩

/-- The last flush comes also where the action was cut off, and leaves its error. -/
theorem thenFlush (takes : sink.TakesOnly limit message) {whole cut : Action names Unit}
    (body : Truncates limit message Unit whole cut) :
    Truncates limit message Unit (LineScript.thenFlush .unlimited whole)
      (LineScript.thenFlush sink cut) := by
  have ended := events_thenFlush .unlimited whole
  refine ⟨fun state => ?_, fun state fits => ?_, fun state fits exceeds => ?_⟩
  · rw [ended]
    exact (body.grows state).trans (List.suffix_cons _ _)
  · rw [ended] at fits
    rw [thenFlush_apply takes.flushes, thenFlush_apply fun _ => rfl, body.same state fits]
  · rw [ended] at exceeds
    obtain ⟨final, stopped, written⟩ := body.stops state fits exceeds
    refine ⟨{ final with events := .flush :: final.events }, ?_, ?_⟩
    · rw [thenFlush_apply takes.flushes, stopped]
    · rw [ended, writtenSoFar_flush, writtenSoFar_flush, written]

theorem onOwnNames {others : Type} (initial : names) {whole cut : Action names Unit}
    (body : Truncates limit message Unit whole cut) :
    Truncates limit message Unit (LineScript.onOwnNames initial whole : Action others Unit)
      (LineScript.onOwnNames initial cut) := by
  have ended (state : RunState others) := events_onOwnNames initial whole state
  refine ⟨fun state => ?_, fun state fits => ?_, fun state fits exceeds => ?_⟩
  · rw [ended]
    exact body.grows ⟨initial, state.events, state.notices⟩
  · rw [ended] at fits
    unfold LineScript.onOwnNames
    rw [body.same _ fits]
  · rw [ended] at exceeds
    obtain ⟨final, stopped, written⟩ := body.stops _ fits exceeds
    refine ⟨⟨state.names, final.events, final.notices⟩, ?_, ?_⟩
    · unfold LineScript.onOwnNames
      rw [stopped]
    · rw [ended]
      exact written

/-- Being cut off at the limit passes from the steps to the whole run. -/
theorem pervasive (takes : sink.TakesOnly limit message) :
    Pervasive .unlimited sink fun _ α => Truncates limit message α where
  pure _ := of_silent fun _ => rfl
  throw _ := of_silent fun _ => rfl
  bind := bind
  get := of_silent fun _ => rfl
  note _ := of_silent fun _ => rfl
  evaluateAt bindings line expr := of_silent fun state =>
    congrArg RunState.events (endState_evaluateAt bindings line expr state)
  writeText text := writeBytes takes text.toUTF8
  pauseBetween := bind (flushSink takes) fun _ => of_quiet rfl fun _ => ⟨[.pause _], rfl, rfl⟩
  changeNames _ := of_silent fun _ => rfl
  thenFlush := thenFlush takes
  onOwnNames := onOwnNames

end Truncates

/-! ### Truncated runs -/

theorem writtenBytes_ofResult (result : EStateM.Result RunError (RunState names) Unit) :
    writtenBytes (Report.ofResult result).events = writtenSoFar (endState result).events := by
  rw [events_ofResult, writtenSoFar]

/-- The report on an action that is cut off, against that on the whole action. -/
theorem Truncates.report {whole cut : Action names Unit}
    (truncates : Truncates limit message Unit whole cut) {start : RunState names}
    (fresh : start.events = []) :
    let bytes := writtenBytes (Report.ofResult (whole start)).events
    writtenBytes (Report.ofResult (cut start)).events = bytes.extract 0 (min limit bytes.size) ∧
      (bytes.size ≤ limit → Report.ofResult (cut start) = .ofResult (whole start)) ∧
      (limit < bytes.size → (Report.ofResult (cut start)).error? = some (.io message)) := by
  intro bytes
  have size : bytes.size = writtenSize (endState (whole start)).events := by
    rw [← size_writtenSoFar, ← writtenBytes_ofResult]
  by_cases fits : bytes.size ≤ limit
  · have same : cut start = whole start := truncates.same start (size ▸ fits)
    refine ⟨?_, fun _ => congrArg _ same, fun exceeds => absurd fits (Nat.not_le.mpr exceeds)⟩
    rw [same, Nat.min_eq_right fits, ByteArray.extract_zero_size]
  · have exceeds := Nat.not_le.mp fits
    have nothing : writtenSize start.events ≤ limit := by
      rw [fresh]
      exact Nat.zero_le limit
    obtain ⟨final, stopped, written⟩ := truncates.stops start nothing (size ▸ exceeds)
    refine ⟨?_, fun all => absurd all fits, fun _ => ?_⟩
    · rw [Nat.min_eq_left (Nat.le_of_lt exceeds), writtenBytes_ofResult, stopped, endState, written,
        ← writtenBytes_ofResult]
    · rw [stopped]
      rfl

/-- A run into a sink that takes only so many bytes writes the first of the bytes that the run into
an unlimited sink writes, as many as fit. If all of them fit, the two runs are the same. Otherwise
the error is that of the sink, also where the unlimited run ends with an error of its own. -/
theorem runSource_truncated [PatternEngine] (takes : sink.TakesOnly limit message)
    (settings : Settings) (mode : Mode) (listing : Bool) (source : String) :
    let whole := runSource .unlimited settings mode listing source
    let cut := runSource sink settings mode listing source
    let bytes := writtenBytes whole.events
    writtenBytes cut.events = bytes.extract 0 (min limit bytes.size) ∧
      (bytes.size ≤ limit → cut = whole) ∧
      (limit < bytes.size → cut.error? = some (.io message)) := by
  cases parsed : (parseSource settings source).value with
  | error error =>
    -- Nothing is run, so nothing is written, and every limit will do.
    rw [runSource_of_error parsed, runSource_of_error parsed]
    have nothing : ByteArray.empty.extract 0 (min limit 0) = .empty :=
      ByteArray.extract_eq_empty_iff.mpr (Nat.min_le_right _ _)
    exact ⟨nothing.symm, fun _ => rfl, fun exceeds => absurd exceeds (Nat.not_lt_zero limit)⟩
  | ok program =>
    rw [runSource_of_ok parsed, runSource_of_ok parsed]
    exact ((Truncates.pervasive takes).runProgram listing program mode).report rfl

/-- A loop around a tick block, whose frames show one letter each. -/
def repeatedTicks : String :=
  "loop 2\ntick\nshow 'x'\nend\nend"

/-- After 48 bytes the first tick block has ended, and one byte of the line that begins the second
is written. -/
theorem runSource_truncated_repeatedTicks :
    let whole := runSource .unlimited .standard .both true repeatedTicks
    let cut := runSource (.limited 48) .standard .both true repeatedTicks
    writtenBytes cut.events = (writtenBytes whole.events).extract 0 48 ∧
      cut.error? = some (.io "sink full") ∧ whole.error? = none := by
  have exceeds : 48 < (writtenBytes
      (runSource .unlimited .standard .both true repeatedTicks).events).size := by decide +kernel
  obtain ⟨written, -, stopped⟩ :=
    runSource_truncated (takesOnly_limited 48) .standard .both true repeatedTicks
  rw [Nat.min_eq_left (Nat.le_of_lt exceeds)] at written
  exact ⟨written, stopped exceeds, by decide +kernel⟩

end LineScript
