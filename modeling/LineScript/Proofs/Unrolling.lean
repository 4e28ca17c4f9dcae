/-
This file says that loops and branches may be written out. A loop whose count is a literal runs as
so many copies of its body in its place, and a branch whose condition is a literal other than zero
runs as its body. Both hold wherever the statement stands: running a list of statements is running
its parts one after the other, and what a block does depends on its body only by how the body runs.
So the two programs are the same action, whatever the sink does and wherever a run fails.
-/

import LineScript.Proofs.Action
import LineScript.Proofs.WholeText
import LineScript.Run.Tree

namespace LineScript

open Number Text

/-! ### Literals -/

/-- The number that a text spells as a whole literal, blanks around it aside: digits, and
underscores after the first of them. -/
def literal? (text : String) : Option Nat :=
  match (trim text).toList with
  | [] => none
  | first :: rest =>
    if isAsciiDigit first && rest.all isWholeChar then
      some (digitsValue (first :: rest.filter isAsciiDigit))
    else none

/-- A text that is the literal of a 64-bit number. -/
structure IsLiteral (text : String) (n : Nat) : Prop where
  literal : literal? text = some n
  fits : n < 2 ^ 63

namespace IsLiteral

variable {text : String} {n : Nat} (isLiteral : IsLiteral text n)

include isLiteral

theorem toInt_ofInt : (Int64.ofInt n).toInt = n := by
  have fits := isLiteral.fits
  refine toInt_ofInt_of_fits ?_
  unfold Fits
  omega

theorem exists_digits :
    ∃ first rest, (trim text).toList = first :: rest ∧ isAsciiDigit first = true ∧
      rest.all isWholeChar = true ∧ digitsValue (first :: rest.filter isAsciiDigit) = n := by
  have literal := isLiteral.literal
  unfold literal? at literal
  split at literal
  · cases literal
  · rename_i first rest chars
    split at literal
    · rename_i shape
      obtain ⟨digit, others⟩ := (Bool.and_eq_true _ _).mp shape
      exact ⟨first, rest, chars, digit, others, Option.some.inj literal⟩
    · cases literal

/-- A literal has its number as its value, whatever is bound. -/
theorem evaluate_eq (bindings : Bindings) :
    evaluate bindings text = .ok (.int (Int64.ofInt n)) := by
  obtain ⟨first, rest, chars, digit, others, value⟩ := isLiteral.exists_digits
  have digits : (first :: rest.filter isAsciiDigit).all isAsciiDigit = true := by
    rw [List.all_cons, digit, Bool.true_and]
    exact List.all_eq_true.mpr fun _ member => (List.mem_filter.mp member).2
  have reads : readWhole? (first :: rest.filter isAsciiDigit) = some (Int64.ofInt n) := by
    rw [readWhole?_of_isAsciiDigit digit, readDigits?, if_pos ⟨List.cons_ne_nil _ _, digits⟩, value,
      Option.bind_some, ← isLiteral.toInt_ofInt, fit?_toInt, Int64.ofInt_toInt]
  have unquoted : quoted? (trim text) = none := by
    rw [quoted?, chars]
    split
    · rename_i same
      cases same
      cases digit
    · rfl
  have walk := (isLexeme_digits digit others reads).scans .origin
  rw [← chars] at walk
  rw [evaluate, evaluateTrimmed, unquoted, parseExpr_of_scans walk]
  rfl

/-- So the steps that evaluate it do nothing else. -/
theorem evaluateAt_eq {names : Type} (bindings : names → Bindings) (line : Nat) :
    evaluateAt bindings line text = pure (.int (Int64.ofInt n)) := by
  funext state
  rw [evaluateAt_apply, isLiteral.evaluate_eq]
  rfl

theorem loopCount_eq (line : Nat) : loopCount line text = pure n := by
  rw [loopCount, isLiteral.evaluateAt_eq, pure_bind]
  simp only [Value.count, isLiteral.toInt_ofInt, Int.toNat_natCast]

theorem isTruthy_iff : (Value.int (Int64.ofInt n)).isTruthy = true ↔ n ≠ 0 := by
  have value := isLiteral.toInt_ofInt
  rw [Value.isTruthy, bne_iff_ne, ← Int64.toInt_inj.ne, value]
  exact Int.natCast_ne_zero

end IsLiteral

/-! ### Statements in a row -/

theorem Stmt.runAll_append (sink : Sink) (front back : List Stmt) :
    Stmt.runAll sink (front ++ back) = (do
      Stmt.runAll sink front
      Stmt.runAll sink back) := by
  induction front with
  | nil => exact (pure_bind _ _).symm
  | cons first rest inductionHypothesis =>
    rw [List.cons_append, Stmt.runAll, Stmt.runAll, inductionHypothesis, bind_assoc]

/-- Running statements a number of times is running so many copies of them. -/
theorem Stmt.times_runAll (sink : Sink) (body : List Stmt) (count : Nat) :
    times (Stmt.runAll sink body) count =
      Stmt.runAll sink (List.replicate count body).flatten := by
  induction count with
  | zero => rw [times, List.replicate_zero, List.flatten_nil, Stmt.runAll]
  | succ count inductionHypothesis =>
    rw [times, inductionHypothesis, List.replicate_succ, List.flatten_cons, Stmt.runAll_append]

/-- A statement may be replaced by statements that run as it does. -/
theorem Stmt.runAll_splice {sink : Sink} {stmt : Stmt} {others : List Stmt}
    (same : stmt.run sink = Stmt.runAll sink others) (before after : List Stmt) :
    Stmt.runAll sink (before ++ stmt :: after) =
      Stmt.runAll sink (before ++ (others ++ after)) := by
  rw [Stmt.runAll_append, Stmt.runAll_append, Stmt.runAll_append, Stmt.runAll, same]

/-! ### Unrolling -/

/-- One statement of a program is written out: a loop with a literal as its count by copies of its
body, or a branch with a literal other than zero as its condition by its body. It stands between
others, and these may stand inside any block. -/
inductive Unrolls : Program → Program → Prop
  | loop (before after : List Stmt) (line : Nat) (body : List Stmt) {count : String} {n : Nat}
      (isLiteral : IsLiteral count n) :
      Unrolls (before ++ .block line (.loop count) body :: after)
        (before ++ ((List.replicate n body).flatten ++ after))
  | branch (before after : List Stmt) (line : Nat) (body : List Stmt) {condition : String}
      {n : Nat} (isLiteral : IsLiteral condition n) (holds : n ≠ 0) :
      Unrolls (before ++ .block line (.branch condition) body :: after)
        (before ++ (body ++ after))
  | inside (before after : List Stmt) (line : Nat) (header : Header) {body unrolled : List Stmt}
      (unrolls : Unrolls body unrolled) :
      Unrolls (before ++ .block line header body :: after)
        (before ++ .block line header unrolled :: after)

theorem run_loop_of_isLiteral {count : String} {n : Nat} (isLiteral : IsLiteral count n)
    (sink : Sink) (line : Nat) (body : List Stmt) :
    (Stmt.block line (.loop count) body).run sink =
      Stmt.runAll sink (List.replicate n body).flatten := by
  rw [Stmt.run, Header.run, isLiteral.loopCount_eq, pure_bind, Stmt.times_runAll]

theorem run_branch_of_isLiteral {condition : String} {n : Nat} (isLiteral : IsLiteral condition n)
    (holds : n ≠ 0) (sink : Sink) (line : Nat) (body : List Stmt) :
    (Stmt.block line (.branch condition) body).run sink = Stmt.runAll sink body := by
  rw [Stmt.run, Header.run, isLiteral.evaluateAt_eq, pure_bind,
    if_pos (isLiteral.isTruthy_iff.mpr holds)]

/-- A program and what it unrolls to run alike. -/
theorem Unrolls.runAll_eq {program unrolled : Program} (unrolls : Unrolls program unrolled)
    (sink : Sink) : Stmt.runAll sink program = Stmt.runAll sink unrolled := by
  -- A header sees its body as one action, so every header is the same case.
  induction unrolls with
  | loop before after line body isLiteral =>
    exact Stmt.runAll_splice (run_loop_of_isLiteral isLiteral sink line body) before after
  | branch before after line body isLiteral holds =>
    exact Stmt.runAll_splice (run_branch_of_isLiteral isLiteral holds sink line body) before after
  | inside before after line header _ inductionHypothesis =>
    rw [Stmt.runAll_append, Stmt.runAll_append, Stmt.runAll, Stmt.runAll, Stmt.run, Stmt.run,
      inductionHypothesis]

/-- Writing out a loop or a branch changes nothing about a run, at any depth, from any state and for
any sink: its events, its result and the environment that it leaves stay the same. -/
theorem unrolling_preserves_runs {program unrolled : Program} (unrolls : Unrolls program unrolled)
    (sink : Sink) (state : RunState Environment) :
    runTree sink program state = runTree sink unrolled state := by
  rw [runTree, runTree, unrolls.runAll_eq sink]

/-- A loop in the frames of a tick block that doubles a variable and shows it. In the second frame
the sink is full. -/
theorem unrolling_preserves_full_sink :
    Unrolls
        [.assign 1 "x" "1", .block 2 .tick
          [.block 3 (.loop "0_2") [.assign 4 "x" "x + x", .print 5 "x"], .print 7 "'next'"]]
        [.assign 1 "x" "1", .block 2 .tick
          [.assign 4 "x" "x + x", .print 5 "x", .assign 4 "x" "x + x", .print 5 "x",
            .print 7 "'next'"]] ∧
      runTree (.limited 40)
          [.assign 1 "x" "1", .block 2 .tick
            [.block 3 (.loop "0_2") [.assign 4 "x" "x + x", .print 5 "x"], .print 7 "'next'"]]
          ⟨.empty, [], []⟩ =
        runTree (.limited 40)
          [.assign 1 "x" "1", .block 2 .tick
            [.assign 4 "x" "x + x", .print 5 "x", .assign 4 "x" "x + x", .print 5 "x",
              .print 7 "'next'"]]
          ⟨.empty, [], []⟩ :=
  have isLiteral : IsLiteral "0_2" 2 := ⟨by decide +kernel, by decide⟩
  have unrolls := Unrolls.inside [.assign 1 "x" "1"] [] 2 .tick
    (.loop [] [.print 7 "'next'"] 3 [.assign 4 "x" "x + x", .print 5 "x"] isLiteral)
  ⟨unrolls, unrolling_preserves_runs unrolls (.limited 40) ⟨.empty, [], []⟩⟩

end LineScript
