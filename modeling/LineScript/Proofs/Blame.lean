/-
This file shows that the parser blames the first token that cannot be right. While tokens come in,
what matters of those before is little: whether an operand has to start or has just ended, and which
brackets are still open. This is the prospect that the tokens leave, and every further token either
leads to another prospect or is refused. Every prospect can be completed.

The parser is compared with the prospects. Tokens that it takes for an expression lead from one to
the next, and where it fails, the tokens in front lead to a prospect that refuses the one it points
at. So the tokens in front can still become an expression, but not together with this one.
-/

import LineScript.Proofs.Derivation

namespace LineScript

/-! ### Prospects -/

/-- What an open parenthesis belongs to. -/
inductive Bracket where
  | group
  | call
deriving DecidableEq, Repr

/-- Where the next token stands: where an operand has to start, behind the parenthesis of a call,
behind the point of a field, behind a name, or behind any other operand. -/
inductive Slot where
  | operand
  | firstArgument
  | field
  | name
  | done
deriving DecidableEq, Repr

/-- Whether an operand has just ended. -/
def Slot.hasEnded : Slot → Bool
  | .name => true
  | .done => true
  | _ => false

/-- What the tokens so far leave open: where the next one stands, and the parentheses that are still
to be closed, the innermost first. -/
structure Prospect where
  slot : Slot
  brackets : List Bracket
deriving DecidableEq, Repr

/-- The prospect after a token with which an operand starts. -/
def operandStep (brackets : List Bracket) (kind : TokenKind) : Option Prospect :=
  if kind.isLiteral then some ⟨.done, brackets⟩
  else if kind.isSign then some ⟨.operand, brackets⟩
  else
    match kind with
    | .name _ => some ⟨.name, brackets⟩
    | .symbol .leftParen => some ⟨.operand, .group :: brackets⟩
    | _ => none

/-- The prospect after a token behind an operand. -/
def joinStep (brackets : List Bracket) (kind : TokenKind) : Option Prospect :=
  if kind.isInfix then some ⟨.operand, brackets⟩
  else
    match kind, brackets with
    | .symbol .rightParen, _ :: outer => some ⟨.done, outer⟩
    | .symbol .comma, .call :: _ => some ⟨.operand, brackets⟩
    | _, _ => none

namespace Prospect

/-- The prospect after one more token, if the token may stand there. -/
def step (prospect : Prospect) (kind : TokenKind) : Option Prospect :=
  match prospect.slot with
  | .operand => operandStep prospect.brackets kind
  | .firstArgument =>
    if kind = .symbol .rightParen then joinStep prospect.brackets kind
    else operandStep prospect.brackets kind
  | .field =>
    match kind with
    | .name _ => some ⟨.done, prospect.brackets⟩
    | _ => none
  | .name =>
    if kind = .symbol .leftParen then some ⟨.firstArgument, .call :: prospect.brackets⟩
    else if kind = .symbol .dot then some ⟨.field, prospect.brackets⟩
    else joinStep prospect.brackets kind
  | .done => joinStep prospect.brackets kind

/-- The prospect after some more tokens. -/
def run : Prospect → List TokenKind → Option Prospect
  | prospect, [] => some prospect
  | prospect, kind :: rest =>
    match prospect.step kind with
    | none => none
    | some next => next.run rest

/-- The prospect before the first token. -/
def start : Prospect := ⟨.operand, []⟩

/-- The tokens so far are an expression. -/
def Complete (prospect : Prospect) : Prop :=
  prospect.brackets = [] ∧ prospect.slot.hasEnded = true

/-- What comes next is refused: the first token, or the end if there is none. -/
def Refuses (prospect : Prospect) : List TokenKind → Prop
  | [] => ¬ prospect.Complete
  | kind :: _ => prospect.step kind = none

theorem refuses_end {slot : Slot} (unfinished : slot.hasEnded = false) (brackets : List Bracket) :
    Refuses ⟨slot, brackets⟩ [] :=
  fun complete => Bool.false_ne_true (unfinished.symm.trans complete.2)

theorem run_cons {prospect next : Prospect} {kind : TokenKind}
    (leads : prospect.step kind = some next) (rest : List TokenKind) :
    prospect.run (kind :: rest) = next.run rest := by
  rw [run, leads]

theorem run_append {prospect next : Prospect} {front : List TokenKind}
    (leads : prospect.run front = some next) (back : List TokenKind) :
    prospect.run (front ++ back) = next.run back := by
  induction front generalizing prospect with
  | nil =>
    cases leads
    rfl
  | cons kind front inductionHypothesis =>
    rw [run] at leads
    split at leads
    · cases leads
    · rename_i found
      rw [List.cons_append, run_cons found, inductionHypothesis leads]

/-- A row that leads on to its end is not refused anywhere before. -/
theorem not_refuses {prospect middle last : Prospect} {front back : List TokenKind}
    (leads : prospect.run front = some middle) (goesOn : prospect.run (front ++ back) = some last)
    (complete : last.Complete) : ¬ middle.Refuses back := by
  rw [run_append leads] at goesOn
  cases back with
  | nil =>
    cases goesOn
    exact fun refuses => refuses complete
  | cons kind back =>
    intro refuses
    rw [run, show middle.step kind = none from refuses] at goesOn
    cases goesOn

/-! ### Every prospect can be completed -/

/-- Behind an operand, parentheses can be closed until none is open. -/
theorem exists_closing (slot : Slot) (ended : slot.hasEnded = true) (brackets : List Bracket) :
    ∃ more last, run ⟨slot, brackets⟩ more = some last ∧ last.Complete := by
  induction brackets generalizing slot with
  | nil => exact ⟨[], _, rfl, rfl, ended⟩
  | cons bracket brackets inductionHypothesis =>
    obtain ⟨more, last, leads, complete⟩ := inductionHypothesis .done rfl
    refine ⟨.symbol .rightParen :: more, last, ?_, complete⟩
    cases slot with
    | name => exact leads
    | done => exact leads
    | _ => cases ended

theorem exists_completion (prospect : Prospect) :
    ∃ more last, prospect.run more = some last ∧ last.Complete := by
  obtain ⟨slot, brackets⟩ := prospect
  obtain ⟨more, last, leads, complete⟩ := exists_closing .done rfl brackets
  cases slot with
  | operand => exact ⟨.bool true :: more, last, leads, complete⟩
  | firstArgument => exact ⟨.bool true :: more, last, leads, complete⟩
  | field => exact ⟨.name "x" :: more, last, leads, complete⟩
  | name => exact exists_closing .name rfl brackets
  | done => exact ⟨more, last, leads, complete⟩

end Prospect

/-! ### Tokens that are taken -/

/-- An operand ends in front of these tokens. They do not belong to it if it is a name. -/
def Slot.EndsAt (slot : Slot) (kinds : List TokenKind) : Prop :=
  slot = .done ∨ slot = .name ∧ Separates kinds

/-- The token behind an operand. -/
theorem Slot.EndsAt.step_eq {slot : Slot} {kind : TokenKind} {kinds : List TokenKind}
    (ends : slot.EndsAt (kind :: kinds)) (brackets : List Bracket) :
    Prospect.step ⟨slot, brackets⟩ kind = joinStep brackets kind := by
  rcases ends with rfl | ⟨rfl, apart⟩
  · rfl
  · have noCall : kind ≠ .symbol .leftParen := fun same => apart.1 (congrArg some same)
    have noField : kind ≠ .symbol .dot := fun same => apart.2 (congrArg some same)
    exact (if_neg noCall).trans (if_neg noField)

theorem Slot.EndsAt.complete {slot : Slot} {kinds : List TokenKind} (ends : slot.EndsAt kinds) :
    Prospect.Complete ⟨slot, []⟩ := by
  rcases ends with rfl | ⟨rfl, -⟩
  · exact ⟨rfl, rfl⟩
  · exact ⟨rfl, rfl⟩

/-- The first tokens lead from a prospect to the end of an operand, with the second ones behind them
and the same parentheses open. -/
def Passes (prospect : Prospect) (own rest : List Token) : Prop :=
  ∃ slot : Slot, slot.EndsAt (kindsOf rest) ∧
    prospect.run (kindsOf own) = some ⟨slot, prospect.brackets⟩

theorem Prospect.run_kindsOf_append {prospect next : Prospect} {front : List Token}
    (leads : prospect.run (kindsOf front) = some next) (back : List Token) :
    prospect.run (kindsOf (front ++ back)) = next.run (kindsOf back) := by
  rw [kindsOf, List.map_append]
  exact Prospect.run_append leads _

/-- Behind an operand, a token may lead on to more. -/
theorem Passes.join {prospect next : Prospect} {token : Token} {front rest : List Token}
    (first : Passes prospect front (token :: rest))
    (leads : joinStep prospect.brackets token.kind = some next) (back : List Token) :
    prospect.run (kindsOf (front ++ token :: back)) = next.run (kindsOf back) := by
  obtain ⟨slot, ends, goes⟩ := first
  rw [Prospect.run_kindsOf_append goes, kindsOf_cons,
    Prospect.run_cons ((ends.step_eq _).trans leads)]

theorem joinStep_operator (operator : Operator) (brackets : List Bracket) :
    joinStep brackets operator.kind = some ⟨.operand, brackets⟩ :=
  if_pos operator.isInfix_kind

/-- Behind the parenthesis of a call, a token that does not close it starts an operand. -/
theorem Prospect.run_firstArgument {brackets : List Bracket} {kind : TokenKind}
    (opens : kind ≠ .symbol .rightParen) (kinds : List TokenKind) :
    run ⟨.firstArgument, brackets⟩ (kind :: kinds) = run ⟨.operand, brackets⟩ (kind :: kinds) := by
  have same : step ⟨.firstArgument, brackets⟩ kind = step ⟨.operand, brackets⟩ kind := if_neg opens
  rw [run, run, same]

/-- The tokens that a reading takes lead to the end of an operand. -/
def Construct.Passed (own rest : List Token) : Construct → Prop
  | .operand _ => ∀ brackets, Passes ⟨.operand, brackets⟩ own rest
  | .growing _ _ => ∀ brackets, Passes ⟨.operand, brackets⟩ own rest
  | .expression _ _ => ∀ brackets, Passes ⟨.operand, brackets⟩ own rest
  | .links _ => ∀ (slot : Slot) (brackets : List Bracket), slot.EndsAt (kindsOf (own ++ rest)) →
      Passes ⟨slot, brackets⟩ own rest
  | .arguments _ => ∀ brackets, Passes ⟨.operand, .call :: brackets⟩ own rest

theorem Reads.passed {construct : Construct} {own rest : List Token}
    (reads : Reads construct own rest) : construct.Passed own rest := by
  induction reads with
  | int n span rest => exact fun brackets => ⟨.done, .inl rfl, rfl⟩
  | float x span rest => exact fun brackets => ⟨.done, .inl rfl, rfl⟩
  | string text span rest => exact fun brackets => ⟨.done, .inl rfl, rfl⟩
  | bool b span rest => exact fun brackets => ⟨.done, .inl rfl, rfl⟩
  | var name span apart => exact fun brackets => ⟨.name, .inr ⟨rfl, apart⟩, rfl⟩
  | member record field first dot last rest => exact fun brackets => ⟨.done, .inl rfl, rfl⟩
  | emptyCall function first opens last rest => exact fun brackets => ⟨.done, .inl rfl, rfl⟩
  | @call function first opens last values own rest inner inductionHypothesis =>
    intro brackets
    obtain ⟨token, more, rfl, starts⟩ := inner.openedBy
    refine ⟨.done, .inl rfl, ?_⟩
    have closed := (inductionHypothesis brackets).join rfl []
    exact (Prospect.run_firstArgument starts _).trans closed
  | @group opens last expr own rest inner inductionHypothesis =>
    intro brackets
    exact ⟨.done, .inl rfl, (inductionHypothesis (.group :: brackets)).join rfl []⟩
  | @signed sign span expr own rest inner inductionHypothesis =>
    intro brackets
    obtain ⟨slot, ends, leads⟩ := inductionHypothesis brackets
    refine ⟨slot, ends, ?_⟩
    cases sign <;> exact leads
  | start _ _ inductionHypothesis => exact inductionHypothesis
  | joined operator plain span _ _ _ first second =>
    intro brackets
    obtain ⟨slot, ends, leads⟩ := second brackets
    exact ⟨slot, ends, ((first brackets).join (joinStep_operator operator brackets) _).trans leads⟩
  | @compared relation level span left right links front middle back rest _ _ _ _ first second
      others =>
    intro brackets
    obtain ⟨slot, ends, leads⟩ := second brackets
    obtain ⟨last, endsLast, leadsOn⟩ := others slot brackets ends
    refine ⟨last, endsLast, ((first brackets).join rfl _).trans ?_⟩
    rw [Prospect.run_kindsOf_append leads]
    exact leadsOn
  | whole _ _ inductionHypothesis => exact inductionHypothesis
  | noLinks _ => exact fun slot brackets ends => ⟨slot, ends, rfl⟩
  | @link relation span expr links front back rest _ _ first others =>
    intro slot brackets starts
    obtain ⟨middle, ends, leads⟩ := first brackets
    obtain ⟨last, endsLast, leadsOn⟩ := others middle brackets ends
    refine ⟨last, endsLast, ?_⟩
    rw [kindsOf_cons, Prospect.run_cons (starts.step_eq brackets),
      Prospect.run_kindsOf_append leads]
    exact leadsOn
  | lastArgument _ _ inductionHypothesis => exact fun brackets => inductionHypothesis _
  | moreArguments span _ _ first others =>
    intro brackets
    obtain ⟨slot, ends, leads⟩ := others brackets
    exact ⟨slot, ends, ((first _).join rfl _).trans leads⟩

/-! ### Where the parser fails -/

/-- An error points at the first token, or the end, that cannot follow from a prospect on. -/
def Blames (stop : Span) (prospect : Prospect) (tokens : List Token) (error : ExprError) : Prop :=
  ∃ front rest last, tokens = front ++ rest ∧ error.span = nextSpan stop rest ∧
    prospect.run (kindsOf front) = some last ∧ last.Refuses (kindsOf rest)

namespace Blames

variable {stop : Span} {prospect next : Prospect} {tokens : List Token} {error : ExprError}

theorem here (points : error.span = nextSpan stop tokens)
    (refuses : prospect.Refuses (kindsOf tokens)) : Blames stop prospect tokens error :=
  ⟨[], tokens, prospect, rfl, points, rfl, refuses⟩

theorem behind {front : List Token} (leads : prospect.run (kindsOf front) = some next)
    (blames : Blames stop next tokens error) : Blames stop prospect (front ++ tokens) error := by
  obtain ⟨middle, rest, last, rfl, points, goes, refuses⟩ := blames
  refine ⟨front ++ middle, rest, last, (List.append_assoc _ _ _).symm, points, ?_, refuses⟩
  rw [Prospect.run_kindsOf_append leads, goes]

theorem behindToken {token : Token} (leads : prospect.step token.kind = some next)
    (blames : Blames stop next tokens error) : Blames stop prospect (token :: tokens) error := by
  have leadsAlone : prospect.run (kindsOf [token]) = some next := Prospect.run_cons leads []
  exact behind leadsAlone blames

/-- Where an operand has to start, the end is refused. -/
theorem atEnd (points : error.span = stop) (brackets : List Bracket) :
    Blames stop ⟨.operand, brackets⟩ [] error :=
  .here points (Prospect.refuses_end rfl brackets)

/-- An error behind the parenthesis of a call, if the call is not closed at once. -/
theorem firstArgument {brackets : List Bracket}
    (opens : (kindsOf tokens).head? ≠ some (.symbol .rightParen))
    (blames : Blames stop ⟨.operand, brackets⟩ tokens error) :
    Blames stop ⟨.firstArgument, brackets⟩ tokens error := by
  obtain ⟨front, rest, last, rfl, points, goes, refuses⟩ := blames
  cases front with
  | nil =>
    cases goes
    refine .here points ?_
    cases rest with
    | nil => exact Prospect.refuses_end rfl brackets
    | cons token rest =>
      have other : token.kind ≠ .symbol .rightParen := fun same => opens (congrArg some same)
      exact (if_neg other).trans refuses
  | cons token front =>
    have other : token.kind ≠ .symbol .rightParen := fun same => opens (congrArg some same)
    exact ⟨token :: front, rest, last, rfl, points,
      (Prospect.run_firstArgument other _).trans goes, refuses⟩

end Blames

/-- The closing parenthesis that is missing. -/
theorem closing_eq_error {stop : Span} {tokens : List Token} {error : ExprError}
    (failed : closing stop tokens = .error error) :
    error.span = nextSpan stop tokens ∧
      (kindsOf tokens).head? ≠ some (.symbol .rightParen) := by
  unfold closing at failed
  split at failed
  · cases failed
    exact ⟨rfl, fun head => Option.some_ne_none _ head.symm⟩
  · rename_i token rest
    split at failed
    · cases failed
    · rename_i other
      cases failed
      exact ⟨rfl, fun head => other (Option.some.inj head)⟩

theorem Stops.isInfix_eq_false {kind : TokenKind} {kinds : List TokenKind}
    (stops : Stops .or (kind :: kinds)) : kind.isInfix = false := by
  cases joins : kind.isInfix with
  | false => rfl
  | true =>
    obtain ⟨operator, rfl⟩ := TokenKind.exists_operator joins
    have loose : operator.level.rank < 1 := stops operator rfl
    have positive := operator.rank_pos
    omega

/-- Behind an expression, a token that neither closes nor separates anything is refused. -/
theorem Slot.EndsAt.step_eq_none {slot : Slot} {kind : TokenKind} {kinds : List TokenKind}
    {brackets : List Bracket} (ends : slot.EndsAt (kind :: kinds))
    (stops : Stops .or (kind :: kinds)) (opened : brackets ≠ [] → kind ≠ .symbol .rightParen)
    (called : brackets.head? = some .call → kind ≠ .symbol .comma) :
    Prospect.step ⟨slot, brackets⟩ kind = none := by
  rw [ends.step_eq]
  unfold joinStep
  rw [stops.isInfix_eq_false, if_neg Bool.false_ne_true]
  split
  · exact absurd rfl (opened (List.cons_ne_nil _ _))
  · exact absurd rfl (called rfl)
  · rfl

/-- Behind an operand, an error may follow a token that leads on. -/
theorem Passes.blames {stop : Span} {prospect next : Prospect} {token : Token}
    {front rest : List Token} {error : ExprError} (first : Passes prospect front (token :: rest))
    (leads : joinStep prospect.brackets token.kind = some next)
    (blames : Blames stop next rest error) :
    Blames stop prospect (front ++ token :: rest) error := by
  obtain ⟨slot, ends, goes⟩ := first
  exact .behind goes (.behindToken ((ends.step_eq _).trans leads) blames)

/-- Where an expression has ended but its parenthesis is not closed, what stands there is to
blame. -/
theorem Passes.blames_of_closing {stop : Span} {bracket : Bracket} {brackets : List Bracket}
    {own rest : List Token} {error : ExprError}
    (passes : Passes ⟨.operand, bracket :: brackets⟩ own rest) (stops : Stops .or (kindsOf rest))
    (called : bracket = .call → (kindsOf rest).head? ≠ some (.symbol .comma))
    (failed : closing stop rest = .error error) :
    Blames stop ⟨.operand, bracket :: brackets⟩ (own ++ rest) error := by
  obtain ⟨slot, ends, leads⟩ := passes
  obtain ⟨points, other⟩ := closing_eq_error failed
  refine Blames.behind leads (.here points ?_)
  cases rest with
  | nil => exact fun complete => List.cons_ne_nil _ _ complete.1
  | cons token rest =>
    exact ends.step_eq_none stops (fun _ same => other (congrArg some same))
      fun head same => called (Option.some.inj head) (congrArg some same)

/-- A reader whose errors point at the first token that cannot follow, where tokens are fewer than a
bound. -/
def Reader.Blaming (stop : Span) (read : Reader) (bound : Nat) : Prop :=
  ∀ ⦃level : Level⦄ ⦃tokens : List Token⦄ ⦃error : ExprError⦄, tokens.length < bound →
    read level tokens = .error error → ∀ brackets, Blames stop ⟨.operand, brackets⟩ tokens error

namespace Reader.Blaming

variable {read : Reader} {bound : Nat} {stop : Span} (blaming : read.Blaming stop bound)

include blaming

theorem signedOperand {sign : Sign} {span : Span} {tokens : List Token} {error : ExprError}
    (fits : tokens.length < bound)
    (failed : signedOperand read sign sign.level span tokens = .error error)
    (brackets : List Bracket) :
    Blames stop ⟨.operand, brackets⟩ (⟨sign.kind, span⟩ :: tokens) error := by
  unfold LineScript.signedOperand at failed
  split at failed
  · rename_i readOperand
    cases failed
    have leads : Prospect.step ⟨.operand, brackets⟩ sign.kind = some ⟨.operand, brackets⟩ := by
      cases sign <;> rfl
    exact .behindToken leads (blaming fits readOperand brackets)
  · cases failed

variable (traced : read.Traced)

include traced

theorem arguments {more : Nat} {tokens : List Token} {error : ExprError}
    (fits : tokens.length < bound)
    (failed : arguments stop read more tokens = .error error) (brackets : List Bracket) :
    Blames stop ⟨.operand, .call :: brackets⟩ tokens error := by
  fun_induction LineScript.arguments stop read more tokens generalizing error with
  | case1 more tokens inner readFirst =>
    cases failed
    exact blaming fits readFirst _
  | case2 tokens first more span after inner readRest readFirst inductionHypothesis =>
    cases failed
    obtain ⟨front, rfl, reads⟩ := traced readFirst
    simp only [List.length_append, List.length_cons] at fits
    exact (reads.passed _).blames rfl (inductionHypothesis (by omega) readRest)
  | case3 => cases failed
  | case4 => cases failed

theorem callArguments {tokens : List Token} {error : ExprError} (fits : tokens.length < bound)
    (failed : callArguments stop read tokens = .error error) (brackets : List Bracket) :
    Blames stop ⟨.firstArgument, .call :: brackets⟩ tokens error := by
  unfold LineScript.callArguments at failed
  split at failed
  · cases failed
  · rename_i other
    have opens : (kindsOf tokens).head? ≠ some (.symbol .rightParen) := by
      intro head
      obtain ⟨others, same⟩ := List.head?_eq_some_iff.mp head
      obtain ⟨span, after, rfl, -⟩ := kindsOf_eq_cons same
      exact other span after rfl
    refine .firstArgument opens ?_
    split at failed
    · rename_i readAll
      cases failed
      exact blaming.arguments traced fits readAll brackets
    · rename_i readAll
      split at failed
      · rename_i closed
        cases failed
        obtain ⟨own, rfl, reads⟩ := traced.arguments (Nat.le_refl _) readAll
        obtain ⟨stops, noComma⟩ := reads.arguments_end
        exact (reads.passed brackets).blames_of_closing stops (fun _ => noComma) closed
      · cases failed

theorem named {name : String} {span : Span} {tokens : List Token} {error : ExprError}
    (fits : tokens.length < bound) (failed : named stop read name span tokens = .error error)
    (brackets : List Bracket) : Blames stop ⟨.name, brackets⟩ tokens error := by
  revert failed
  fun_cases LineScript.named stop read name span tokens with
  | case1 opens after inner readAll =>
    rintro ⟨⟩
    rw [List.length_cons] at fits
    exact .behindToken rfl (blaming.callArguments traced (by omega) readAll brackets)
  | case2 => rintro ⟨⟩
  | case3 => rintro ⟨⟩
  | case4 dot after noName =>
    rintro ⟨⟩
    refine .behindToken rfl (.here rfl ?_)
    cases after with
    | nil => exact Prospect.refuses_end rfl brackets
    | cons token after =>
      obtain ⟨kind, place⟩ := token
      cases kind with
      | name field => exact (noName field place after rfl).elim
      | _ => rfl
  | case5 => rintro ⟨⟩

theorem operand {tokens : List Token} {error : ExprError} (fits : tokens.length ≤ bound)
    (failed : operand stop read tokens = .error error) (brackets : List Bracket) :
    Blames stop ⟨.operand, brackets⟩ tokens error := by
  revert failed
  fun_cases LineScript.operand stop read tokens with
  | case1 =>
    rintro ⟨⟩
    exact .atEnd rfl brackets
  | case2 => rintro ⟨⟩
  | case3 => rintro ⟨⟩
  | case4 => rintro ⟨⟩
  | case5 => rintro ⟨⟩
  | case6 span after name =>
    intro failed
    exact .behindToken rfl (blaming.named traced fits failed brackets)
  | case7 opens after inner readInner =>
    rintro ⟨⟩
    exact .behindToken rfl (blaming fits readInner _)
  | case8 opens after inner left readInner cause closed =>
    rintro ⟨⟩
    obtain ⟨own, rfl, reads⟩ := traced readInner
    exact .behindToken rfl
      ((reads.passed (.group :: brackets)).blames_of_closing reads.stops (by rintro ⟨⟩) closed)
  | case9 => rintro ⟨⟩
  | case10 => exact fun failed => blaming.signedOperand fits failed brackets
  | case11 => exact fun failed => blaming.signedOperand fits failed brackets
  | case12 => exact fun failed => blaming.signedOperand fits failed brackets
  | case13 span after symbol noParen noMinus noPlus noNot =>
    rintro ⟨⟩
    refine .here rfl ?_
    cases symbol with
    | arithmetic operation =>
      cases operation with
      | add => exact (noPlus rfl).elim
      | subtract => exact (noMinus rfl).elim
      | _ => rfl
    | not => exact (noNot rfl).elim
    | leftParen => exact (noParen rfl).elim
    | _ => rfl

theorem chainLinks {more : Nat} {tokens : List Token} {error : ExprError}
    (fits : tokens.length ≤ bound) (failed : chainLinks read more tokens = .error error)
    {slot : Slot} (ends : slot.EndsAt (kindsOf tokens)) (brackets : List Bracket) :
    Blames stop ⟨slot, brackets⟩ tokens error := by
  fun_induction LineScript.chainLinks read more tokens generalizing error slot with
  | case1 => cases failed
  | case2 => cases failed
  | case3 more tokens relation after next inner readOperand =>
    cases failed
    obtain ⟨span, rfl⟩ := nextComparison?_eq_some_iff.mp next
    exact .behindToken (ends.step_eq brackets) (blaming fits readOperand brackets)
  | case4 more tokens relation after next expr left readOperand inner readMore
      inductionHypothesis =>
    cases failed
    obtain ⟨span, rfl⟩ := nextComparison?_eq_some_iff.mp next
    obtain ⟨own, rfl, reads⟩ := traced readOperand
    simp only [List.length_append, List.length_cons] at fits
    obtain ⟨last, endsLast, leads⟩ := reads.passed brackets
    exact .behindToken (ends.step_eq brackets)
      (.behind leads (inductionHypothesis (by omega) readMore endsLast))
  | case5 => cases failed

theorem rightOperand {left : Expr} {operator : Operator} {tokens : List Token} {error : ExprError}
    (fits : tokens.length < bound) (failed : rightOperand read left operator tokens = .error error)
    (brackets : List Bracket) : Blames stop ⟨.operand, brackets⟩ tokens error := by
  revert failed
  fun_cases LineScript.rightOperand read left operator tokens with
  | case1 operator inner readRight =>
    rintro ⟨⟩
    exact blaming fits readRight brackets
  | case2 => rintro ⟨⟩
  | case3 => rintro ⟨⟩
  | case4 => rintro ⟨⟩
  | case5 right after comparison inner readLinks readRight =>
    rintro ⟨⟩
    obtain ⟨own, rfl, reads⟩ := traced readRight
    rw [List.length_append] at fits
    obtain ⟨slot, ends, leads⟩ := reads.passed brackets
    exact .behind leads (blaming.chainLinks traced (by omega) readLinks ends brackets)
  | case6 => rintro ⟨⟩

theorem operators {level : Level} {more : Nat} {left : Expr} {front tokens : List Token}
    {error : ExprError} (fits : tokens.length ≤ bound) (enough : tokens.length ≤ more)
    (start : Reads (.growing level left) front tokens)
    (failed : operators read level more left tokens = .error error) (brackets : List Bracket) :
    Blames stop ⟨.operand, brackets⟩ (front ++ tokens) error := by
  -- Where the left operand ends is known from its derivation, so the whole row is looked at and not
  -- only what follows the operand.
  fun_induction LineScript.operators read level more left tokens
    generalizing error front with
  | case1 => cases failed
  | case2 => cases failed
  | case3 => cases failed
  | case4 => cases failed
  | case5 more left token after operator found binds inner readRight =>
    cases failed
    obtain ⟨kind, span⟩ := token
    obtain rfl : kind = operator.kind := operator?_eq_some_iff.mp found
    exact (start.passed brackets).blames (joinStep_operator operator brackets)
      (blaming.rightOperand traced fits readRight brackets)
  | case6 more left token after operator found binds node last readRight inductionHypothesis =>
    obtain ⟨kind, span⟩ := token
    obtain rfl : kind = operator.kind := operator?_eq_some_iff.mp found
    obtain ⟨back, rfl, grows⟩ := traced.rightOperand readRight
    simp only [List.length_append, List.length_cons] at fits enough
    have blames := inductionHypothesis (by omega) (by omega)
      (grows level front span (Nat.le_of_not_lt binds) start) failed
    rw [List.append_assoc, List.cons_append] at blames
    exact blames

end Reader.Blaming

/-- The errors of the parser point at the first token that cannot follow. -/
theorem blaming_expressionAt (stop : Span) (depth : Nat) :
    (expressionAt stop depth).Blaming stop depth := by
  induction depth with
  | zero =>
    intro level tokens error fits
    exact absurd fits (Nat.not_lt_zero _)
  | succ depth inductionHypothesis =>
    intro level tokens error fits failed brackets
    have traced := traced_expressionAt stop depth
    have bounded := Nat.le_of_lt_succ fits
    rw [expressionAt] at failed
    split at failed
    · rename_i readFirst
      cases failed
      exact inductionHypothesis.operand traced bounded readFirst brackets
    · rename_i readFirst
      obtain ⟨front, rfl, reads⟩ := traced.operand readFirst
      rw [List.length_append] at bounded
      exact inductionHypothesis.operators traced (by omega) (Nat.le_refl _) (.start level reads)
        failed brackets

theorem blames_of_parse {stream : TokenStream} {error : ExprError}
    (failed : stream.parse = .error error) : Blames stream.stop .start stream.tokens error := by
  unfold TokenStream.parse at failed
  split at failed
  · rename_i readAll
    cases failed
    exact blaming_expressionAt _ _ (Nat.lt_succ_self _) readAll []
  · cases failed
  · rename_i expr token rest readAll
    cases failed
    obtain ⟨own, same, reads⟩ := traced_expressionAt _ _ readAll
    obtain ⟨slot, ends, leads⟩ := reads.passed []
    rw [same]
    exact .behind leads (.here rfl (ends.step_eq_none reads.stops (absurd rfl) (by rintro ⟨⟩)))

/-- Tokens are parsed exactly if they lead to a complete prospect. -/
theorem exists_parse_iff {stream : TokenStream} :
    (∃ expr, stream.parse = .ok expr) ↔
      ∃ last, Prospect.start.run (kindsOf stream.tokens) = some last ∧ last.Complete := by
  constructor
  · rintro ⟨expr, parsed⟩
    obtain ⟨slot, ends, leads⟩ := (parse_eq_ok_iff.mp parsed).passed []
    exact ⟨_, leads, ends.complete⟩
  · rintro ⟨last, leads, complete⟩
    cases parsed : stream.parse with
    | ok expr => exact ⟨expr, rfl⟩
    | error error =>
      obtain ⟨front, rest, middle, same, -, goes, refuses⟩ := blames_of_parse parsed
      rw [same, kindsOf, List.map_append] at leads
      exact absurd refuses (Prospect.not_refuses goes leads complete)

/-- Tokens that lead to a prospect can be extended to an expression. -/
theorem exists_extension {front : List Token} {middle : Prospect}
    (leads : Prospect.start.run (kindsOf front) = some middle) (stop : Span) :
    ∃ more expr, TokenStream.parse ⟨front ++ more, stop⟩ = .ok expr := by
  obtain ⟨kinds, last, goes, complete⟩ := middle.exists_completion
  refine ⟨kinds.map fun kind => ⟨kind, stop⟩, exists_parse_iff.mpr ⟨last, ?_, complete⟩⟩
  rw [Prospect.run_kindsOf_append leads, kindsOf, List.map_map]
  exact (congrArg middle.run (List.map_id kinds)).trans goes

/-- No expression starts with tokens of which the last is refused. -/
theorem parse_ne_ok_of_refused {front : List Token} {token : Token} {middle : Prospect}
    (leads : Prospect.start.run (kindsOf front) = some middle)
    (refused : middle.step token.kind = none) (more : List Token) (stop : Span) (expr : Expr) :
    TokenStream.parse ⟨front ++ token :: more, stop⟩ ≠ .ok expr := by
  intro parsed
  obtain ⟨last, goes, complete⟩ := exists_parse_iff.mp ⟨expr, parsed⟩
  rw [kindsOf, List.map_append] at goes
  exact Prospect.not_refuses leads goes complete refused

/-- Where parsing fails, the error points at a token or at the end. The tokens before it can be
extended to an expression. If it is a token, no expression starts with these tokens and this one. -/
theorem parse_blames_first_impossible {stream : TokenStream} {error : ExprError}
    (failed : stream.parse = .error error) :
    ∃ k, (stream.tokens.map Token.span ++ [stream.stop])[k]? = some error.span ∧
      (∃ more stop expr, TokenStream.parse ⟨stream.tokens.take k ++ more, stop⟩ = .ok expr) ∧
      (k < stream.tokens.length → ∀ more stop expr,
        TokenStream.parse ⟨stream.tokens.take (k + 1) ++ more, stop⟩ ≠ .ok expr) := by
  obtain ⟨front, rest, middle, same, points, leads, refuses⟩ := blames_of_parse failed
  refine ⟨front.length, ?_, ?_, ?_⟩
  · have passed : (front.map Token.span).length = front.length := List.length_map Token.span
    rw [same, points, List.map_append, List.append_assoc,
      List.getElem?_append_right (Nat.le_of_eq passed), passed, Nat.sub_self]
    cases rest <;> rfl
  · obtain ⟨more, expr, parsed⟩ := exists_extension leads stream.stop
    rw [same, List.take_left]
    exact ⟨more, stream.stop, expr, parsed⟩
  · intro inside more stop expr
    cases rest with
    | nil =>
      rw [same, List.append_nil] at inside
      exact absurd inside (Nat.lt_irrefl _)
    | cons token rest =>
      rw [same, List.take_length_add_append, List.append_assoc]
      exact parse_ne_ok_of_refused leads refuses more stop expr

/-- The tokens of `f(2 ** (a.b, c))`, where a comma stands in parentheses that are no call's. -/
def misplacedComma : TokenStream where
  tokens := [⟨.name "f", ⟨0, 1, 1, 1⟩⟩, ⟨.symbol .leftParen, ⟨1, 2, 1, 2⟩⟩,
    ⟨.int 2, ⟨2, 3, 1, 3⟩⟩, ⟨.symbol (.arithmetic .power), ⟨4, 6, 1, 5⟩⟩,
    ⟨.symbol .leftParen, ⟨7, 8, 1, 8⟩⟩, ⟨.name "a", ⟨8, 9, 1, 9⟩⟩, ⟨.symbol .dot, ⟨9, 10, 1, 10⟩⟩,
    ⟨.name "b", ⟨10, 11, 1, 11⟩⟩, ⟨.symbol .comma, ⟨11, 12, 1, 12⟩⟩, ⟨.name "c", ⟨13, 14, 1, 14⟩⟩,
    ⟨.symbol .rightParen, ⟨14, 15, 1, 15⟩⟩, ⟨.symbol .rightParen, ⟨15, 16, 1, 16⟩⟩]
  stop := ⟨16, 16, 1, 17⟩

theorem parse_blames_misplacedComma :
    misplacedComma.parse =
        .error (.unexpectedToken .closingParen (some (.symbol .comma)) ⟨11, 12, 1, 12⟩) ∧
      ∃ k, (misplacedComma.tokens.map Token.span ++ [misplacedComma.stop])[k]? =
          some ⟨11, 12, 1, 12⟩ ∧
        (∃ more stop expr,
          TokenStream.parse ⟨misplacedComma.tokens.take k ++ more, stop⟩ = .ok expr) ∧
        (k < misplacedComma.tokens.length → ∀ more stop expr,
          TokenStream.parse ⟨misplacedComma.tokens.take (k + 1) ++ more, stop⟩ ≠ .ok expr) := by
  have failed : misplacedComma.parse =
      .error (.unexpectedToken .closingParen (some (.symbol .comma)) ⟨11, 12, 1, 12⟩) := rfl
  exact ⟨failed, parse_blames_first_impossible failed⟩

end LineScript
