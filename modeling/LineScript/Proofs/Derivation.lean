/-
This file describes the expression parser without its counters. A derivation says which tokens a
reading takes, which tokens stand behind them, and what the reading gives; it has one rule for each
way in which the parser can go on. Behind the tokens it takes, a reading looks only at the next one,
to see that it ends there. So a derivation stays one when what stands behind is cut off, and a tree
that grows by operators of a level also grows by them at every looser level.

The parser and the derivations agree: whatever the parser returns has a derivation, and whatever has
a derivation is returned by the parser at every depth that exceeds the number of tokens taken.
-/

import LineScript.Proofs.Grammar

namespace LineScript

/-! ### The next token -/

theorem nextComparison?_eq_some_iff {tokens rest : List Token} {relation : Comparison} :
    nextComparison? tokens = some (relation, rest) ↔
      ∃ span, tokens = ⟨.symbol (.comparison relation), span⟩ :: rest := by
  constructor
  · intro next
    unfold nextComparison? at next
    split at next
    · cases next
      exact ⟨_, rfl⟩
    · cases next
  · rintro ⟨span, rfl⟩
    rfl

theorem head?_of_cut {fewer rest : List Token} (cut : fewer <+: rest) {kind : TokenKind}
    (next : (kindsOf fewer).head? = some kind) : (kindsOf rest).head? = some kind := by
  obtain ⟨more, rfl⟩ := cut
  cases fewer with
  | nil => cases next
  | cons token fewer => exact next

theorem nextComparison?_of_cut {fewer rest : List Token} (cut : fewer <+: rest)
    (ends : nextComparison? rest = none) : nextComparison? fewer = none := by
  cases next : nextComparison? fewer with
  | none => rfl
  | some found =>
    obtain ⟨relation, others⟩ := found
    obtain ⟨span, rfl⟩ := nextComparison?_eq_some_iff.mp next
    obtain ⟨more, rfl⟩ := cut
    cases ends

/-! ### Derivations -/

/-- What a reading gives: an operand, a tree that may still grow by operators of a level, an
expression of a level, the further links of a chain, or the arguments of a call. -/
inductive Construct where
  | operand (expr : Expr)
  | growing (level : Level) (expr : Expr)
  | expression (level : Level) (expr : Expr)
  | links (links : List (Comparison × Expr))
  | arguments (values : List Expr)

/-- Whether an operator is a comparison, of which several make a chain. -/
def Operator.isComparison : Operator → Bool
  | .comparison _ => true
  | _ => false

/-- The node that an operator makes of its two operands. -/
def Operator.node (left right : Expr) : Operator → Expr
  | .or => .or left right (left.span.merge right.span)
  | .and => .and left right (left.span.merge right.span)
  | .comparison relation =>
    .binary (.comparison relation) left right (left.span.merge right.span)
  | .arithmetic operation =>
    .binary (.arithmetic operation) left right (left.span.merge right.span)

/-- What a reading gives that takes the first tokens and has the second ones behind it. -/
inductive Reads : Construct → List Token → List Token → Prop
  | int (n : Int64) (span : Span) (rest : List Token) :
      Reads (.operand (.int n span)) [⟨.int n, span⟩] rest
  | float (x : Float) (span : Span) (rest : List Token) :
      Reads (.operand (.float x span)) [⟨.float x, span⟩] rest
  | string (text : String) (span : Span) (rest : List Token) :
      Reads (.operand (.string text span)) [⟨.string text, span⟩] rest
  | bool (b : Bool) (span : Span) (rest : List Token) :
      Reads (.operand (.bool b span)) [⟨.bool b, span⟩] rest
  | var (name : String) (span : Span) {rest : List Token} (apart : Separates (kindsOf rest)) :
      Reads (.operand (.var name span)) [⟨.name name, span⟩] rest
  | member (record field : String) (first dot last : Span) (rest : List Token) :
      Reads (.operand (.member record field (first.merge last)))
        [⟨.name record, first⟩, ⟨.symbol .dot, dot⟩, ⟨.name field, last⟩] rest
  | emptyCall (function : String) (first opens last : Span) (rest : List Token) :
      Reads (.operand (.call function [] (first.merge last)))
        [⟨.name function, first⟩, ⟨.symbol .leftParen, opens⟩, ⟨.symbol .rightParen, last⟩] rest
  | call (function : String) (first opens last : Span) {values : List Expr}
      {own rest : List Token}
      (inner : Reads (.arguments values) own (⟨.symbol .rightParen, last⟩ :: rest)) :
      Reads (.operand (.call function values (first.merge last)))
        (⟨.name function, first⟩ :: ⟨.symbol .leftParen, opens⟩ ::
          (own ++ [⟨.symbol .rightParen, last⟩])) rest
  | group (opens last : Span) {expr : Expr} {own rest : List Token}
      (inner : Reads (.expression .or expr) own (⟨.symbol .rightParen, last⟩ :: rest)) :
      Reads (.operand (.group expr (opens.merge last)))
        (⟨.symbol .leftParen, opens⟩ :: (own ++ [⟨.symbol .rightParen, last⟩])) rest
  | signed (sign : Sign) (span : Span) {expr : Expr} {own rest : List Token}
      (inner : Reads (.expression sign.level expr) own rest) :
      Reads (.operand (.unary sign expr (span.merge expr.span))) (⟨sign.kind, span⟩ :: own) rest
  | start (level : Level) {expr : Expr} {own rest : List Token}
      (first : Reads (.operand expr) own rest) : Reads (.growing level expr) own rest
  | joined (operator : Operator) (plain : operator.isComparison = false)
      {level : Level} (span : Span) {left right : Expr} {front back rest : List Token}
      (first : Reads (.growing level left) front (⟨operator.kind, span⟩ :: (back ++ rest)))
      (binds : level.rank ≤ operator.level.rank)
      (second : Reads (.expression operator.rightLevel right) back rest) :
      Reads (.growing level (operator.node left right)) (front ++ ⟨operator.kind, span⟩ :: back)
        rest
  | compared (relation : Comparison) {level : Level} (span : Span) {left right : Expr}
      {links : List (Comparison × Expr)} {front middle back rest : List Token}
      (first : Reads (.growing level left) front
        (⟨.symbol (.comparison relation), span⟩ :: (middle ++ (back ++ rest))))
      (binds : level.rank ≤ Level.comparison.rank)
      (second : Reads (.expression .term right) middle (back ++ rest))
      (others : Reads (.links links) back rest) :
      Reads (.growing level (compared left relation right links))
        (front ++ ⟨.symbol (.comparison relation), span⟩ :: (middle ++ back)) rest
  | whole {level : Level} {expr : Expr} {own rest : List Token}
      (inner : Reads (.growing level expr) own rest) (ends : Stops level (kindsOf rest)) :
      Reads (.expression level expr) own rest
  | noLinks {rest : List Token} (ends : nextComparison? rest = none) : Reads (.links []) [] rest
  | link (relation : Comparison) (span : Span) {expr : Expr} {links : List (Comparison × Expr)}
      {front back rest : List Token} (first : Reads (.expression .term expr) front (back ++ rest))
      (others : Reads (.links links) back rest) :
      Reads (.links ((relation, expr) :: links))
        (⟨.symbol (.comparison relation), span⟩ :: (front ++ back)) rest
  | lastArgument {value : Expr} {own rest : List Token}
      (inner : Reads (.expression .or value) own rest)
      (ends : (kindsOf rest).head? ≠ some (.symbol .comma)) : Reads (.arguments [value]) own rest
  | moreArguments (span : Span) {value : Expr} {values : List Expr} {front back rest : List Token}
      (first : Reads (.expression .or value) front (⟨.symbol .comma, span⟩ :: (back ++ rest)))
      (others : Reads (.arguments values) back rest) :
      Reads (.arguments (value :: values)) (front ++ ⟨.symbol .comma, span⟩ :: back) rest

/-- The first token that a reading takes does not close anything. Only links may have no token. -/
def Construct.OpenedBy (own : List Token) : Construct → Prop
  | .links _ => True
  | _ => ∃ token more, own = token :: more ∧ token.kind ≠ .symbol .rightParen

namespace Reads

variable {construct : Construct} {level : Level} {expr : Expr} {own rest : List Token}

theorem openedBy (reads : Reads construct own rest) : construct.OpenedBy own := by
  have notClosing (sign : Sign) : sign.kind ≠ .symbol .rightParen := by
    cases sign <;> exact nofun
  induction reads with
  | signed sign => exact ⟨_, _, rfl, notClosing sign⟩
  | start _ _ inductionHypothesis => exact inductionHypothesis
  | joined _ _ _ _ _ _ inductionHypothesis =>
    obtain ⟨token, more, rfl, opens⟩ := inductionHypothesis
    exact ⟨token, _, rfl, opens⟩
  | compared _ _ _ _ _ _ inductionHypothesis =>
    obtain ⟨token, more, rfl, opens⟩ := inductionHypothesis
    exact ⟨token, _, rfl, opens⟩
  | whole _ _ inductionHypothesis => exact inductionHypothesis
  | noLinks => trivial
  | link => trivial
  | lastArgument _ _ inductionHypothesis => exact inductionHypothesis
  | moreArguments _ _ _ inductionHypothesis =>
    obtain ⟨token, more, rfl, opens⟩ := inductionHypothesis
    exact ⟨token, _, rfl, opens⟩
  | _ => exact ⟨_, _, rfl, nofun⟩

theorem length_pos (reads : Reads (.expression level expr) own rest) : 0 < own.length := by
  obtain ⟨token, more, rfl, -⟩ := reads.openedBy
  exact Nat.succ_pos _

/-- A tree that is an expression of a level has grown by operators of that level. -/
theorem grown (reads : Reads (.expression level expr) own rest) :
    Reads (.growing level expr) own rest := by
  cases reads with
  | whole inner ends => exact inner

theorem stops (reads : Reads (.expression level expr) own rest) : Stops level (kindsOf rest) := by
  cases reads with
  | whole inner ends => exact ends

/-- Behind the arguments of a call stand neither an operator nor a comma. -/
theorem arguments_end {values : List Expr} (reads : Reads (.arguments values) own rest) :
    Stops .or (kindsOf rest) ∧ (kindsOf rest).head? ≠ some (.symbol .comma) := by
  generalize same : Construct.arguments values = construct at reads
  induction reads generalizing values with
  | lastArgument inner ends => exact ⟨inner.stops, ends⟩
  | moreArguments _ _ _ _ inductionHypothesis => exact inductionHypothesis rfl
  | _ => cases same

/-! ### What stands behind -/

/-- A derivation stays one when what stands behind is cut off. -/
theorem cut (reads : Reads construct own rest) {fewer : List Token} (cut : fewer <+: rest) :
    Reads construct own fewer := by
  have behind : ∀ (front : List Token) {fewer rest : List Token}, fewer <+: rest →
      front ++ fewer <+: front ++ rest :=
    fun front _ _ cut => (List.prefix_append_right_inj front).mpr cut
  induction reads generalizing fewer with
  | int n span rest => exact .int n span fewer
  | float x span rest => exact .float x span fewer
  | string text span rest => exact .string text span fewer
  | bool b span rest => exact .bool b span fewer
  | var name span apart =>
    exact .var name span ⟨fun opens => apart.1 (head?_of_cut cut opens),
      fun dot => apart.2 (head?_of_cut cut dot)⟩
  | member record field first dot last rest => exact .member record field first dot last fewer
  | emptyCall function first opens last rest => exact .emptyCall function first opens last fewer
  | call function first opens last _ inductionHypothesis =>
    exact .call function first opens last (inductionHypothesis (behind [_] cut))
  | group opens last _ inductionHypothesis =>
    exact .group opens last (inductionHypothesis (behind [_] cut))
  | signed sign span _ inductionHypothesis => exact .signed sign span (inductionHypothesis cut)
  | start level _ inductionHypothesis => exact .start level (inductionHypothesis cut)
  | joined operator plain span _ binds _ first second =>
    exact .joined operator plain span (first (behind (_ :: _) cut)) binds (second cut)
  | compared relation span _ binds _ _ first second others =>
    exact .compared relation span (first (behind (_ :: _) (behind _ cut))) binds
      (second (behind _ cut)) (others cut)
  | whole _ ends inductionHypothesis =>
    exact .whole (inductionHypothesis cut) fun operator next =>
      ends operator (head?_of_cut cut next)
  | noLinks ends => exact .noLinks (nextComparison?_of_cut cut ends)
  | link relation span _ _ first others =>
    exact .link relation span (first (behind _ cut)) (others cut)
  | lastArgument _ ends inductionHypothesis =>
    exact .lastArgument (inductionHypothesis cut) fun comma => ends (head?_of_cut cut comma)
  | moreArguments span _ _ first others =>
    exact .moreArguments span (first (behind (_ :: _) cut)) (others cut)

/-- A tree that has grown by operators of a level could have grown so at a looser one. -/
theorem loosen (reads : Reads (.growing level expr) own rest) {loose : Level}
    (order : loose.rank ≤ level.rank) : Reads (.growing loose expr) own rest := by
  generalize same : Construct.growing level expr = construct at reads
  induction reads generalizing expr with
  | start _ first =>
    cases same
    exact .start loose first
  | joined operator plain span _ binds second inductionHypothesis =>
    cases same
    exact .joined operator plain span (inductionHypothesis rfl) (Nat.le_trans order binds) second
  | compared relation span _ binds second others inductionHypothesis =>
    cases same
    exact .compared relation span (inductionHypothesis rfl) (Nat.le_trans order binds) second others
  | _ => cases same

/-- The tokens of a tree, taken alone, are an expression. -/
theorem alone (reads : Reads (.growing level expr) own rest) :
    Reads (.expression .or expr) own [] := by
  have order : Level.or.rank ≤ level.rank := by cases level <;> decide
  exact .whole ((reads.loosen order).cut List.nil_prefix) (Closes.nil.stops _)

end Reads

/-! ### From the parser to derivations -/

/-- A reader is traced when all that it returns has a derivation. -/
def Reader.Traced (read : Reader) : Prop :=
  ∀ ⦃level : Level⦄ ⦃tokens : List Token⦄ ⦃expr : Expr⦄ ⦃rest : List Token⦄,
    read level tokens = .ok (expr, rest) →
    ∃ own, tokens = own ++ rest ∧ Reads (.expression level expr) own rest

namespace Reader.Traced

variable {read : Reader} (traced : read.Traced) {stop : Span}

include traced

theorem arguments {more : Nat} {tokens rest : List Token} {values : List Expr}
    (enough : tokens.length ≤ more)
    (taken : arguments stop read more tokens = .ok (values, rest)) :
    ∃ own, tokens = own ++ rest ∧ Reads (.arguments values) own rest := by
  fun_induction LineScript.arguments stop read more tokens generalizing values rest with
  | case1 => cases taken
  | case2 => cases taken
  | case3 tokens first more span after others left inner readFirst inductionHypothesis =>
    cases taken
    obtain ⟨front, rfl, reads⟩ := traced readFirst
    have filled := reads.length_pos
    simp only [List.length_append, List.length_cons] at enough
    obtain ⟨back, rfl, readsOthers⟩ := inductionHypothesis (by omega) inner
    refine ⟨front ++ ⟨.symbol .comma, span⟩ :: back, ?_, .moreArguments span reads readsOthers⟩
    rw [List.append_assoc, List.cons_append]
  | case4 more tokens first after readFirst noComma =>
    cases taken
    obtain ⟨own, rfl, reads⟩ := traced readFirst
    refine ⟨own, rfl, .lastArgument reads fun comma => ?_⟩
    have filled := reads.length_pos
    rw [List.length_append] at enough
    obtain ⟨fuel, rfl⟩ : ∃ fuel, more = fuel + 1 := ⟨more - 1, by omega⟩
    obtain ⟨others, same⟩ := List.head?_eq_some_iff.mp comma
    obtain ⟨span, after, rfl, -⟩ := kindsOf_eq_cons same
    exact noComma fuel span after rfl rfl

theorem callArguments {tokens rest : List Token} {values : List Expr} {last : Span}
    (taken : callArguments stop read tokens = .ok ((values, last), rest)) :
    (values = [] ∧ tokens = ⟨.symbol .rightParen, last⟩ :: rest) ∨
      ∃ own, tokens = own ++ ⟨.symbol .rightParen, last⟩ :: rest ∧
        Reads (.arguments values) own (⟨.symbol .rightParen, last⟩ :: rest) := by
  unfold LineScript.callArguments at taken
  split at taken
  · cases taken
    exact .inl ⟨rfl, rfl⟩
  · split at taken
    · cases taken
    · rename_i readAll
      split at taken
      · cases taken
      · rename_i closed
        cases taken
        obtain ⟨own, rfl, reads⟩ := traced.arguments (Nat.le_refl _) readAll
        rw [closing_eq_ok.mp closed] at reads ⊢
        exact .inr ⟨own, rfl, reads⟩

theorem named {name : String} {span : Span} {tokens rest : List Token} {expr : Expr}
    (taken : named stop read name span tokens = .ok (expr, rest)) :
    ∃ own, ⟨.name name, span⟩ :: tokens = own ++ rest ∧ Reads (.operand expr) own rest := by
  revert taken
  fun_cases LineScript.named stop read name span tokens with
  | case1 => rintro ⟨⟩
  | case2 opens after values last left readAll =>
    rintro ⟨⟩
    rcases traced.callArguments readAll with ⟨rfl, rfl⟩ | ⟨own, rfl, reads⟩
    · exact ⟨_, rfl, .emptyCall name span opens last rest⟩
    · refine ⟨_, ?_, .call name span opens last reads⟩
      simp
  | case3 dot field last after =>
    rintro ⟨⟩
    exact ⟨_, rfl, .member name field span dot last rest⟩
  | case4 => rintro ⟨⟩
  | case5 _ noParen noDot =>
    rintro ⟨⟩
    refine ⟨_, rfl, .var name span ⟨fun head => ?_, fun head => ?_⟩⟩
    · obtain ⟨others, same⟩ := List.head?_eq_some_iff.mp head
      obtain ⟨place, after, rfl, -⟩ := kindsOf_eq_cons same
      exact noParen place after rfl
    · obtain ⟨others, same⟩ := List.head?_eq_some_iff.mp head
      obtain ⟨place, after, rfl, -⟩ := kindsOf_eq_cons same
      exact noDot place after rfl

theorem signedOperand {sign : Sign} {span : Span} {tokens rest : List Token} {expr : Expr}
    (taken : signedOperand read sign sign.level span tokens = .ok (expr, rest)) :
    ∃ own, ⟨sign.kind, span⟩ :: tokens = own ++ rest ∧ Reads (.operand expr) own rest := by
  unfold LineScript.signedOperand at taken
  split at taken
  · cases taken
  · rename_i readOperand
    cases taken
    obtain ⟨own, rfl, reads⟩ := traced readOperand
    exact ⟨_, rfl, .signed sign span reads⟩

theorem operand {tokens rest : List Token} {expr : Expr}
    (taken : operand stop read tokens = .ok (expr, rest)) :
    ∃ own, tokens = own ++ rest ∧ Reads (.operand expr) own rest := by
  revert taken
  fun_cases LineScript.operand stop read tokens with
  | case1 => rintro ⟨⟩
  | case2 span after n => rintro ⟨⟩; exact ⟨_, rfl, .int n span rest⟩
  | case3 span after x => rintro ⟨⟩; exact ⟨_, rfl, .float x span rest⟩
  | case4 span after text => rintro ⟨⟩; exact ⟨_, rfl, .string text span rest⟩
  | case5 span after b => rintro ⟨⟩; exact ⟨_, rfl, .bool b span rest⟩
  | case6 span after name => exact traced.named
  | case7 => rintro ⟨⟩
  | case8 => rintro ⟨⟩
  | case9 opens after inner left readInner last others closed =>
    rintro ⟨⟩
    obtain ⟨own, rfl, reads⟩ := traced readInner
    rw [closing_eq_ok.mp closed] at reads ⊢
    refine ⟨_, ?_, .group opens last reads⟩
    simp
  | case10 => exact traced.signedOperand
  | case11 => exact traced.signedOperand
  | case12 => exact traced.signedOperand
  | case13 => rintro ⟨⟩

theorem chainLinks {more : Nat} {tokens rest : List Token} {links : List (Comparison × Expr)}
    (enough : tokens.length ≤ more)
    (taken : chainLinks read more tokens = .ok (links, rest)) :
    ∃ own, tokens = own ++ rest ∧ Reads (.links links) own rest := by
  fun_induction LineScript.chainLinks read more tokens generalizing links rest with
  | case1 tokens =>
    cases taken
    obtain rfl : tokens = [] := List.length_eq_zero_iff.mp (Nat.le_zero.mp enough)
    exact ⟨[], rfl, .noLinks rfl⟩
  | case2 more tokens ends =>
    cases taken
    exact ⟨[], rfl, .noLinks ends⟩
  | case3 => cases taken
  | case4 => cases taken
  | case5 more tokens relation after next expr left readOperand others last inner
      inductionHypothesis =>
    cases taken
    obtain ⟨front, rfl, reads⟩ := traced readOperand
    obtain ⟨span, rfl⟩ := nextComparison?_eq_some_iff.mp next
    simp only [List.length_append, List.length_cons] at enough
    obtain ⟨back, rfl, readsOthers⟩ := inductionHypothesis (by omega) inner
    refine ⟨_, ?_, .link relation span reads readsOthers⟩
    rw [List.cons_append, List.append_assoc]

theorem rightOperand {left node : Expr} {operator : Operator} {tokens rest : List Token}
    (taken : rightOperand read left operator tokens = .ok (node, rest)) :
    ∃ back, tokens = back ++ rest ∧ ∀ (level : Level) (front : List Token) (span : Span),
      level.rank ≤ operator.level.rank →
      Reads (.growing level left) front (⟨operator.kind, span⟩ :: (back ++ rest)) →
      Reads (.growing level node) (front ++ ⟨operator.kind, span⟩ :: back) rest := by
  revert taken
  fun_cases LineScript.rightOperand read left operator tokens with
  | case1 => rintro ⟨⟩
  | case2 right after span readRight =>
    rintro ⟨⟩
    obtain ⟨back, rfl, reads⟩ := traced readRight
    exact ⟨back, rfl, fun level front span binds first =>
      .joined .or rfl span first binds reads⟩
  | case3 right after span readRight =>
    rintro ⟨⟩
    obtain ⟨back, rfl, reads⟩ := traced readRight
    exact ⟨back, rfl, fun level front span binds first =>
      .joined .and rfl span first binds reads⟩
  | case4 right after span operation readRight =>
    rintro ⟨⟩
    obtain ⟨back, rfl, reads⟩ := traced readRight
    exact ⟨back, rfl, fun level front span binds first =>
      .joined (.arithmetic operation) rfl span first binds reads⟩
  | case5 => rintro ⟨⟩
  | case6 right after comparison links last readLinks readRight =>
    rintro ⟨⟩
    obtain ⟨middle, rfl, reads⟩ := traced readRight
    obtain ⟨back, rfl, readsLinks⟩ := traced.chainLinks (Nat.le_refl _) readLinks
    refine ⟨middle ++ back, (List.append_assoc _ _ _).symm, fun level front span binds first => ?_⟩
    rw [List.append_assoc] at first
    exact .compared comparison span first binds reads readsLinks

theorem operators {level : Level} {more : Nat} {left expr : Expr} {front tokens rest : List Token}
    (enough : tokens.length ≤ more) (start : Reads (.growing level left) front tokens)
    (taken : operators read level more left tokens = .ok (expr, rest)) :
    ∃ own, tokens = own ++ rest ∧ Reads (.expression level expr) (front ++ own) rest := by
  -- The tree grows with every operator, so its derivation so far is carried along.
  fun_induction LineScript.operators read level more left tokens
    generalizing expr front rest with
  | case1 left tokens =>
    cases taken
    obtain rfl : tokens = [] := List.length_eq_zero_iff.mp (Nat.le_zero.mp enough)
    exact ⟨[], rfl, .whole (by rw [List.append_nil]; exact start) (Closes.nil.stops _)⟩
  | case2 more left =>
    cases taken
    exact ⟨[], rfl, .whole (by rw [List.append_nil]; exact start) (Closes.nil.stops _)⟩
  | case3 more left token after none =>
    cases taken
    refine ⟨[], rfl, .whole (by rw [List.append_nil]; exact start) fun operator head => ?_⟩
    cases (operator?_eq_some_iff.mpr (Option.some.inj head)).symm.trans none
  | case4 more left token after operator found loose =>
    cases taken
    refine ⟨[], rfl, .whole (by rw [List.append_nil]; exact start) fun other head => ?_⟩
    have same := operator?_eq_some_iff.mpr (Option.some.inj head)
    rw [found, Option.some.injEq] at same
    exact same ▸ loose
  | case5 => cases taken
  | case6 more left token after operator found binds node last readRight inductionHypothesis =>
    obtain ⟨kind, span⟩ := token
    obtain rfl : kind = operator.kind := operator?_eq_some_iff.mp found
    obtain ⟨back, rfl, grows⟩ := traced.rightOperand readRight
    simp only [List.length_append, List.length_cons] at enough
    obtain ⟨own, rfl, reads⟩ := inductionHypothesis (by omega)
      (grows level front span (Nat.le_of_not_lt binds) start) taken
    refine ⟨⟨operator.kind, span⟩ :: (back ++ own), ?_, ?_⟩
    · rw [List.cons_append, List.append_assoc]
    · rw [List.append_assoc, List.cons_append] at reads
      exact reads

end Reader.Traced

/-- All that the parser returns has a derivation. -/
theorem traced_expressionAt (stop : Span) (depth : Nat) : (expressionAt stop depth).Traced := by
  induction depth with
  | zero =>
    intro level tokens expr rest taken
    cases taken
  | succ depth inductionHypothesis =>
    intro level tokens expr rest taken
    rw [expressionAt] at taken
    split at taken
    · cases taken
    · rename_i first
      obtain ⟨front, rfl, reads⟩ := inductionHypothesis.operand first
      obtain ⟨own, rfl, whole⟩ :=
        inductionHypothesis.operators (Nat.le_refl _) (.start level reads) taken
      exact ⟨front ++ own, (List.append_assoc _ _ _).symm, whole⟩

/-! ### From derivations to the parser -/

/-- Reading at a level comes to a tree: after the first operand, taking in operators arrives where
the tree has been taken in and the rest is still ahead. -/
def ComesTo (stop : Span) (read : Reader) (level : Level) (expr : Expr) (own rest : List Token) :
    Prop :=
  ∃ left after, operand stop read (own ++ rest) = .ok (left, after) ∧
    ∀ more, after.length ≤ more → ∃ fewer, rest.length ≤ fewer ∧
      operators read level more left after = operators read level fewer expr rest

/-- The parser takes the first tokens for what a reading gives, at every depth that allows for
their number, and leaves the second ones. -/
def Takes (stop : Span) : Construct → (own rest : List Token) → Prop
  | .operand expr, own, rest => ∀ depth, own.length ≤ depth →
      operand stop (expressionAt stop depth) (own ++ rest) = .ok (expr, rest)
  | .growing level expr, own, rest => ∀ depth, own.length ≤ depth →
      ComesTo stop (expressionAt stop depth) level expr own rest
  | .expression level expr, own, rest => ∀ depth, own.length < depth →
      expressionAt stop depth level (own ++ rest) = .ok (expr, rest)
  | .links links, own, rest => ∀ depth more, own.length ≤ depth → own.length ≤ more →
      chainLinks (expressionAt stop depth) more (own ++ rest) = .ok (links, rest)
  | .arguments values, own, rest => ∀ depth more, own.length < depth → own.length ≤ more →
      arguments stop (expressionAt stop depth) more (own ++ rest) = .ok (values, rest)

/-- An operator that binds tightly enough is taken in with its right operand. -/
theorem ComesTo.operator {stop : Span} {read : Reader} {level : Level} {left node : Expr}
    {operator : Operator} {span : Span} {front back rest : List Token}
    (first : ComesTo stop read level left front (⟨operator.kind, span⟩ :: (back ++ rest)))
    (binds : level.rank ≤ operator.level.rank)
    (second : rightOperand read left operator (back ++ rest) = .ok (node, rest)) :
    ComesTo stop read level node (front ++ ⟨operator.kind, span⟩ :: back) rest := by
  obtain ⟨start, after, taken, arrives⟩ := first
  refine ⟨start, after, by rw [List.append_assoc, List.cons_append, taken], fun more enough => ?_⟩
  obtain ⟨fuel, fits, goesOn⟩ := arrives more enough
  simp only [List.length_cons, List.length_append] at fits
  obtain ⟨fewer, rfl⟩ : ∃ fewer, fuel = fewer + 1 := ⟨fuel - 1, by omega⟩
  refine ⟨fewer, by omega, ?_⟩
  rw [goesOn, operators_cons (Nat.not_lt.mpr binds) second]

theorem rightOperand_plain {read : Reader} {left right : Expr} {operator : Operator}
    (plain : operator.isComparison = false) {tokens rest : List Token}
    (taken : read operator.rightLevel tokens = .ok (right, rest)) :
    rightOperand read left operator tokens = .ok (operator.node left right, rest) := by
  unfold rightOperand
  rw [taken]
  cases operator with
  | comparison relation => cases plain
  | or => rfl
  | and => rfl
  | arithmetic operation => rfl

/-- What has a derivation is taken by the parser. -/
theorem Reads.takes {construct : Construct} {own rest : List Token}
    (reads : Reads construct own rest) (stop : Span) : Takes stop construct own rest := by
  induction reads with
  | int n span rest => exact fun _ _ => rfl
  | float x span rest => exact fun _ _ => rfl
  | string text span rest => exact fun _ _ => rfl
  | bool b span rest => exact fun _ _ => rfl
  | var name span apart => exact fun _ _ => named_of_separates apart stop _ name span
  | member record field first dot last rest => exact fun _ _ => rfl
  | emptyCall function first opens last rest => exact fun _ _ => rfl
  | @call function first opens last values own rest inner inductionHypothesis =>
    intro depth fits
    simp only [List.length_cons, List.length_append, List.length_nil] at fits
    have taken : callArguments stop (expressionAt stop depth)
        (own ++ ⟨.symbol .rightParen, last⟩ :: rest) = .ok ((values, last), rest) := by
      have readAll := inductionHypothesis depth
        (own ++ ⟨.symbol .rightParen, last⟩ :: rest).length (by omega)
        (by rw [List.length_append]; omega)
      unfold callArguments
      split
      · rename_i closes
        obtain ⟨token, more, rfl, opens⟩ := inner.openedBy
        cases closes
        exact absurd rfl opens
      · simp only [readAll, closing_eq_ok.mpr rfl]
    simp only [List.cons_append, List.append_assoc, List.nil_append, operand, named, taken]
  | @group opens last expr own rest inner inductionHypothesis =>
    intro depth fits
    simp only [List.length_cons, List.length_append, List.length_nil] at fits
    have taken := inductionHypothesis depth (by omega)
    simp only [List.cons_append, List.append_assoc, List.nil_append, operand, taken,
      closing_eq_ok.mpr rfl]
  | @signed sign span expr own rest inner inductionHypothesis =>
    intro depth fits
    rw [List.length_cons] at fits
    rw [List.cons_append, operand_cons_sign, signedOperand, inductionHypothesis depth (by omega)]
  | start level first inductionHypothesis =>
    intro depth fits
    exact ⟨_, _, inductionHypothesis depth fits, fun more enough => ⟨more, enough, rfl⟩⟩
  | joined operator plain span first binds second takesFirst takesSecond =>
    intro depth fits
    simp only [List.length_cons, List.length_append] at fits
    exact (takesFirst depth (by omega)).operator binds
      (rightOperand_plain plain (takesSecond depth (by omega)))
  | @compared relation level span left right links front middle back rest first binds second others
      takesFirst takesSecond takesOthers =>
    intro depth fits
    simp only [List.length_cons, List.length_append] at fits
    have readRight := takesSecond depth (by omega)
    have readLinks := takesOthers depth (back ++ rest).length (by omega)
      (by rw [List.length_append]; omega)
    have taken : rightOperand (expressionAt stop depth) left (.comparison relation)
        (middle ++ (back ++ rest)) = .ok (LineScript.compared left relation right links, rest) := by
      have level : (Operator.comparison relation).rightLevel = .term := rfl
      simp only [rightOperand, level, readRight, readLinks]
    rw [← List.append_assoc] at taken takesFirst
    exact (takesFirst depth (by omega)).operator binds taken
  | @whole level expr own rest inner ends inductionHypothesis =>
    intro depth fits
    obtain ⟨fuel, rfl⟩ : ∃ fuel, depth = fuel + 1 := ⟨depth - 1, by omega⟩
    obtain ⟨left, after, taken, arrives⟩ := inductionHypothesis fuel (by omega)
    obtain ⟨fewer, -, goesOn⟩ := arrives after.length (Nat.le_refl _)
    simp only [expressionAt, taken, goesOn, operators_of_stops ends]
  | noLinks ends =>
    intro depth more _ _
    cases more with
    | zero => rfl
    | succ more => rw [List.nil_append, chainLinks, ends]
  | @link relation span expr links front back rest first others takesFirst takesOthers =>
    intro depth more fits enough
    simp only [List.length_cons, List.length_append] at fits enough
    obtain ⟨fuel, rfl⟩ : ∃ fuel, more = fuel + 1 := ⟨more - 1, by omega⟩
    have taken := takesFirst depth (by omega)
    have readOthers := takesOthers depth fuel (by omega) (by omega)
    simp only [List.cons_append, List.append_assoc, chainLinks, nextComparison?, taken, readOthers]
  | @lastArgument value own rest inner ends inductionHypothesis =>
    intro depth more fits _
    rw [arguments, inductionHypothesis depth fits]
    simp only
    split
    · exact absurd rfl ends
    · rfl
  | @moreArguments span value values front back rest first others takesFirst takesOthers =>
    intro depth more fits enough
    simp only [List.length_cons, List.length_append] at fits enough
    obtain ⟨fuel, rfl⟩ : ∃ fuel, more = fuel + 1 := ⟨more - 1, by omega⟩
    have taken := takesFirst depth (by omega)
    have readOthers := takesOthers depth fuel (by omega) (by omega)
    rw [List.append_assoc, List.cons_append, arguments, taken]
    simp only [readOthers]

/-- Parsing gives a tree exactly if the tree can be derived from all the tokens. -/
theorem parse_eq_ok_iff {stream : TokenStream} {expr : Expr} :
    stream.parse = .ok expr ↔ Reads (.expression .or expr) stream.tokens [] := by
  constructor
  · intro parsed
    unfold TokenStream.parse at parsed
    split at parsed
    · cases parsed
    · rename_i taken
      cases parsed
      obtain ⟨own, same, reads⟩ := traced_expressionAt _ _ taken
      rw [same, List.append_nil]
      exact reads
    · cases parsed
  · intro reads
    have taken := reads.takes stream.stop (stream.tokens.length + 1) (Nat.lt_succ_self _)
    rw [List.append_nil] at taken
    unfold TokenStream.parse
    rw [taken]

/-- Tokens are an expression in one way at most. -/
theorem Reads.unique {first second : Expr} {tokens : List Token}
    (one : Reads (.expression .or first) tokens [])
    (other : Reads (.expression .or second) tokens []) : first = second := by
  have stop : Span := Position.origin.cover []
  have taken := one.takes stop (tokens.length + 1) (Nat.lt_succ_self _)
  have takenAgain := other.takes stop (tokens.length + 1) (Nat.lt_succ_self _)
  cases taken.symm.trans takenAgain
  rfl

end LineScript
