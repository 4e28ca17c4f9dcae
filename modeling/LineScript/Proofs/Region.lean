/-
This file is about the regions of parsed trees. Every node of a tree has tokens of its own, which
stand next to each other. Its region runs from the first of them to the last, so the regions of its
children lie inside of it, one behind the other. What the parser makes of these tokens does not
depend on the rest of the text: the part of the text in the region of a node, parsed alone, gives
the same tree. It stands at the start of a text then, so its regions are moved.
-/

import LineScript.Proofs.Derivation
import LineScript.Proofs.Walk

namespace LineScript

/-! ### Regions of rows -/

namespace Orderly

variable {tokens fewer front back : List Token}

theorem sublist (orderly : Orderly tokens) (part : fewer.Sublist tokens) : Orderly fewer where
  filled token member := orderly.filled token (part.subset member)
  ordered := orderly.ordered.sublist part

theorem left (orderly : Orderly (front ++ back)) : Orderly front :=
  orderly.sublist (List.sublist_append_left _ _)

theorem right (orderly : Orderly (front ++ back)) : Orderly back :=
  orderly.sublist (List.sublist_append_right _ _)

theorem tail {token : Token} (orderly : Orderly (token :: tokens)) : Orderly tokens :=
  orderly.sublist (List.sublist_cons_self _ _)

/-- A token ends before a token behind it begins. -/
theorem stop_le (orderly : Orderly (front ++ back)) {first second : Token}
    (inFront : first ∈ front) (inBack : second ∈ back) : first.span.stop ≤ second.span.start :=
  (List.pairwise_append.mp orderly.ordered).2.2 first inFront second inBack

end Orderly

namespace Covers

variable {span left right : Span} {tokens front back : List Token}

theorem single (kind : TokenKind) (span : Span) : Covers span [⟨kind, span⟩] :=
  ⟨⟨kind, span⟩, ⟨kind, span⟩, rfl, rfl, rfl⟩

/-- The region that covers tokens contains the regions of them all. -/
theorem contains (covers : Covers span tokens) (orderly : Orderly tokens) {token : Token}
    (member : token ∈ tokens) : span.start ≤ token.span.start ∧ token.span.stop ≤ span.stop := by
  obtain ⟨first, last, head, ends, rfl⟩ := covers
  constructor
  · obtain ⟨others, rfl⟩ := List.head?_eq_some_iff.mp head
    rcases List.mem_cons.mp member with rfl | later
    · exact Nat.le_refl _
    · have filled := orderly.filled first List.mem_cons_self
      have before := (List.pairwise_cons.mp orderly.ordered).1 token later
      show first.span.start ≤ token.span.start
      omega
  · obtain ⟨others, rfl⟩ := List.getLast?_eq_some_iff.mp ends
    rcases List.mem_append.mp member with earlier | same
    · have filled := orderly.filled last (List.mem_append_right _ (List.mem_singleton_self _))
      have before := orderly.stop_le earlier (List.mem_singleton_self _)
      show token.span.stop ≤ last.span.stop
      omega
    · rw [List.mem_singleton.mp same]

/-- Two regions that cover the two ends of a row merge to the region that covers the row. -/
theorem merge (first : Covers left front) (second : Covers right back) (middle : List Token)
    (orderly : Orderly (front ++ (middle ++ back))) :
    Covers (left.merge right) (front ++ (middle ++ back)) := by
  obtain ⟨firstToken, frontLast, head, frontEnd, rfl⟩ := first
  obtain ⟨backFirst, lastToken, backHead, last, rfl⟩ := second
  have inFront := List.mem_of_mem_head? head
  have inBack := List.mem_of_mem_head? backHead
  have before := orderly.stop_le inFront (List.mem_append_right middle inBack)
  have filled := orderly.filled firstToken (List.mem_append_left _ inFront)
  have endsBefore := orderly.stop_le (List.mem_of_getLast? frontEnd)
    (List.mem_append_right middle (List.mem_of_getLast? last))
  have lastFilled := orderly.filled lastToken (List.mem_append_right _
    (List.mem_append_right middle (List.mem_of_getLast? last)))
  refine ⟨firstToken, lastToken, ?_, ?_, ?_⟩
  · rw [List.head?_append, head]
    rfl
  · rw [List.getLast?_append, List.getLast?_append, last]
    rfl
  · have order : firstToken.span.start ≤ backFirst.span.start := by omega
    have ends : frontLast.span.stop ≤ lastToken.span.stop := by omega
    simp only [Span.merge, if_pos order, Nat.min_eq_left order, Nat.max_eq_right ends]

end Covers

/-! ### Regions of derived trees -/

theorem span_compared (first : Expr) (relation : Comparison) (second : Expr)
    (links : List (Comparison × Expr)) :
    (compared first relation second links).span =
      links.foldl (fun span link => span.merge link.2.span) (first.span.merge second.span) := by
  cases links with
  | nil => rfl
  | cons link rest => rfl

theorem Operator.span_node (operator : Operator) (left right : Expr) :
    (operator.node left right).span = left.span.merge right.span := by
  cases operator <;> rfl

/-- What a reading gives covers the tokens that it takes. Further links extend what was covered in
front of them, and arguments are covered by their call. -/
def Construct.CoveredBy (own : List Token) : Construct → Prop
  | .operand expr => Covers expr.span own
  | .growing _ expr => Covers expr.span own
  | .expression _ expr => Covers expr.span own
  | .links row => ∀ (span : Span) (front : List Token), Covers span front →
      Orderly (front ++ own) →
      Covers (row.foldl (fun span link => span.merge link.2.span) span) (front ++ own)
  | .arguments _ => True

theorem Reads.coveredBy {construct : Construct} {own rest : List Token}
    (reads : Reads construct own rest) (orderly : Orderly own) : construct.CoveredBy own := by
  induction reads with
  | int n span => exact .single _ span
  | float x span => exact .single _ span
  | string text span => exact .single _ span
  | bool b span => exact .single _ span
  | var name span => exact .single _ span
  | member record field first dot last =>
    exact (Covers.single _ first).merge (.single _ last) [_] orderly
  | emptyCall function first opens last =>
    exact (Covers.single _ first).merge (.single _ last) [_] orderly
  | call function first opens last =>
    exact (Covers.single _ first).merge (.single _ last) (_ :: _) orderly
  | group opens last => exact (Covers.single _ opens).merge (.single _ last) _ orderly
  | signed sign span _ inductionHypothesis =>
    exact (Covers.single _ span).merge
      (inductionHypothesis orderly.tail) [] orderly
  | start level _ inductionHypothesis => exact inductionHypothesis orderly
  | joined operator _ span _ _ _ first second =>
    rw [Construct.CoveredBy, Operator.span_node]
    exact (first orderly.left).merge (second orderly.right.tail) [_] orderly
  | @compared relation level span left right links front middle back rest _ _ _ _ first second
      others =>
    rw [Construct.CoveredBy, span_compared]
    rw [← List.cons_append, ← List.append_assoc] at orderly ⊢
    exact others orderly.right _ _
      ((first orderly.left.left).merge (second orderly.left.right.tail) [_] orderly.left) orderly
  | whole _ _ inductionHypothesis => exact inductionHypothesis orderly
  | noLinks =>
    intro span front covers _
    rw [List.append_nil]
    exact covers
  | @link relation span expr links front back rest _ _ first others =>
    intro region before covers orderlyAll
    rw [List.foldl_cons]
    rw [← List.cons_append, ← List.append_assoc] at orderlyAll ⊢
    exact others orderlyAll.right _ _
      (covers.merge (first orderlyAll.left.right.tail) [_] orderlyAll.left) orderlyAll
  | lastArgument => trivial
  | moreArguments => trivial

/-! ### Nodes and their tokens -/

/-- The trees right below the root of a tree, from left to right. -/
def Expr.children : Expr → List Expr
  | .unary _ operand _ => [operand]
  | .binary _ left right _ => [left, right]
  | .chain first links _ => first :: links.map Prod.snd
  | .and left right _ => [left, right]
  | .or left right _ => [left, right]
  | .group inner _ => [inner]
  | .call _ arguments _ => arguments
  | _ => []

/-- How many tokens of a tree stand before its first child. -/
def Expr.lead : Expr → Nat
  | .unary _ _ _ => 1
  | .group _ _ => 1
  | .call _ _ _ => 2
  | _ => 0

/-- Trees with the number of tokens before each of them: so many before the first, and one between
any two. -/
def placed : Nat → List Expr → List (Nat × Expr)
  | _, [] => []
  | before, child :: rest => (before, child) :: placed (before + child.yield.length + 1) rest

/-- A tree has a node, and so many of its tokens stand before those of the node. -/
inductive Expr.HasNode : Expr → Nat → Expr → Prop
  | root (expr : Expr) : Expr.HasNode expr 0 expr
  | deeper {expr child node : Expr} {before inside : Nat}
      (member : (before, child) ∈ placed expr.lead expr.children)
      (inner : Expr.HasNode child inside node) : Expr.HasNode expr (before + inside) node

theorem Reads.yield_eq {level : Level} {expr : Expr} {own rest : List Token}
    (reads : Reads (.growing level expr) own rest) : expr.yield = kindsOf own := by
  have parsed : (TokenStream.mk own .nowhere).parse = .ok expr := parse_eq_ok_iff.mpr reads.alone
  exact yield_of_parse parsed

theorem Reads.length_yield {level : Level} {expr : Expr} {own rest : List Token}
    (reads : Reads (.growing level expr) own rest) : expr.yield.length = own.length := by
  rw [reads.yield_eq, kindsOf, List.length_map]

/-- Trees that were read from parts of a row of tokens: the first behind so many tokens, and every
other behind one more. -/
inductive Tiles : Nat → List Expr → List Token → Prop
  | nothing (before : Nat) (tokens : List Token) : Tiles before [] tokens
  | child (front : List Token) {level : Level} {expr : Expr} {children : List Expr}
      {own rest back : List Token} (reads : Reads (.growing level expr) own rest)
      (others : Tiles 1 children back) :
      Tiles front.length (expr :: children) (front ++ (own ++ back))

namespace Tiles

variable {before : Nat} {children : List Expr} {tokens : List Token}

/-- A single tree, with nothing behind it. -/
theorem last (front : List Token) {level : Level} {expr : Expr} {own rest : List Token}
    (reads : Reads (.growing level expr) own rest) : Tiles front.length [expr] (front ++ own) := by
  have tiles := Tiles.child front reads (.nothing 1 [])
  rw [List.append_nil] at tiles
  exact tiles

theorem withFront (tiles : Tiles before children tokens) (front : List Token) :
    Tiles (front.length + before) children (front ++ tokens) := by
  cases tiles with
  | nothing => exact .nothing _ _
  | child between reads others =>
    rw [← List.append_assoc, ← List.length_append]
    exact .child (front ++ between) reads others

theorem withBack (tiles : Tiles before children tokens) (back : List Token) :
    Tiles before children (tokens ++ back) := by
  induction tiles with
  | nothing => exact .nothing _ _
  | child front reads _ inductionHypothesis =>
    rw [List.append_assoc, List.append_assoc]
    exact .child front reads inductionHypothesis

/-- The part of the row that one of the trees was read from. -/
theorem exists_part (tiles : Tiles before children tokens) {passed index : Nat} {expr : Expr}
    (member : (index, expr) ∈ placed (passed + before) children) :
    ∃ (front own back rest : List Token) (level : Level), tokens = front ++ (own ++ back) ∧
      index = passed + front.length ∧ Reads (.growing level expr) own rest := by
  induction tiles generalizing passed with
  | nothing => cases member
  | @child front level first children own rest back reads others inductionHypothesis =>
    rcases List.mem_cons.mp member with same | later
    · cases same
      exact ⟨front, own, back, rest, level, rfl, rfl, reads⟩
    · rw [reads.length_yield] at later
      obtain ⟨gap, part, last, behind, inner, rfl, rfl, readsPart⟩ := inductionHypothesis later
      refine ⟨front ++ (own ++ gap), part, last, behind, inner, ?_, ?_, readsPart⟩
      · simp only [List.append_assoc]
      · simp only [List.length_append]
        omega

/-- Trees that were read from a row lie in it, one behind the other. -/
theorem ordered (tiles : Tiles before children tokens) (orderly : Orderly tokens) :
    (∀ child ∈ children, ∃ first ∈ tokens, ∃ last ∈ tokens,
        child.span.start = first.span.start ∧ child.span.stop = last.span.stop) ∧
      children.Pairwise fun left right => left.span.stop ≤ right.span.start := by
  induction tiles with
  | nothing => exact ⟨List.forall_mem_nil _, .nil⟩
  | @child front level expr children own rest back reads others inductionHypothesis =>
    obtain ⟨within, pairwise⟩ := inductionHypothesis orderly.right.right
    have covers : Covers expr.span own := reads.coveredBy orderly.right.left
    obtain ⟨first, last, head, ends, region⟩ := covers
    have start : expr.span.start = first.span.start := by rw [region]
    have stop : expr.span.stop = last.span.stop := by rw [region]
    refine ⟨List.forall_mem_cons.mpr ⟨?_, fun child member => ?_⟩, List.pairwise_cons.mpr
      ⟨fun child member => ?_, pairwise⟩⟩
    · exact ⟨first, by simp [List.mem_of_mem_head? head], last,
        by simp [List.mem_of_getLast? ends], start, stop⟩
    · obtain ⟨left, inLeft, right, inRight, same⟩ := within child member
      exact ⟨left, by simp [inLeft], right, by simp [inRight], same⟩
    · obtain ⟨left, inLeft, right, inRight, same, -⟩ := within child member
      rw [stop, same]
      exact orderly.right.stop_le (List.mem_of_getLast? ends) inLeft

end Tiles

/-- The trees that a reading gives, below its root if it gives a single tree, and how many tokens
stand before the first. -/
def Construct.parts : Construct → Nat × List Expr
  | .operand expr => (expr.lead, expr.children)
  | .growing _ expr => (expr.lead, expr.children)
  | .expression _ expr => (expr.lead, expr.children)
  | .links row => (1, row.map Prod.snd)
  | .arguments values => (0, values)

theorem Operator.tiles_node (operator : Operator) {left right : Expr} {tokens : List Token}
    (tiles : Tiles 0 [left, right] tokens) :
    Tiles (operator.node left right).lead (operator.node left right).children tokens := by
  cases operator <;> exact tiles

theorem tiles_compared {left right : Expr} {links : List (Comparison × Expr)} {tokens : List Token}
    (relation : Comparison) (tiles : Tiles 0 (left :: right :: links.map Prod.snd) tokens) :
    Tiles (compared left relation right links).lead (compared left relation right links).children
      tokens := by
  cases links <;> exact tiles

theorem Reads.tiles {construct : Construct} {own rest : List Token}
    (reads : Reads construct own rest) : Tiles construct.parts.1 construct.parts.2 own := by
  induction reads with
  | call function first opens last inner inductionHypothesis =>
    exact (inductionHypothesis.withBack _).withFront [_, _]
  | group opens last inner => exact .child [_] inner.grown (.nothing 1 _)
  | signed sign span inner => exact .last [_] inner.grown
  | start _ _ inductionHypothesis => exact inductionHypothesis
  | joined operator _ span first _ second =>
    exact operator.tiles_node (.child [] first (.last [_] second.grown))
  | compared relation span first _ second _ _ _ inductionHypothesis =>
    exact tiles_compared relation (.child [] first (.child [_] second.grown inductionHypothesis))
  | whole _ _ inductionHypothesis => exact inductionHypothesis
  | link relation span first _ _ inductionHypothesis =>
    exact .child [_] first.grown inductionHypothesis
  | lastArgument inner => exact .last [] inner.grown
  | moreArguments span first _ _ inductionHypothesis =>
    exact .child [] first.grown (inductionHypothesis.withFront [_])
  | _ => exact .nothing _ _

/-- Every node of a tree was read from a part of the tokens of the tree. -/
theorem Reads.node {level : Level} {expr node : Expr} {own rest : List Token} {before : Nat}
    (reads : Reads (.growing level expr) own rest) (has : expr.HasNode before node) :
    ∃ (front part back behind : List Token) (inner : Level), own = front ++ (part ++ back) ∧
      before = front.length ∧ Reads (.growing inner node) part behind := by
  induction has generalizing level own rest with
  | root expr => exact ⟨[], own, [], rest, level, (List.append_nil own).symm, rfl, reads⟩
  | @deeper expr child node before inside member _ inductionHypothesis =>
    rw [← Nat.zero_add expr.lead] at member
    obtain ⟨front, part, back, behind, inner, rfl, rfl, readsChild⟩ :=
      reads.tiles.exists_part member
    obtain ⟨left, own, right, last, level, rfl, rfl, readsNode⟩ := inductionHypothesis readsChild
    refine ⟨front ++ left, own, right ++ back, last, level, ?_, ?_, readsNode⟩
    · simp only [List.append_assoc]
    · rw [List.length_append, Nat.zero_add]

/-! ### Trees that are moved -/

mutual

/-- A tree in a text with so many bytes and characters more in front. -/
def Expr.moved (bytes columns : Nat) : Expr → Expr
  | .int n span => .int n (span.moved bytes columns)
  | .float x span => .float x (span.moved bytes columns)
  | .string text span => .string text (span.moved bytes columns)
  | .bool b span => .bool b (span.moved bytes columns)
  | .var name span => .var name (span.moved bytes columns)
  | .member record field span => .member record field (span.moved bytes columns)
  | .unary sign operand span =>
    .unary sign (operand.moved bytes columns) (span.moved bytes columns)
  | .binary op left right span =>
    .binary op (left.moved bytes columns) (right.moved bytes columns) (span.moved bytes columns)
  | .chain first links span =>
    .chain (first.moved bytes columns) (Expr.movedLinks bytes columns links)
      (span.moved bytes columns)
  | .and left right span =>
    .and (left.moved bytes columns) (right.moved bytes columns) (span.moved bytes columns)
  | .or left right span =>
    .or (left.moved bytes columns) (right.moved bytes columns) (span.moved bytes columns)
  | .group inner span => .group (inner.moved bytes columns) (span.moved bytes columns)
  | .call function arguments span =>
    .call function (Expr.movedAll bytes columns arguments) (span.moved bytes columns)

/-- The links of a chain in a text with more in front. -/
def Expr.movedLinks (bytes columns : Nat) : List (Comparison × Expr) → List (Comparison × Expr)
  | [] => []
  | (comparison, operand) :: rest =>
    (comparison, operand.moved bytes columns) :: Expr.movedLinks bytes columns rest

/-- Trees in a text with more in front. -/
def Expr.movedAll (bytes columns : Nat) : List Expr → List Expr
  | [] => []
  | first :: rest => first.moved bytes columns :: Expr.movedAll bytes columns rest

end

section

variable (bytes columns : Nat)

theorem Span.moved_merge (left right : Span) :
    (left.merge right).moved bytes columns =
      (left.moved bytes columns).merge (right.moved bytes columns) := by
  simp only [Span.merge, Span.moved, Nat.add_le_add_iff_right, Nat.add_min_add_right,
    Nat.add_max_add_right]
  split_ifs <;> rfl

theorem Expr.span_moved (expr : Expr) :
    (expr.moved bytes columns).span = expr.span.moved bytes columns := by
  cases expr <;> simp only [Expr.moved, Expr.span]

theorem Operator.moved_node (operator : Operator) (left right : Expr) :
    (operator.node left right).moved bytes columns =
      operator.node (left.moved bytes columns) (right.moved bytes columns) := by
  cases operator <;>
    simp only [Operator.node, Expr.moved, Span.moved_merge, Expr.span_moved]

theorem moved_foldl_merge (links : List (Comparison × Expr)) (span : Span) :
    (links.foldl (fun span link => span.merge link.2.span) span).moved bytes columns =
      (Expr.movedLinks bytes columns links).foldl (fun span link => span.merge link.2.span)
        (span.moved bytes columns) := by
  induction links generalizing span with
  | nil => simp only [Expr.movedLinks, List.foldl_nil]
  | cons link rest inductionHypothesis =>
    simp only [Expr.movedLinks, List.foldl_cons, inductionHypothesis, Span.moved_merge,
      Expr.span_moved]

theorem moved_compared (first : Expr) (relation : Comparison) (second : Expr)
    (links : List (Comparison × Expr)) :
    (compared first relation second links).moved bytes columns =
      compared (first.moved bytes columns) relation (second.moved bytes columns)
        (Expr.movedLinks bytes columns links) := by
  cases links with
  | nil => simp only [compared, Expr.moved, Expr.movedLinks, Span.moved_merge, Expr.span_moved]
  | cons link rest =>
    simp only [compared, Expr.moved, Expr.movedLinks, moved_foldl_merge, Span.moved_merge,
      Expr.span_moved]

theorem kindsOf_moved (tokens : List Token) :
    kindsOf (tokens.map (Token.moved bytes columns)) = kindsOf tokens :=
  List.map_map

/-- What a reading gives in a text with more in front. -/
def Construct.moved : Construct → Construct
  | .operand expr => .operand (expr.moved bytes columns)
  | .growing level expr => .growing level (expr.moved bytes columns)
  | .expression level expr => .expression level (expr.moved bytes columns)
  | .links row => .links (Expr.movedLinks bytes columns row)
  | .arguments values => .arguments (Expr.movedAll bytes columns values)

theorem nextComparison?_moved {tokens : List Token} (ends : nextComparison? tokens = none) :
    nextComparison? (tokens.map (Token.moved bytes columns)) = none := by
  cases next : nextComparison? (tokens.map (Token.moved bytes columns)) with
  | none => rfl
  | some found =>
    have kinds := nextComparison?_eq_some next
    rw [kindsOf_moved] at kinds
    obtain ⟨span, others, rfl, -⟩ := kindsOf_eq_cons kinds
    cases ends

theorem Reads.moved {construct : Construct} {own rest : List Token}
    (reads : Reads construct own rest) :
    Reads (construct.moved bytes columns) (own.map (Token.moved bytes columns))
      (rest.map (Token.moved bytes columns)) := by
  induction reads with
  | int n span rest =>
    simp only [Construct.moved, Expr.moved]
    exact .int n _ _
  | float x span rest =>
    simp only [Construct.moved, Expr.moved]
    exact .float x _ _
  | string text span rest =>
    simp only [Construct.moved, Expr.moved]
    exact .string text _ _
  | bool b span rest =>
    simp only [Construct.moved, Expr.moved]
    exact .bool b _ _
  | var name span apart =>
    simp only [Construct.moved, Expr.moved]
    exact .var name _ (by rw [kindsOf_moved]; exact apart)
  | member record field first dot last rest =>
    simp only [Construct.moved, Expr.moved, Span.moved_merge]
    exact .member record field _ _ _ _
  | emptyCall function first opens last rest =>
    simp only [Construct.moved, Expr.moved, Expr.movedAll, Span.moved_merge]
    exact .emptyCall function _ _ _ _
  | call function first opens last _ inductionHypothesis =>
    simp only [Construct.moved, Expr.moved, Span.moved_merge, List.map_cons, List.map_append]
    exact .call function _ _ _ inductionHypothesis
  | group opens last _ inductionHypothesis =>
    simp only [Construct.moved, Expr.moved, Span.moved_merge, List.map_cons, List.map_append]
    exact .group _ _ inductionHypothesis
  | signed sign span _ inductionHypothesis =>
    simp only [Construct.moved, Expr.moved, Span.moved_merge, ← Expr.span_moved]
    exact .signed sign _ inductionHypothesis
  | start level _ inductionHypothesis => exact .start level inductionHypothesis
  | joined operator plain span _ binds _ first second =>
    simp only [List.map_cons, List.map_append] at first ⊢
    simp only [Construct.moved, Operator.moved_node]
    exact .joined operator plain _ first binds second
  | compared relation span _ binds _ _ first second others =>
    simp only [List.map_cons, List.map_append] at first second ⊢
    simp only [Construct.moved, moved_compared]
    exact .compared relation _ first binds second others
  | whole _ ends inductionHypothesis =>
    exact .whole inductionHypothesis (by rw [kindsOf_moved]; exact ends)
  | noLinks ends =>
    simp only [Construct.moved, Expr.movedLinks]
    exact .noLinks (nextComparison?_moved bytes columns ends)
  | link relation span _ _ first others =>
    simp only [List.map_cons, List.map_append] at first ⊢
    simp only [Construct.moved, Expr.movedLinks]
    exact .link relation _ first others
  | lastArgument _ ends inductionHypothesis =>
    simp only [Construct.moved, Expr.movedAll]
    exact .lastArgument inductionHypothesis (by rw [kindsOf_moved]; exact ends)
  | moreArguments span _ _ first others =>
    simp only [List.map_cons, List.map_append] at first ⊢
    simp only [Construct.moved, Expr.movedAll]
    exact .moreArguments _ first others

end

/-! ### Parts of a text -/

theorem Covers.unique {first second : Span} {tokens : List Token} (one : Covers first tokens)
    (other : Covers second tokens) : first = second := by
  obtain ⟨begins, ends, head, last, rfl⟩ := one
  obtain ⟨otherBegins, otherEnds, otherHead, otherLast, rfl⟩ := other
  rw [head, Option.some.injEq] at otherHead
  rw [last, Option.some.injEq] at otherLast
  rw [otherHead, otherLast]

theorem parseExpr_eq_ok_iff {text : String} {expr : Expr} :
    parseExpr text = .ok expr ↔
      ∃ tokens, Scans .origin text.toList [] tokens ∧ Reads (.expression .or expr) tokens [] := by
  unfold parseExpr
  constructor
  · intro parsed
    split at parsed
    · cases parsed
    · rename_i stream scanned
      exact ⟨stream.tokens, (scan_eq_ok_iff.mp scanned).1, parse_eq_ok_iff.mp parsed⟩
  · rintro ⟨tokens, walk, reads⟩
    have scanned : scan text =
        .ok ⟨tokens, (Position.origin.advance text.toList).cover []⟩ :=
      scan_eq_ok_iff.mpr ⟨walk, rfl⟩
    rw [scanned]
    exact parse_eq_ok_iff.mpr reads

/-- Whether there is a derivation depends only on the kinds of the tokens. -/
theorem Reads.exists_of_kindsOf_eq {expr : Expr} {tokens others : List Token}
    (reads : Reads (.expression .or expr) tokens []) (same : kindsOf others = kindsOf tokens) :
    ∃ result, Reads (.expression .or result) others [] := by
  have sentence : Derives .expression (kindsOf others) := by
    rw [same, ← reads.grown.yield_eq]
    exact expr.derives_yield
  obtain ⟨result, taken⟩ := (accepts_expressionAt .nowhere (others.length + 1)).whole others []
    (Nat.lt_succ_self _) sentence .nil
  obtain ⟨own, whole, readsOthers⟩ := traced_expressionAt _ _ taken
  rw [List.append_nil, List.append_nil] at whole
  exact ⟨result, whole ▸ readsOthers⟩

/-- What is derived from moved tokens is derived from the tokens themselves, and then moved. -/
theorem Reads.moved_back {bytes columns : Nat} {node : Expr} {tokens : List Token}
    (reads : Reads (.expression .or node) (tokens.map (Token.moved bytes columns)) []) :
    ∃ result, Reads (.expression .or result) tokens [] ∧ result.moved bytes columns = node := by
  -- Regions cannot simply be moved back, for nothing says that they lie far enough behind. But the
  -- tokens are an expression by their kinds, and their tree, when moved, can only be the node.
  obtain ⟨result, readsTokens⟩ := reads.exists_of_kindsOf_eq (kindsOf_moved bytes columns _).symm
  exact ⟨result, readsTokens, (readsTokens.moved bytes columns).unique reads⟩

/-- The characters of a tree, taken as a text of their own, are parsed to the same tree. -/
theorem parseExpr_ofList {passed middle behind : List Char} {level : Level} {node : Expr}
    {own rest : List Token} (walk : Scans (Position.origin.advance passed) middle behind own)
    (reads : Reads (.growing level node) own rest) :
    ∃ result, parseExpr (String.ofList middle) = .ok result ∧
      result.moved (String.utf8Len passed) passed.length = node := by
  have alone := walk.cut List.nil_prefix
  rw [Position.advance_eq_moved] at alone
  obtain ⟨tokens, rfl, walkTokens⟩ := alone.moved_back
  obtain ⟨result, readsTokens, same⟩ := reads.alone.moved_back
  refine ⟨result, parseExpr_eq_ok_iff.mpr ⟨tokens, ?_, readsTokens⟩, same⟩
  rw [String.toList_ofList]
  exact walkTokens

/-- In a text that is parsed, the region of every node runs from the first of its tokens to the
last. The regions of its children lie in it, one behind the other. The part of the text in this
region, parsed alone, gives the node, except that its regions count from the start of the part. -/
theorem parseExpr_node {text : String} {expr node : Expr} {before : Nat}
    (parsed : parseExpr text = .ok expr) (has : expr.HasNode before node) :
    (∃ stream own first last, scan text = .ok stream ∧
        own = (stream.tokens.drop before).take node.yield.length ∧ kindsOf own = node.yield ∧
        own.head? = some first ∧ own.getLast? = some last ∧
        node.span = ⟨first.span.start, last.span.stop, 1, first.span.column⟩) ∧
      (∀ child ∈ node.children,
        node.span.start ≤ child.span.start ∧ child.span.stop ≤ node.span.stop) ∧
      (node.children.Pairwise fun left right => left.span.stop ≤ right.span.start) ∧
      ∃ result, parseExpr (slice text node.span.start node.span.stop) = .ok result ∧
        result.moved node.span.start (node.span.column - 1) = node := by
  obtain ⟨tokens, walk, reads⟩ := parseExpr_eq_ok_iff.mp parsed
  obtain ⟨front, own, back, behind, level, rfl, rfl, readsNode⟩ := reads.grown.node has
  have orderly : Orderly own := walk.orderly.2.right.left
  have covers : Covers node.span own := readsNode.coveredBy orderly
  obtain ⟨passed, middle, tail, chars, walkOwn, region⟩ :=
    walk.segment (List.ne_nil_of_length_pos readsNode.alone.length_pos)
  have span : node.span = (Position.origin.advance passed).cover middle := covers.unique region
  obtain ⟨within, ordered⟩ := readsNode.tiles.ordered orderly
  refine ⟨?_, ?_, ordered, ?_⟩
  · obtain ⟨first, last, head, ends, runs⟩ := covers
    have line : first.span.line = 1 := congrArg Span.line (runs.symm.trans span)
    refine ⟨⟨_, _⟩, own, first, last, scan_eq_ok_iff.mpr ⟨walk, rfl⟩, ?_, ?_, head, ends, ?_⟩
    · rw [List.drop_left, readsNode.length_yield, List.take_left]
    · exact readsNode.yield_eq.symm
    · rw [runs, line]
  · intro child member
    obtain ⟨first, inFirst, last, inLast, start, stop⟩ := within child member
    rw [start, stop]
    exact ⟨(covers.contains orderly inFirst).1, (covers.contains orderly inLast).2⟩
  · have start : node.span.start = String.utf8Len passed := by
      rw [span, Position.advance_eq_moved]
      exact Nat.zero_add _
    have stop : node.span.stop = String.utf8Len passed + String.utf8Len middle := by
      rw [← start, span]
      exact offset_advance _ _
    have column : node.span.column - 1 = passed.length := by
      rw [span, Position.advance_eq_moved]
      exact Nat.add_sub_cancel_left 1 passed.length
    rw [stop, start, column, slice_eq chars]
    exact parseExpr_ofList walkOwn readsNode

/-- The tree of `not ä < f(b, -2)` behind four other characters. -/
def looseSign : Expr :=
  .unary .not
    (.binary (.comparison .less) (.var "ä" ⟨8, 10, 1, 9⟩)
      (.call "f" [.var "b" ⟨15, 16, 1, 15⟩,
        .unary .negate (.int 2 ⟨19, 20, 1, 19⟩) ⟨18, 20, 1, 18⟩] ⟨13, 21, 1, 13⟩)
      ⟨8, 21, 1, 9⟩) ⟨4, 21, 1, 5⟩

/-- A sign of a loose level behind an operator of a tight one. -/
def tightSum : Expr :=
  .binary (.arithmetic .add) (.int 1 ⟨0, 1, 1, 1⟩) looseSign ⟨0, 21, 1, 1⟩

theorem parseExpr_tightSum : parseExpr "1 + not ä < f(b, -2)" = .ok tightSum := by
  have scanned : scan "1 + not ä < f(b, -2)" = .ok ⟨[⟨.int 1, ⟨0, 1, 1, 1⟩⟩,
      ⟨.symbol (.arithmetic .add), ⟨2, 3, 1, 3⟩⟩, ⟨.symbol .not, ⟨4, 7, 1, 5⟩⟩,
      ⟨.name "ä", ⟨8, 10, 1, 9⟩⟩, ⟨.symbol (.comparison .less), ⟨11, 12, 1, 11⟩⟩,
      ⟨.name "f", ⟨13, 14, 1, 13⟩⟩, ⟨.symbol .leftParen, ⟨14, 15, 1, 14⟩⟩,
      ⟨.name "b", ⟨15, 16, 1, 15⟩⟩, ⟨.symbol .comma, ⟨16, 17, 1, 16⟩⟩,
      ⟨.symbol (.arithmetic .subtract), ⟨18, 19, 1, 18⟩⟩, ⟨.int 2, ⟨19, 20, 1, 19⟩⟩,
      ⟨.symbol .rightParen, ⟨20, 21, 1, 20⟩⟩], ⟨21, 21, 1, 21⟩⟩ := by decide +kernel
  rw [parseExpr, scanned]
  rfl

/-- Parsed alone, the part behind the operator gives the same tree as in the sum. -/
theorem parseExpr_node_looseSign :
    parseExpr "1 + not ä < f(b, -2)" = .ok tightSum ∧ tightSum.HasNode 2 looseSign ∧
      slice "1 + not ä < f(b, -2)" looseSign.span.start looseSign.span.stop = "not ä < f(b, -2)" ∧
      ∃ result,
        parseExpr (slice "1 + not ä < f(b, -2)" looseSign.span.start looseSign.span.stop) =
          .ok result ∧ result.moved 4 4 = looseSign := by
  have has : tightSum.HasNode 2 looseSign :=
    .deeper (List.mem_cons_of_mem _ List.mem_cons_self) (.root looseSign)
  obtain ⟨-, -, -, again⟩ := parseExpr_node parseExpr_tightSum has
  exact ⟨parseExpr_tightSum, has, by decide +kernel, again⟩

end LineScript
