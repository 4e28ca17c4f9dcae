/-
This file shows that an expression can be written down and read again. The tokens of a tree are
rendered one after the other, with a space between them and with strings escaped. Scanning the text
gives the tokens back, and parsing the tokens gives back the tree, if it respects the levels.
-/

import LineScript.Proofs.Lexeme
import LineScript.Proofs.Precedence

namespace LineScript

open Text

/-! ### Rows of tokens -/

/-- The characters of a token that was read are passed over. -/
theorem tokensFrom_skip (front rest : List Char) (position : Position) :
    tokensFrom front.length position (front ++ rest) =
      tokensFrom 0 (position.advance front) rest := by
  induction front generalizing position with
  | nil => rfl
  | cons c front inductionHypothesis =>
    rw [List.length_cons, List.cons_append, tokensFrom, inductionHypothesis]
    rfl

/-- A lexeme that is read gives its token, and the walk goes on behind it. -/
theorem tokensFrom_read {first : Char} {more tail : List Char} {kind : TokenKind}
    (noGap : isGap first = false)
    (read : lexeme first (more ++ tail) = .ok (kind, more.length + 1)) (position : Position) :
    tokensFrom 0 position (first :: (more ++ tail)) =
      match tokensFrom 0 (position.advance (first :: more)) tail with
      | .error error => .error error
      | .ok (tokens, stop) => .ok (⟨kind, position.cover (first :: more)⟩ :: tokens, stop) := by
  have characters : (first :: (more ++ tail)).take (more.length + 1) = first :: more := by
    rw [List.take_succ_cons, List.take_left]
  rw [tokensFrom, noGap, read]
  simp only [Nat.add_sub_cancel, tokensFrom_skip, characters]
  rfl

/-- A written token is read, whatever ends it. -/
theorem tokensFrom_lexeme {kind : TokenKind} {chars : List Char} (reads : IsLexeme kind chars)
    {tail : List Char} (ends : EndsLexeme tail) (position : Position) {stop : Position}
    {tokens : List Token}
    (others : tokensFrom 0 (position.advance chars) tail = .ok (tokens, stop)) :
    tokensFrom 0 position (chars ++ tail) =
      .ok (⟨kind, position.cover chars⟩ :: tokens, stop) := by
  obtain ⟨first, more, rfl, noGap, taken⟩ := reads
  rw [List.cons_append, tokensFrom_read noGap (taken tail ends), others]

/-- Tokens that a source can hold. -/
def Writable (kinds : List TokenKind) : Prop :=
  ∀ kind ∈ kinds, kind.isWritable = true

theorem Writable.cons {kind : TokenKind} {kinds : List TokenKind} (first : kind.isWritable = true)
    (others : Writable kinds) : Writable (kind :: kinds) :=
  List.forall_mem_cons.mpr ⟨first, others⟩

theorem Writable.singleton {kind : TokenKind} (alone : kind.isWritable = true) : Writable [kind] :=
  .cons alone (List.forall_mem_nil _)

theorem Writable.append {front back : List TokenKind} (first : Writable front)
    (second : Writable back) : Writable (front ++ back) :=
  List.forall_mem_append.mpr ⟨first, second⟩

/-- Tokens as they are written, with a space between them. -/
def rendered (quote : Char) (kinds : List TokenKind) : String :=
  " ".intercalate (kinds.map (TokenKind.written quote))

theorem toList_rendered_singleton (quote : Char) (kind : TokenKind) :
    (rendered quote [kind]).toList = (kind.written quote).toList := by
  rw [rendered, String.toList_intercalate]
  exact List.intercalate_singleton

theorem toList_rendered_cons (quote : Char) (first second : TokenKind) (rest : List TokenKind) :
    (rendered quote (first :: second :: rest)).toList =
      (first.written quote).toList ++ ' ' :: (rendered quote (second :: rest)).toList := by
  rw [rendered, rendered, String.toList_intercalate, String.toList_intercalate]
  exact List.intercalate_cons_cons.trans (List.append_assoc _ _ _)

theorem tokensFrom_rendered {quote : Char} (quotes : isQuote quote = true)
    {kinds : List TokenKind} (writable : Writable kinds) (position : Position) :
    ∃ tokens stop, tokensFrom 0 position (rendered quote kinds).toList = .ok (tokens, stop) ∧
      kindsOf tokens = kinds := by
  induction kinds generalizing position with
  | nil => exact ⟨[], position, rfl, rfl⟩
  | cons kind others inductionHypothesis =>
    obtain ⟨first, later⟩ := List.forall_mem_cons.mp writable
    have reads := isLexeme_written quotes first
    cases others with
    | nil =>
      rw [toList_rendered_singleton]
      have walked := tokensFrom_lexeme reads .nil position (by rw [tokensFrom])
      rw [List.append_nil] at walked
      exact ⟨_, _, walked, rfl⟩
    | cons second rest =>
      obtain ⟨tokens, stop, walked, same⟩ :=
        inductionHypothesis later ((position.advance (kind.written quote).toList).next ' ')
      rw [toList_rendered_cons]
      refine ⟨_, stop, tokensFrom_lexeme reads (.space _) position ?_, congrArg (kind :: ·) same⟩
      rw [tokensFrom]
      exact walked

/-- Tokens that a source can hold are scanned as they are rendered. -/
theorem scan_rendered {quote : Char} (quotes : isQuote quote = true) {kinds : List TokenKind}
    (writable : Writable kinds) :
    ∃ stream, scan (rendered quote kinds) = .ok stream ∧ kindsOf stream.tokens = kinds := by
  obtain ⟨tokens, stop, walked, same⟩ := tokensFrom_rendered quotes writable .origin
  refine ⟨⟨tokens, stop.cover []⟩, ?_, same⟩
  rw [scan, walked]

/-! ### Trees -/

theorem writable_yieldLinks {links : List (Comparison × Expr)}
    (each : ∀ link ∈ links, Writable link.2.yield) : Writable (Expr.yieldLinks links) := by
  induction links with
  | nil => exact List.forall_mem_nil _
  | cons link others inductionHypothesis =>
    obtain ⟨first, later⟩ := List.forall_mem_cons.mp each
    rw [Expr.yieldLinks]
    exact .cons rfl (first.append (inductionHypothesis later))

theorem writable_yieldArguments {values : List Expr}
    (each : ∀ value ∈ values, Writable value.yield) : Writable (Expr.yieldArguments values) := by
  induction values with
  | nil => exact List.forall_mem_nil _
  | cons value others inductionHypothesis =>
    obtain ⟨first, later⟩ := List.forall_mem_cons.mp each
    by_cases last : others = []
    · rw [last, Expr.yieldArguments]
      exact first
    · rw [Expr.yieldArguments_cons value last]
      exact first.append (.cons rfl (inductionHypothesis later))

/-- The names and numbers of a tree that respects the levels can stand in a source. -/
theorem BindsAt.writable {level : Level} {expr : Expr} (binds : BindsAt level expr) :
    Writable expr.yield := by
  induction binds with
  | tighter _ _ inner => exact inner
  | or span _ _ first second => rw [Expr.yield]; exact first.append (.cons rfl second)
  | and span _ _ first second => rw [Expr.yield]; exact first.append (.cons rfl second)
  | not span _ inner => rw [Expr.yield]; exact .cons rfl inner
  | comparison relation span _ _ first second =>
    rw [Expr.yield]
    exact first.append (.cons rfl second)
  | chain span _ _ _ first each => rw [Expr.yield]; exact first.append (writable_yieldLinks each)
  | term span _ _ _ first second => rw [Expr.yield]; exact first.append (.cons rfl second)
  | factor span _ _ _ first second => rw [Expr.yield]; exact first.append (.cons rfl second)
  | signed span plain _ inner =>
    rw [Expr.yield]
    rcases plain with rfl | rfl <;> exact .cons rfl inner
  | power span _ _ first second => rw [Expr.yield]; exact first.append (.cons rfl second)
  | int span natural => rw [Expr.yield]; exact .singleton (decide_eq_true natural)
  | string text span => rw [Expr.yield]; exact .singleton rfl
  | bool b span => rw [Expr.yield]; exact .singleton rfl
  | var span identifier => rw [Expr.yield]; exact .singleton identifier
  | member span identifier fieldIdentifier =>
    rw [Expr.yield]
    exact .cons identifier (.cons rfl (.singleton fieldIdentifier))
  | group span _ inner => rw [Expr.yield]; exact .cons rfl (inner.append (.singleton rfl))
  | call span identifier _ each =>
    rw [Expr.yield]
    exact .cons identifier (.cons rfl ((writable_yieldArguments each).append (.singleton rfl)))

/-- A tree that respects the levels is read back from its rendered tokens, up to regions. -/
theorem parseExpr_rendered {quote : Char} (quotes : isQuote quote = true) {expr : Expr}
    (binds : BindsAt .or expr) :
    ∃ result, parseExpr (rendered quote expr.yield) = .ok result ∧ result.bare = expr.bare := by
  obtain ⟨stream, scanned, same⟩ := scan_rendered quotes binds.writable
  rw [parseExpr, scanned]
  exact parse_of_yield binds same

/-- The tree of `not a < 2 ** -b <= f('it\'s', p.q) and (true or c) // 7 % 3`. -/
def knottedTree : Expr :=
  .and
    (.unary .not
      (.chain (.var "a" .nowhere)
        [(.less, .binary (.arithmetic .power) (.int 2 .nowhere)
            (.unary .negate (.var "b" .nowhere) .nowhere) .nowhere),
          (.lessEqual, .call "f" [.string "it's" .nowhere, .member "p" "q" .nowhere] .nowhere)]
        .nowhere) .nowhere)
    (.binary (.arithmetic .modulo)
      (.binary (.arithmetic .floorDivide)
        (.group (.or (.bool true .nowhere) (.var "c" .nowhere) .nowhere) .nowhere)
        (.int 7 .nowhere) .nowhere)
      (.int 3 .nowhere) .nowhere) .nowhere

theorem bindsAt_knottedTree : BindsAt .or knottedTree := by
  have exponent : BindsAt .unary (.unary .negate (.var "b" .nowhere) .nowhere) :=
    .signed _ (.inl rfl) (.of_primary (.var _ (by decide +kernel)))
  have middle : BindsAt .term (.binary (.arithmetic .power) (.int 2 .nowhere)
      (.unary .negate (.var "b" .nowhere) .nowhere) .nowhere) :=
    .tighter (by decide) (.power _ (.int _ (by decide)) exponent)
  have last : BindsAt .term
      (.call "f" [.string "it's" .nowhere, .member "p" "q" .nowhere] .nowhere) := by
    refine .of_primary (.call _ (by decide +kernel) ?_)
    simp only [List.forall_mem_cons]
    exact ⟨.of_primary (.string _ _), .of_primary (.member _ (by decide +kernel)
      (by decide +kernel)), List.forall_mem_nil _⟩
  refine .tighter (by decide) (.and _ (.tighter (by decide) (.not _ (.tighter (by decide)
    (.chain _ (Nat.le_refl _) (.of_primary (.var _ (by decide +kernel))) ?_)))) ?_)
  · simp only [List.forall_mem_cons]
    exact ⟨middle, last, List.forall_mem_nil _⟩
  · have inside : BindsAt .or (.or (.bool true .nowhere) (.var "c" .nowhere) .nowhere) :=
      .or _ (.of_primary (.bool _ _)) (.of_primary (.var _ (by decide +kernel)))
    have divisor : BindsAt .unary (.int 7 .nowhere) := .of_primary (.int _ (by decide))
    have quotient := BindsAt.factor .nowhere (.inr (.inr (.inl rfl)))
      (.of_primary (.group .nowhere inside)) divisor
    exact .tighter (by decide) (.factor _ (.inr (.inr (.inr rfl))) quotient
      (.of_primary (.int _ (by decide))))

theorem parseExpr_knottedTree :
    rendered '\'' knottedTree.yield =
        "not a < 2 ** - b <= f ( 'it\\'s' , p . q ) and ( true or c ) // 7 % 3" ∧
      ∃ result, parseExpr (rendered '\'' knottedTree.yield) = .ok result ∧
        result.bare = knottedTree.bare :=
  ⟨by decide +kernel, parseExpr_rendered rfl bindsAt_knottedTree⟩

end LineScript
