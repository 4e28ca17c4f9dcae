/-
This file says how values of all kinds stand in one order. Two whole numbers compare exactly. Where
a float takes part, both are compared by their ranks among the floats, so two whole numbers of one
rank are told apart by each other only. Strictly less is transitive all the same, for ranks follow
the exact order. Equality is not: a float can be equal to two whole numbers that differ. This is the
only exception, and below `2 ^ 53` there is none.
-/

import LineScript.Proofs.Rank

namespace LineScript

/-! ### Standings -/

/-- Where a number stands: exactly, for a whole number, and else by its rank. -/
inductive Standing where
  | whole (n : ℤ)
  | rounded (rank : Rank)

namespace Standing

def rank : Standing → Rank
  | .whole n => wholeRank n
  | .rounded rank => rank

/-- Whole numbers are compared as they are, and others by their ranks. -/
def order : Standing → Standing → Ordering
  | .whole m, .whole n => compare m n
  | low, high => compare low.rank high.rank

/-- The standings are those of two whole numbers, or they compare by their ranks. -/
theorem order_cases (low high : Standing) :
    (∃ m n, low = .whole m ∧ high = .whole n ∧ low.order high = compare m n) ∨
      low.order high = compare low.rank high.rank := by
  cases low with
  | whole m =>
    cases high with
    | whole n => exact .inl ⟨m, n, rfl, rfl, rfl⟩
    | rounded high => exact .inr rfl
  | rounded low => exact .inr (by cases high <;> rfl)

theorem order_rounded_left (rank : Rank) (high : Standing) :
    (rounded rank).order high = compare rank high.rank := rfl

theorem order_rounded_right (low : Standing) (rank : Rank) :
    low.order (.rounded rank) = compare low.rank rank := by
  cases low <;> rfl

variable {low middle high : Standing}

theorem rank_le_of_order (below : low.order high ≠ .gt) : low.rank ≤ high.rank := by
  rcases order_cases low high with ⟨m, n, rfl, rfl, order⟩ | order
  · rw [order] at below
    exact wholeRank_mono (not_lt.mp fun above => below (compare_gt_iff_gt.mpr above))
  · rw [order] at below
    exact not_lt.mp fun above => below (compare_gt_iff_gt.mpr above)

theorem rank_eq_of_order (same : low.order high = .eq) : low.rank = high.rank := by
  rcases order_cases low high with ⟨m, n, rfl, rfl, order⟩ | order
  · rw [order] at same
    rw [compare_eq_iff_eq.mp same]
  · rw [order] at same
    exact compare_eq_iff_eq.mp same

theorem order_of_rank_lt (less : low.rank < high.rank) : low.order high = .lt := by
  rcases order_cases low high with ⟨m, n, rfl, rfl, order⟩ | order
  · rw [order]
    exact compare_lt_iff_lt.mpr (not_le.mp fun above => less.not_ge (wholeRank_mono above))
  · rw [order]
    exact compare_lt_iff_lt.mpr less

/-- Strictly less is transitive, although whole numbers compare exactly and others do not. -/
theorem order_trans (first : low.order middle = .lt) (second : middle.order high = .lt) :
    low.order high = .lt := by
  have firstRank : low.rank ≤ middle.rank := rank_le_of_order (by rw [first]; nofun)
  have secondRank : middle.rank ≤ high.rank := rank_le_of_order (by rw [second]; nofun)
  -- Neighbours that compare exactly may share a rank. If both steps are exact, the numbers decide.
  -- Otherwise one step goes up in rank, and the other does not go down.
  rcases order_cases low middle with ⟨m, k, rfl, rfl, order⟩ | order
  · rcases order_cases (.whole k) high with ⟨_, n, same, rfl, order'⟩ | order'
    · cases same
      rw [order, compare_lt_iff_lt] at first
      rw [order', compare_lt_iff_lt] at second
      exact compare_lt_iff_lt.mpr (first.trans second)
    · rw [order', compare_lt_iff_lt] at second
      exact order_of_rank_lt (firstRank.trans_lt second)
  · rw [order, compare_lt_iff_lt] at first
    exact order_of_rank_lt (first.trans_le secondRank)

end Standing

/-! ### Standings of values -/

namespace Value

/-- The standing of a value; none for strings and for what is no number. -/
def standing? : Value → Option Standing
  | .int n => some (.whole n.toInt)
  | .float x => (floatRank? x).map .rounded
  | .string _ => none
  | .bool b => some (.whole (ofBool b).toInt)

/-- How two values are ordered: as texts, by their standings, or not at all. -/
inductive Ordered (left right : Value) : Computed Ordering → Prop
  | texts {s t : String} (first : left = .string s) (second : right = .string t) :
      Ordered left right (.ok (Ord.compare s t))
  | numbers {low high : Standing} (first : left.standing? = some low)
      (second : right.standing? = some high) : Ordered left right (.ok (low.order high))
  | apart {reason : Mismatch} (missing : left.standing? = none ∨ right.standing? = none) :
      Ordered left right (.error (.mismatch reason))

theorem ordered_of_wholes {left right : Value} {m n : ℤ}
    (meet : left.compare right = .ok (Ord.compare m n))
    (first : left.standing? = some (.whole m)) (second : right.standing? = some (.whole n)) :
    Ordered left right (left.compare right) :=
  meet ▸ (Ordered.numbers first second :)

theorem rank_standing?_float (x : Float) :
    (Value.float x).standing?.map Standing.rank = floatRank? x := by
  cases ranked : floatRank? x <;> simp [standing?, ranked, Standing.rank]

/-- Values that meet as floats are ordered by their standings, if one of these is rounded. -/
theorem ordered_of_ranks {left right : Value} {x y : Float}
    (meet : left.compare right = (Value.float x).compare (.float y))
    (first : left.standing?.map Standing.rank = floatRank? x)
    (second : right.standing?.map Standing.rank = floatRank? y)
    (rounded : ∀ low high, left.standing? = some low → right.standing? = some high →
      low.order high = Ord.compare low.rank high.rank) :
    Ordered left right (left.compare right) := by
  rw [meet, compare_floats, floatOrder?_eq_compare, ← first, ← second]
  cases lowKnown : left.standing? with
  | none => exact .apart (.inl lowKnown)
  | some low =>
    cases highKnown : right.standing? with
    | none => exact .apart (.inr highKnown)
    | some high =>
      show Ordered left right (.ok (Ord.compare low.rank high.rank))
      rw [← rounded low high lowKnown highKnown]
      exact .numbers lowKnown highKnown

theorem ordered_float_left (x : Float) {right : Value} {y : Float}
    (meet : (Value.float x).compare right = (Value.float x).compare (.float y))
    (second : right.standing?.map Standing.rank = floatRank? y) :
    Ordered (.float x) right ((Value.float x).compare right) := by
  refine ordered_of_ranks meet (rank_standing?_float x) second fun low high known _ => ?_
  obtain ⟨rank, -, rfl⟩ := Option.map_eq_some_iff.mp known
  exact Standing.order_rounded_left rank high

theorem ordered_float_right {left : Value} {x : Float} (y : Float)
    (meet : left.compare (.float y) = (Value.float x).compare (.float y))
    (first : left.standing?.map Standing.rank = floatRank? x) :
    Ordered left (.float y) (left.compare (.float y)) := by
  refine ordered_of_ranks meet first (rank_standing?_float y) fun low high _ known => ?_
  obtain ⟨rank, -, rfl⟩ := Option.map_eq_some_iff.mp known
  exact Standing.order_rounded_right low rank

theorem ordered (left right : Value) : Ordered left right (left.compare right) := by
  cases left with
  | int m =>
    cases right with
    | int n => exact ordered_of_wholes rfl rfl rfl
    | float y => exact ordered_float_right y rfl (floatRank?_floatOf m).symm
    | string t => exact .apart (.inr rfl)
    | bool c => exact ordered_of_wholes rfl rfl rfl
  | float x =>
    cases right with
    | int n => exact ordered_float_left x rfl (floatRank?_floatOf n).symm
    | float y => exact ordered_float_left x rfl (rank_standing?_float y)
    | string t => exact .apart (.inr rfl)
    | bool c => exact ordered_float_left x rfl (floatRank?_floatOf _).symm
  | string s =>
    cases right with
    | string t => exact .texts rfl rfl
    | _ => exact .apart (.inl rfl)
  | bool b =>
    cases right with
    | int n => exact ordered_of_wholes rfl rfl rfl
    | float y => exact ordered_float_right y rfl (floatRank?_floatOf _).symm
    | string t => exact .apart (.inr rfl)
    | bool c => exact ordered_of_wholes rfl rfl rfl

/-- Values with an order are texts, or they have standings. -/
theorem cases_of_compare {left right : Value} {order : Ordering}
    (compared : left.compare right = .ok order) :
    (∃ s t, left = .string s ∧ right = .string t ∧ Ord.compare s t = order) ∨
      ∃ low high, left.standing? = some low ∧ right.standing? = some high ∧
        low.order high = order := by
  have ordered := left.ordered right
  rw [compared] at ordered
  cases ordered with
  | texts first second => exact .inl ⟨_, _, first, second, rfl⟩
  | numbers first second => exact .inr ⟨_, _, first, second, rfl⟩

theorem compare_of_standings {left right : Value} {low high : Standing}
    (first : left.standing? = some low) (second : right.standing? = some high) :
    left.compare right = .ok (low.order high) := by
  have ordered := left.ordered right
  generalize left.compare right = outcome at ordered ⊢
  cases ordered with
  | texts text _ =>
    rw [text] at first
    cases first
  | numbers found found' =>
    cases first.symm.trans found
    cases second.symm.trans found'
    rfl
  | apart missing =>
    rcases missing with missing | missing
    · cases first.symm.trans missing
    · cases second.symm.trans missing

/-- Two values have an order exactly if both are strings or both have a standing. -/
theorem exists_compare_iff {left right : Value} :
    (∃ order, left.compare right = .ok order) ↔
      left.isString = true ∧ right.isString = true ∨
        left.standing?.isSome = true ∧ right.standing?.isSome = true := by
  constructor
  · rintro ⟨order, compared⟩
    rcases cases_of_compare compared with ⟨s, t, rfl, rfl, -⟩ | ⟨low, high, first, second, -⟩
    · exact .inl ⟨rfl, rfl⟩
    · exact .inr ⟨Option.isSome_of_eq_some first, Option.isSome_of_eq_some second⟩
  · rintro (⟨first, second⟩ | ⟨first, second⟩)
    · cases left with
      | string s =>
        cases right with
        | string t => exact ⟨_, rfl⟩
        | _ => cases second
      | _ => cases first
    · obtain ⟨low, lowKnown⟩ := Option.isSome_iff_exists.mp first
      obtain ⟨high, highKnown⟩ := Option.isSome_iff_exists.mp second
      exact ⟨_, compare_of_standings lowKnown highKnown⟩

/-- Three values of which the second has an order with both others: they are texts or they all have
standings. -/
theorem cases_of_compare_compare {left middle right : Value} {order order' : Ordering}
    (first : left.compare middle = .ok order) (second : middle.compare right = .ok order') :
    (∃ s t u, left = .string s ∧ middle = .string t ∧ right = .string u ∧
        Ord.compare s t = order ∧ Ord.compare t u = order') ∨
      ∃ low mean high, left.standing? = some low ∧ middle.standing? = some mean ∧
        right.standing? = some high ∧ low.order mean = order ∧ mean.order high = order' := by
  rcases cases_of_compare first with
    ⟨s, t, rfl, rfl, text⟩ | ⟨low, mean, lowKnown, meanKnown, number⟩
  · rcases cases_of_compare second with ⟨_, u, same, rfl, text'⟩ | ⟨_, _, missing, -⟩
    · cases same
      exact .inl ⟨s, t, u, rfl, rfl, rfl, text, text'⟩
    · cases missing
  · rcases cases_of_compare second with
      ⟨_, _, rfl, -⟩ | ⟨_, high, meanKnown', highKnown, number'⟩
    · cases meanKnown
    · cases meanKnown.symm.trans meanKnown'
      exact .inr ⟨low, mean, high, lowKnown, meanKnown, highKnown, number, number'⟩

/-- Strictly less is transitive for values of all kinds. -/
theorem compare_trans {low middle high : Value} (first : low.compare middle = .ok .lt)
    (second : middle.compare high = .ok .lt) : low.compare high = .ok .lt := by
  rcases cases_of_compare_compare first second with
    ⟨s, t, u, rfl, rfl, rfl, text, text'⟩ | ⟨_, _, _, lowKnown, -, highKnown, number, number'⟩
  · exact congrArg Except.ok (Std.TransCmp.lt_trans text text')
  · rw [compare_of_standings lowKnown highKnown, Standing.order_trans number number']

end Value

/-! ### Equality -/

namespace Standing

variable {low middle high : Standing}

/-- Standings that are equal to a third one are equal, unless they are two whole numbers of one
rank that differ. The third one is then rounded. -/
theorem order_eq_trans (first : low.order middle = .eq) (second : middle.order high = .eq) :
    low.order high = .eq ∨
      ∃ m n, low = .whole m ∧ high = .whole n ∧ m ≠ n ∧ wholeRank m = wholeRank n ∧
        ∃ rank, middle = .rounded rank := by
  have same : low.rank = high.rank := (rank_eq_of_order first).trans (rank_eq_of_order second)
  rcases order_cases low high with ⟨m, n, rfl, rfl, order⟩ | order
  · by_cases equal : m = n
    · exact .inl (order.trans (compare_eq_iff_eq.mpr equal))
    · refine .inr ⟨m, n, rfl, rfl, equal, same, ?_⟩
      cases middle with
      | whole k =>
        exact absurd ((compare_eq_iff_eq.mp first).trans (compare_eq_iff_eq.mp second)) equal
      | rounded rank => exact ⟨rank, rfl⟩
  · exact .inl (order.trans (compare_eq_iff_eq.mpr same))

end Standing

namespace Value

theorem standing?_eq_whole {value : Value} {n : ℤ} (known : value.standing? = some (.whole n)) :
    value.whole? = some n := by
  cases value with
  | int m =>
    cases known
    rfl
  | float x =>
    obtain ⟨_, -, rounded⟩ := Option.map_eq_some_iff.mp known
    cases rounded
  | string text => cases known
  | bool b =>
    cases known
    cases b <;> rfl

theorem type_of_rounded {value : Value} {rank : Rank}
    (known : value.standing? = some (.rounded rank)) : value.type = .float := by
  cases value with
  | float x => rfl
  | _ => cases known

end Value

/-- Two values are equal exactly if their order says so. -/
theorem apply_equal_iff {left right : Value} :
    BinaryOp.apply (.comparison .equal) left right = .ok (.bool true) ↔
      left.compare right = .ok .eq := by
  rw [apply_comparison]
  rcases left.compare right with _ | (_ | _ | _) <;>
    simp [Comparison.outcome, Comparison.accepts]

/-- Equality is transitive, except that a float can be equal to two whole numbers that differ. Both
of them are then too large to be told apart as floats. -/
theorem equal_trans_or_rounded {left middle right : Value}
    (first : BinaryOp.apply (.comparison .equal) left middle = .ok (.bool true))
    (second : BinaryOp.apply (.comparison .equal) middle right = .ok (.bool true)) :
    BinaryOp.apply (.comparison .equal) left right = .ok (.bool true) ∨
      BinaryOp.apply (.comparison .equal) left right = .ok (.bool false) ∧
        middle.type = .float ∧
        ∃ m n, left.whole? = some m ∧ right.whole? = some n ∧ m ≠ n ∧
          2 ^ 53 ≤ m.natAbs ∧ 2 ^ 53 ≤ n.natAbs := by
  rw [apply_equal_iff] at first second
  rcases Value.cases_of_compare_compare first second with
    ⟨s, t, u, rfl, rfl, rfl, text, text'⟩ | ⟨_, _, _, known, rounded, known', number, number'⟩
  · exact .inl (apply_equal_iff.mpr (congrArg Except.ok (Std.TransCmp.eq_trans text text')))
  · have compared := Value.compare_of_standings known known'
    rcases Standing.order_eq_trans number number' with
      equal | ⟨m, n, rfl, rfl, differ, rank, _, rfl⟩
    · exact .inl (apply_equal_iff.mpr (compared.trans (congrArg Except.ok equal)))
    · refine .inr ⟨?_, Value.type_of_rounded rounded, m, n, Value.standing?_eq_whole known,
        Value.standing?_eq_whole known', differ, large_of_wholeRank_eq differ rank⟩
      rw [apply_comparison, compared]
      have apart : (compare m n == .eq) = false :=
        beq_eq_false_iff_ne.mpr fun equal => differ (compare_eq_iff_eq.mp equal)
      exact congrArg (fun same => Except.ok (Value.bool same)) apart

/-- One float is equal to two whole numbers that are one apart. -/
theorem equal_trans_or_rounded_adjacent :
    BinaryOp.apply (.comparison .equal) (.int 9007199254740992) (.float 9007199254740992.0) =
        .ok (.bool true) ∧
      BinaryOp.apply (.comparison .equal) (.float 9007199254740992.0) (.int 9007199254740993) =
        .ok (.bool true) ∧
      (BinaryOp.apply (.comparison .equal) (.int 9007199254740992) (.int 9007199254740993) =
          .ok (.bool true) ∨
        BinaryOp.apply (.comparison .equal) (.int 9007199254740992) (.int 9007199254740993) =
            .ok (.bool false) ∧
          (Value.float 9007199254740992.0).type = .float ∧
          ∃ m n, (Value.int 9007199254740992).whole? = some m ∧
            (Value.int 9007199254740993).whole? = some n ∧ m ≠ n ∧
            2 ^ 53 ≤ m.natAbs ∧ 2 ^ 53 ≤ n.natAbs) :=
  have first : BinaryOp.apply (.comparison .equal) (.int 9007199254740992)
      (.float 9007199254740992.0) = .ok (.bool true) := by decide +kernel
  have second : BinaryOp.apply (.comparison .equal) (.float 9007199254740992.0)
      (.int 9007199254740993) = .ok (.bool true) := by decide +kernel
  ⟨first, second, equal_trans_or_rounded first second⟩

/-- Equality is not transitive. -/
theorem equality_not_transitive :
    ∃ left middle right : Value,
      BinaryOp.apply (.comparison .equal) left middle = .ok (.bool true) ∧
        BinaryOp.apply (.comparison .equal) middle right = .ok (.bool true) ∧
        BinaryOp.apply (.comparison .equal) left right = .ok (.bool false) :=
  ⟨.int 9007199254740992, .float 9007199254740992.0, .int 9007199254740993, by decide +kernel⟩

end LineScript
