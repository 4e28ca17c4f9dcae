/-
This file says that the six comparisons tell of one order. Equality and order of values are found in
different ways: equality looks at two values of one kind as they are, the order replaces booleans
first, and numbers of different kinds meet as floats in both. They agree all the same. Where two
values have an order, each comparison holds or not as this order says. Where they have none, the
comparisons that need one fail, and the values count as different.

Floats are compared by their bits. From there it is shown that the order of two floats is found the
same from both sides, and that they are equal exactly if it says so.
-/

import LineScript.Proofs.Promotion

namespace LineScript

open Float.Model (UnpackedFloat)

/-! ### Floats -/

/-- Exponents come first in the order of magnitudes, and the other way round it is turned over. -/
theorem compare_magnitudes_swap (m n : Nat) (e f : Int) :
    (Ord.compare f e).then (Ord.compare n m) =
      ((Ord.compare e f).then (Ord.compare m n)).swap := by
  rw [Ordering.swap_then, ← Std.OrientedCmp.eq_swap, ← Std.OrientedCmp.eq_swap]

theorem unpacked_compare_swap (x y : UnpackedFloat) :
    y.compare x = (x.compare y).map Ordering.swap := by
  rcases x with (_ | _) | _ | _ | ⟨_ | _, m, e, _⟩ <;>
    rcases y with (_ | _) | _ | _ | ⟨_ | _, n, f, _⟩
  -- Only finite numbers of one sign are left: all other pairs are decided by their shape.
  any_goals rfl
  · exact congrArg (fun order => some order.swap) (compare_magnitudes_swap m n e f)
  · exact congrArg some (compare_magnitudes_swap m n e f)

theorem float_lt_iff {x y : Float} : x < y ↔ x.toModel.compare y.toModel = some .lt := by
  show decide (x.toModel < y.toModel) = true ↔ _
  rw [decide_eq_true_eq]
  exact beq_iff_eq

theorem float_beq_iff {x y : Float} :
    (x == y) = true ↔ x.toModel.compare y.toModel = some .eq := by
  show (x.toModel.compare y.toModel == some .eq) = true ↔ _
  exact beq_iff_eq

theorem float_compare_swap (x y : Float) :
    y.toModel.compare x.toModel = (x.toModel.compare y.toModel).map Ordering.swap :=
  unpacked_compare_swap x.toModel.unpack y.toModel.unpack

/-- The order that is found by asking for less, equal and greater in turn is that of the bits. -/
theorem floatOrder?_eq (x y : Float) : floatOrder? x y = x.toModel.compare y.toModel := by
  simp only [floatOrder?, float_lt_iff, float_beq_iff, float_compare_swap x y]
  rcases x.toModel.compare y.toModel with _ | (_ | _ | _) <;> rfl

theorem floatOrder?_swap (x y : Float) :
    floatOrder? y x = (floatOrder? x y).map Ordering.swap := by
  rw [floatOrder?_eq, floatOrder?_eq, float_compare_swap]

theorem float_beq_eq (x y : Float) : (x == y) = (floatOrder? x y == some .eq) := by
  rw [Bool.eq_iff_iff, float_beq_iff, floatOrder?_eq, beq_iff_eq]

/-! ### Two values -/

/-- How two values meet: as whole numbers, as floats, as texts, or not at all. Each way says what
the order is from either side and whether the two are equal, booleans replaced. -/
inductive Value.Meets (left right : Value) : Prop
  | wholes (m n : Int64) (forth : left.compare right = .ok (Ord.compare m.toInt n.toInt))
      (back : right.compare left = .ok (Ord.compare n.toInt m.toInt))
      (equality : left.promote.equal right.promote = (m == n))
  | floats (x y : Float) (forth : left.compare right = (Value.float x).compare (.float y))
      (back : right.compare left = (Value.float y).compare (.float x))
      (equality : left.promote.equal right.promote = (x == y))
  | texts (s t : String) (forth : left.compare right = .ok (Ord.compare s t))
      (back : right.compare left = .ok (Ord.compare t s))
      (equality : left.promote.equal right.promote = (s == t))
  | apart (reason other : Mismatch) (forth : left.compare right = .error (.mismatch reason))
      (back : right.compare left = .error (.mismatch other))
      (equality : left.promote.equal right.promote = false)

theorem Value.meets (left right : Value) : left.Meets right := by
  cases left with
  | int m =>
    cases right with
    | int n => exact .wholes m n rfl rfl rfl
    | float y => exact .floats (floatOf m) y rfl rfl rfl
    | string t => exact .apart _ _ rfl rfl rfl
    | bool c => exact .wholes m (ofBool c) rfl rfl rfl
  | float x =>
    cases right with
    | int n => exact .floats x (floatOf n) rfl rfl rfl
    | float y => exact .floats x y rfl rfl rfl
    | string t => exact .apart _ _ rfl rfl rfl
    | bool c => exact .floats x (floatOf (ofBool c)) rfl rfl rfl
  | string s =>
    cases right with
    | string t => exact .texts s t rfl rfl rfl
    | _ => exact .apart _ _ rfl rfl rfl
  | bool b =>
    cases right with
    | int n => exact .wholes (ofBool b) n rfl rfl rfl
    | float y => exact .floats (floatOf (ofBool b)) y rfl rfl rfl
    | string t => exact .apart _ _ rfl rfl rfl
    | bool c => exact .wholes (ofBool b) (ofBool c) rfl rfl rfl

/-- The order of two floats as values. -/
theorem compare_floats (x y : Float) :
    (Value.float x).compare (.float y) =
      match floatOrder? x y with
      | some order => .ok order
      | none => .error (.mismatch .orderOfNan) := rfl

/-! ### The order from both sides -/

/-- The order of two values as it is found from the one side and from the other: turned over, or
missing from both. -/
inductive Swapped : Computed Ordering → Computed Ordering → Prop
  | ordered (order : Ordering) : Swapped (.ok order) (.ok order.swap)
  | unordered (reason other : Mismatch) :
      Swapped (.error (.mismatch reason)) (.error (.mismatch other))

theorem swapped_compare {α : Type} [Ord α] [Std.OrientedOrd α] (x y : α) :
    Swapped (.ok (Ord.compare x y)) (.ok (Ord.compare y x)) := by
  rw [@Std.OrientedCmp.eq_swap α Ord.compare _ y x]
  exact .ordered _

/-- Two values have the same order from both sides, turned over, or they have none. -/
theorem Value.compare_swapped (left right : Value) :
    Swapped (left.compare right) (right.compare left) := by
  cases left.meets right with
  | wholes m n forth back _ =>
    rw [forth, back]
    exact swapped_compare m.toInt n.toInt
  | floats x y forth back _ =>
    rw [forth, back, compare_floats, compare_floats, floatOrder?_swap x y]
    cases floatOrder? x y with
    | none => exact .unordered _ _
    | some order => exact .ordered order
  | texts s t forth back _ =>
    rw [forth, back]
    exact swapped_compare s t
  | apart reason other forth back _ =>
    rw [forth, back]
    exact .unordered reason other

/-! ### Equality and order -/

/-- Whether an order says that two values are equal. Without one they are not. -/
def saysEqual : Computed Ordering → Bool
  | .ok order => order == .eq
  | .error _ => false

/-- With booleans replaced, two values are equal exactly if their order says so. -/
theorem Value.equal_promote (left right : Value) :
    left.promote.equal right.promote = saysEqual (left.compare right) := by
  cases left.meets right with
  | wholes m n forth _ equality =>
    rw [forth, equality, saysEqual, Bool.eq_iff_iff, beq_iff_eq, beq_iff_eq,
      Std.LawfulEqOrd.compare_eq_iff_eq, Int64.toInt_inj]
  | floats x y forth _ equality =>
    rw [forth, equality, compare_floats, float_beq_eq]
    rcases floatOrder? x y with _ | (_ | _ | _) <;> rfl
  | texts s t forth _ equality =>
    rw [forth, equality, saysEqual, Bool.eq_iff_iff, beq_iff_eq, beq_iff_eq,
      Std.LawfulEqOrd.compare_eq_iff_eq]
  | apart reason other forth _ equality => rw [forth, equality, saysEqual]

/-! ### Comparisons -/

/-- What a comparison comes to by the order of its operands. Without an order they are different,
and any other comparison fails. -/
def Comparison.outcome (relation : Comparison) : Computed Ordering → Computed Value
  | .ok order => .ok (.bool (relation.accepts order))
  | .error fault =>
    match relation with
    | .equal => .ok (.bool false)
    | .notEqual => .ok (.bool true)
    | _ => .error fault

/-- A comparison goes by the order of its operands, if their equality does. -/
theorem Comparison.apply_eq_outcome {left right : Value}
    (agrees : left.equal right = saysEqual (left.compare right)) (relation : Comparison) :
    relation.apply left right = relation.outcome (left.compare right) := by
  unfold Comparison.apply
  rw [agrees]
  cases left.compare right with
  | ok order => cases relation <;> rfl
  | error fault => cases relation <;> rfl

/-- Away from strings, the order does not see whether booleans are replaced. -/
theorem Value.compare_promote {left right : Value}
    (plain : (left.isString || right.isString) = false) :
    left.promote.compare right.promote = left.compare right := by
  obtain ⟨first, second⟩ := Bool.or_eq_false_iff.mp plain
  cases left with
  | string s => cases first
  | _ =>
    cases right with
    | string t => cases second
    | _ => rfl

/-- Next to a string, equality does not see whether booleans are replaced. -/
theorem Value.equal_of_isString {left right : Value}
    (strings : (left.isString || right.isString) = true) :
    left.equal right = left.promote.equal right.promote := by
  rcases Bool.or_eq_true_iff.mp strings with first | second
  · cases left with
    | string s => cases right <;> rfl
    | _ => cases first
  · cases right with
    | string t => cases left <;> rfl
    | _ => cases second

/-- All six comparisons go by the order of their operands. -/
theorem apply_comparison (relation : Comparison) (left right : Value) :
    BinaryOp.apply (.comparison relation) left right =
      relation.outcome (left.compare right) := by
  unfold BinaryOp.apply
  split
  · rename_i strings
    exact Comparison.apply_eq_outcome
      ((Value.equal_of_isString strings).trans (left.equal_promote right)) relation
  · rename_i plain
    have same := Value.compare_promote (Bool.eq_false_iff.mpr plain)
    rw [← same]
    refine Comparison.apply_eq_outcome ?_ relation
    rw [same]
    exact left.equal_promote right

/-- If two values have an order, exactly one of less, equal and greater holds of them, the other
comparisons follow from these three, and from the other side the order is turned over. If they have
none, the four comparisons that need one fail with a mismatch from both sides, and the values are
not equal. -/
theorem comparisons_tell_one_order (left right : Value) :
    match left.compare right with
    | .ok order =>
      right.compare left = .ok order.swap ∧
        ∃ less equal greater : Bool,
          [less, equal, greater].count true = 1 ∧
          BinaryOp.apply (.comparison .less) left right = .ok (.bool less) ∧
          BinaryOp.apply (.comparison .equal) left right = .ok (.bool equal) ∧
          BinaryOp.apply (.comparison .greater) left right = .ok (.bool greater) ∧
          BinaryOp.apply (.comparison .lessEqual) left right = .ok (.bool (less || equal)) ∧
          BinaryOp.apply (.comparison .greaterEqual) left right = .ok (.bool (greater || equal)) ∧
          BinaryOp.apply (.comparison .notEqual) left right = .ok (.bool !equal) ∧
          BinaryOp.apply (.comparison .less) right left = .ok (.bool greater) ∧
          BinaryOp.apply (.comparison .equal) right left = .ok (.bool equal) ∧
          BinaryOp.apply (.comparison .greater) right left = .ok (.bool less)
    | .error _ =>
      (∀ relation ∈ [Comparison.less, .lessEqual, .greater, .greaterEqual],
          (∃ reason, BinaryOp.apply (.comparison relation) left right =
            .error (.mismatch reason)) ∧
          ∃ reason, BinaryOp.apply (.comparison relation) right left =
            .error (.mismatch reason)) ∧
        BinaryOp.apply (.comparison .equal) left right = .ok (.bool false) ∧
        BinaryOp.apply (.comparison .notEqual) left right = .ok (.bool true) := by
  simp only [apply_comparison]
  have swapped := left.compare_swapped right
  generalize left.compare right = forth at swapped ⊢
  generalize right.compare left = back at swapped ⊢
  cases swapped with
  | ordered order =>
    refine ⟨rfl, Comparison.accepts .less order, Comparison.accepts .equal order,
      Comparison.accepts .greater order, ?_⟩
    cases order <;> exact ⟨rfl, rfl, rfl, rfl, rfl, rfl, rfl, rfl, rfl, rfl⟩
  | unordered reason other =>
    refine ⟨fun relation ordering => ?_, rfl, rfl⟩
    simp only [List.mem_cons, List.not_mem_nil, or_false] at ordering
    rcases ordering with rfl | rfl | rfl | rfl <;> exact ⟨⟨reason, rfl⟩, other, rfl⟩

end LineScript
