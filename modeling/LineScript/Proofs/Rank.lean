/-
This file ranks all numbers among the floats. The infinities stand at the ends, zero in the middle,
and other floats by their exponents and mantissas. Floats compare as their ranks do, and ranks are
linearly ordered. A whole number has the rank of the float nearest to it. The conversion does not
turn the order over, and two different whole numbers can share a rank only from `2 ^ 53` on.
-/

import LineScript.Proofs.Exact
import LineScript.Proofs.Nearest
import LineScript.Proofs.Order

namespace LineScript

open Number
open Float.Model (UnpackedFloat)

/-! ### Ranks of floats -/

/-- Where a number stands among the floats: by its side of zero, its exponent and its mantissa, in
this order. -/
abbrev Rank := ℤ ×ₗ ℤ ×ₗ ℤ

def Rank.of (side exponent mantissa : ℤ) : Rank :=
  toLex (side, toLex (exponent, mantissa))

namespace Rank

variable {side exponent mantissa side' exponent' mantissa' : ℤ}

theorem of_le_of :
    of side exponent mantissa ≤ of side' exponent' mantissa' ↔
      side < side' ∨ side = side' ∧
        (exponent < exponent' ∨ exponent = exponent' ∧ mantissa ≤ mantissa') := by
  simp only [of, Prod.Lex.toLex_le_toLex]

theorem of_lt_of :
    of side exponent mantissa < of side' exponent' mantissa' ↔
      side < side' ∨ side = side' ∧
        (exponent < exponent' ∨ exponent = exponent' ∧ mantissa < mantissa') := by
  simp only [of, Prod.Lex.toLex_lt_toLex]

theorem compare_of (side exponent exponent' mantissa mantissa' : ℤ) :
    compare (of side exponent mantissa) (of side exponent' mantissa') =
      (compare exponent exponent').then (compare mantissa mantissa') := by
  show (compare side side).then ((compare exponent exponent').then _) = _
  rw [compare_eq_iff_eq.mpr rfl]
  rfl

end Rank

/-- The rank of a float; none for what is no number. Below zero, a greater magnitude is less. -/
def unpackedRank? : UnpackedFloat → Option Rank
  | .notANumber => none
  | .infinity .negative => some (.of (-2) 0 0)
  | .finite .negative mantissa exponent _ => some (.of (-1) (-exponent) (-mantissa))
  | .zero _ => some (.of 0 0 0)
  | .finite .positive mantissa exponent _ => some (.of 1 exponent mantissa)
  | .infinity .positive => some (.of 2 0 0)

def floatRank? (x : Float) : Option Rank :=
  unpackedRank? x.toModel.unpack

theorem floatRank?_eq_none_iff {x : Float} : floatRank? x = none ↔ x.isNaN = true := by
  unfold floatRank? Float.isNaN Float.Model.isNaN
  rcases x.toModel.unpack with (_ | _) | _ | _ | ⟨_ | _, _, _, _⟩ <;>
    simp [unpackedRank?, UnpackedFloat.isNaN]

theorem compare_neg_neg (a b : ℤ) : compare (-a) (-b) = compare b a := by
  rw [Int.compare_eq_ite_lt, Int.compare_eq_ite_lt]
  simp only [neg_lt_neg_iff]

theorem compare_natCast (m n : ℕ) : compare (m : ℤ) n = compare m n := by
  rw [Int.compare_eq_ite_lt, Nat.compare_eq_ite_lt]
  simp only [Nat.cast_lt]

theorem unpacked_compare_eq (x y : UnpackedFloat) :
    x.compare y =
      (unpackedRank? x).bind fun low => (unpackedRank? y).map fun high => compare low high := by
  rcases x with (_ | _) | _ | _ | ⟨_ | _, m, e, _⟩ <;>
    rcases y with (_ | _) | _ | _ | ⟨_ | _, n, f, _⟩
  -- Ranks on different sides of zero compare by their sides. Two on one side are left.
  any_goals rfl
  · show _ = some (compare (Rank.of (-1) (-e) (-m)) (.of (-1) (-f) (-n)))
    rw [Rank.compare_of, compare_neg_neg, compare_neg_neg, compare_natCast,
      compare_magnitudes_swap]
    rfl
  · show _ = some (compare (Rank.of 1 e m) (.of 1 f n))
    rw [Rank.compare_of, compare_natCast]
    rfl

/-- Floats compare as their ranks do. -/
theorem floatOrder?_eq_compare (x y : Float) :
    floatOrder? x y =
      (floatRank? x).bind fun low => (floatRank? y).map fun high => compare low high :=
  (floatOrder?_eq x y).trans (unpacked_compare_eq _ _)

/-! ### Ranks of whole numbers -/

/-- The rank of the float nearest to a whole number. -/
def wholeRank (n : ℤ) : Rank :=
  .of n.sign (n.sign * (nearestParts n.natAbs).2) (n.sign * (nearestParts n.natAbs).1)

theorem wholeRank_of_pos {n : ℤ} (positive : 0 < n) :
    wholeRank n = .of 1 (nearestParts n.natAbs).2 (nearestParts n.natAbs).1 := by
  rw [wholeRank, Int.sign_eq_one_of_pos positive, one_mul, one_mul]

theorem wholeRank_of_neg {n : ℤ} (negative : n < 0) :
    wholeRank n = .of (-1) (-(nearestParts n.natAbs).2) (-(nearestParts n.natAbs).1) := by
  rw [wholeRank, Int.sign_eq_neg_one_of_neg negative, neg_one_mul, neg_one_mul]

theorem unpackedRank?_assembled (n : ℤ) :
    unpackedRank? (assembled (if n < 0 then .negative else .positive) (nearestParts n.natAbs)) =
      some (wholeRank n) := by
  rcases lt_trichotomy n 0 with negative | rfl | positive
  · have normal := isNormal_nearestParts (Int.natAbs_pos.mpr negative.ne)
    rw [if_pos negative, assembled_of_pos normal.pos, wholeRank_of_neg negative]
    rfl
  · rfl
  · have normal := isNormal_nearestParts (Int.natAbs_pos.mpr positive.ne')
    rw [if_neg positive.le.not_gt, assembled_of_pos normal.pos, wholeRank_of_pos positive]
    rfl

theorem floatRank?_floatOf (n : Int64) :
    floatRank? (Value.floatOf n) = some (wholeRank n.toInt) := by
  have bounded : n.toInt.natAbs < 2 ^ 64 := by
    have fits := fits_toInt n
    unfold Fits at fits
    omega
  rw [floatRank?, Value.floatOf, unpack_ofInt bounded, unpackedRank?_assembled]

/-- Two whole numbers stand on different sides of zero or not. -/
theorem sign_lt_or_same_side {m n : ℤ} (below : m < n) : m.sign < n.sign ∨ 0 < m ∨ n < 0 := by
  rcases lt_trichotomy m 0 with negative | rfl | positive
  · rcases lt_or_ge n 0 with alsoNegative | other
    · exact .inr (.inr alsoNegative)
    · rw [Int.sign_eq_neg_one_of_neg negative]
      exact .inl (lt_of_lt_of_le neg_one_lt_zero (Int.sign_nonneg_iff.mpr other))
  · rw [Int.sign_eq_one_of_pos below]
    exact .inl one_pos
  · exact .inr (.inl positive)

/-- The conversion to floats does not turn the order over. -/
theorem wholeRank_mono {m n : ℤ} (below : m ≤ n) : wholeRank m ≤ wholeRank n := by
  rcases below.eq_or_lt with rfl | below
  · exact le_rfl
  rcases sign_lt_or_same_side below with apart | positive | negative
  · exact (Rank.of_lt_of.mpr (.inl apart)).le
  · have parts := nearestParts_le (show 0 < m.natAbs by omega) (show m.natAbs ≤ n.natAbs by omega)
    rw [wholeRank_of_pos positive, wholeRank_of_pos (positive.trans below), Rank.of_le_of]
    omega
  · have parts := nearestParts_le (show 0 < n.natAbs by omega) (show n.natAbs ≤ m.natAbs by omega)
    rw [wholeRank_of_neg negative, wholeRank_of_neg (below.trans negative), Rank.of_le_of]
    omega

/-- If one of two numbers is not rounded, the conversion keeps them apart. -/
theorem wholeRank_lt {m n : ℤ} (below : m < n)
    (small : m.natAbs < 2 ^ 53 ∨ n.natAbs < 2 ^ 53) : wholeRank m < wholeRank n := by
  rcases sign_lt_or_same_side below with apart | positive | negative
  · exact Rank.of_lt_of.mpr (.inl apart)
  · have parts := nearestParts_lt (show 0 < m.natAbs by omega) (show m.natAbs < n.natAbs by omega)
      (by omega)
    rw [wholeRank_of_pos positive, wholeRank_of_pos (positive.trans below), Rank.of_lt_of]
    omega
  · have parts := nearestParts_lt (show 0 < n.natAbs by omega) (show n.natAbs < m.natAbs by omega)
      (by omega)
    rw [wholeRank_of_neg negative, wholeRank_of_neg (below.trans negative), Rank.of_lt_of]
    omega

/-- Different numbers of one rank are both too long to be exact. -/
theorem large_of_wholeRank_eq {m n : ℤ} (differ : m ≠ n) (same : wholeRank m = wholeRank n) :
    2 ^ 53 ≤ m.natAbs ∧ 2 ^ 53 ≤ n.natAbs := by
  by_contra small
  have either : m.natAbs < 2 ^ 53 ∨ n.natAbs < 2 ^ 53 := by omega
  rcases differ.lt_or_gt with below | above
  · exact (wholeRank_lt below either).ne same
  · exact (wholeRank_lt above either.symm).ne same.symm

end LineScript
