/-
This file shows that the arithmetic of 64-bit numbers is exact where it has a result, and that it
has none only where the exact result is out of range. For quotients and remainders the exact result
is the floor of a rational number: the machine rounds toward zero, and what is done to mend that
never wraps. For powers the exponents have a limit of their own. Below it, repeated squaring leaves
the range only if the power does: no square is formed that is not part of it.
-/

import LineScript.Proofs.Lexeme
import Mathlib.Data.Rat.Floor
import Mathlib.Tactic.Linarith

namespace LineScript.Number

/-! ### The range -/

/-- The integers that are 64-bit numbers. -/
def Fits (n : Int) : Prop :=
  -2 ^ 63 ≤ n ∧ n < 2 ^ 63

instance (n : Int) : Decidable (Fits n) :=
  inferInstanceAs (Decidable (_ ∧ _))

theorem fits_toInt (n : Int64) : Fits n.toInt := by
  have least := n.minValue_le_toInt
  have greatest := n.toInt_le
  rw [Int64.toInt_minValue] at least
  rw [Int64.toInt_maxValue] at greatest
  exact ⟨least, Int.lt_of_le_sub_one greatest⟩

theorem fit?_eq (n : Int) : fit? n = if Fits n then some (Int64.ofInt n) else none := by
  have range : (Int64.minValue.toInt ≤ n ∧ n ≤ Int64.maxValue.toInt) ↔ Fits n := by
    rw [Int64.toInt_minValue, Int64.toInt_maxValue, Int.le_sub_one_iff, Fits]
  rw [fit?]
  simp only [range]

theorem toInt_ofInt_of_fits {n : Int} (fits : Fits n) : (Int64.ofInt n).toInt = n :=
  Int64.toInt_ofInt_of_le fits.1 fits.2

/-- Where the machine's difference does not wrap, it is the difference. -/
theorem toInt_sub_of_fits {m n : Int64} (fits : Fits (m.toInt - n.toInt)) :
    (m - n).toInt = m.toInt - n.toInt := by
  rw [Int64.toInt_sub]
  exact Int.bmod_eq_of_le fits.1 fits.2

theorem toInt_add_of_fits {m n : Int64} (fits : Fits (m.toInt + n.toInt)) :
    (m + n).toInt = m.toInt + n.toInt := by
  rw [Int64.toInt_add]
  exact Int.bmod_eq_of_le fits.1 fits.2

/-! ### Quotients that are rounded down -/

/-- A number cut into a multiple of the divisor and a rest between zero and the divisor. The rest
has the sign of the divisor, so the multiple is rounded down. -/
structure Divided (m n quotient rest : Int) : Prop where
  whole : n * quotient + rest = m
  between : 0 ≤ rest ∧ rest < n ∨ n < rest ∧ rest ≤ 0

namespace Divided

variable {m n quotient rest : Int}

theorem floor_eq (divided : Divided m n quotient rest) : ⌊(m : ℚ) / n⌋ = quotient := by
  have nonzero : (n : ℚ) ≠ 0 := by
    rw [Int.cast_ne_zero]
    rcases divided.between with between | between <;> omega
  have parts : (m : ℚ) / n = quotient + rest / n := by
    rw [← divided.whole, Int.cast_add, Int.cast_mul, add_div, mul_div_cancel_left₀ _ nonzero]
  have fraction : 0 ≤ (rest : ℚ) / n ∧ (rest : ℚ) / n < 1 := by
    rcases divided.between with ⟨low, high⟩ | ⟨low, high⟩
    · have positive : (0 : ℚ) < n := by exact_mod_cast low.trans_lt high
      rw [div_lt_one positive]
      exact ⟨div_nonneg (by exact_mod_cast low) positive.le, by exact_mod_cast high⟩
    · have negative : (n : ℚ) < 0 := by exact_mod_cast low.trans_le high
      rw [div_lt_one_of_neg negative]
      exact ⟨div_nonneg_of_nonpos (by exact_mod_cast high) negative.le, by exact_mod_cast low⟩
  rw [parts, Int.floor_intCast_add, Int.floor_eq_zero_iff.mpr fraction, add_zero]

theorem rest_eq (divided : Divided m n quotient rest) : m - n * ⌊(m : ℚ) / n⌋ = rest := by
  rw [divided.floor_eq, ← divided.whole, add_sub_cancel_left]

end Divided

/-- The remainder that goes with rounding toward zero is smaller than the divisor and has the sign
of the dividend. -/
theorem tmod_bounds (m : Int) {n : Int} (nonzero : n ≠ 0) :
    (m.tmod n).natAbs < n.natAbs ∧ (0 ≤ m → 0 ≤ m.tmod n) ∧ (m ≤ 0 → m.tmod n ≤ 0) := by
  refine ⟨?_, Int.tmod_nonneg n, fun negative => ?_⟩
  · rw [Int.natAbs_tmod]
    exact Nat.mod_lt _ (Int.natAbs_pos.mpr nonzero)
  · have opposite := Int.tmod_nonneg n (Int.neg_nonneg_of_nonpos negative)
    rw [Int.neg_tmod] at opposite
    omega

/-- Numbers whose quotient is another one when it is rounded down than when it is rounded toward
zero: something is left, and not with the sign of the divisor. -/
def RoundsApart (m n : Int) : Prop :=
  m.tmod n ≠ 0 ∧ ¬ (m.tmod n < 0 ↔ n < 0)

theorem divided_tdiv {m n : Int} (nonzero : n ≠ 0) (alike : ¬ RoundsApart m n) :
    Divided m n (m.tdiv n) (m.tmod n) where
  whole := Int.mul_tdiv_add_tmod m n
  between := by
    have bounds := tmod_bounds m nonzero
    unfold RoundsApart at alike
    omega

/-- The quotient that is rounded toward zero is one too large, and the rest lacks one divisor. -/
theorem RoundsApart.divided {m n : Int} (nonzero : n ≠ 0) (apart : RoundsApart m n) :
    Divided m n (m.tdiv n - 1) (m.tmod n + n) where
  whole := by
    have whole := Int.mul_tdiv_add_tmod m n
    rw [Int.mul_sub, Int.mul_one]
    omega
  between := by
    have bounds := tmod_bounds m nonzero
    unfold RoundsApart at apart
    omega

/-! ### Machine division -/

theorem eq_zero_iff_toInt {n : Int64} : n = 0 ↔ n.toInt = 0 :=
  Int64.toInt_inj.symm

theorem neg_iff_toInt {n : Int64} : n < 0 ↔ n.toInt < 0 :=
  Int64.lt_iff_toInt_lt

/-- The test that is made on the remainder. -/
theorem remainder_differs_iff {m n : Int64} :
    (m % n ≠ 0 ∧ decide (m % n < 0) ≠ decide (n < 0)) ↔ RoundsApart m.toInt n.toInt := by
  rw [ne_eq, ne_eq, decide_eq_decide, eq_zero_iff_toInt, neg_iff_toInt, neg_iff_toInt,
    Int64.toInt_mod, RoundsApart]

/-- The test that is made on the quotient asks for the sign of the dividend instead, which a
remainder that is not zero has as well. -/
theorem signs_differ_iff {m n : Int64} (nonzero : n.toInt ≠ 0) :
    (m % n ≠ 0 ∧ decide (m < 0) ≠ decide (n < 0)) ↔ RoundsApart m.toInt n.toInt := by
  have signs := (tmod_bounds m.toInt nonzero).2
  rw [ne_eq, ne_eq, decide_eq_decide, eq_zero_iff_toInt, neg_iff_toInt, neg_iff_toInt,
    Int64.toInt_mod, RoundsApart]
  omega

theorem toInt_div {m n : Int64} (inside : ¬ (m = Int64.minValue ∧ n = -1)) :
    (m / n).toInt = m.toInt.tdiv n.toInt := by
  by_cases least : m = Int64.minValue
  · exact Int64.toInt_div_of_ne_right m n fun same => inside ⟨least, same⟩
  · exact Int64.toInt_div_of_ne_left m n least

/-- If something is left, the divisor is not one, so the quotient is at most half of the number and
there is room for one less. -/
theorem RoundsApart.fits {m n : Int64} (nonzero : n.toInt ≠ 0)
    (apart : RoundsApart m.toInt n.toInt) : Fits (m.toInt.tdiv n.toInt - 1) := by
  obtain ⟨smaller, -, -⟩ := tmod_bounds m.toInt nonzero
  have large : 2 ≤ n.toInt.natAbs := by
    have rest := apart.1
    omega
  have half : (m.toInt.tdiv n.toInt).natAbs ≤ m.toInt.natAbs / 2 := by
    rw [Int.natAbs_tdiv]
    exact Nat.div_le_div_left large (by decide)
  have range := fits_toInt m
  unfold Fits at *
  omega

/-- The quotient of two 64-bit numbers is the floor of the exact one, if that is in range. -/
theorem wholeQuotient?_eq {m n : Int64} (nonzero : n ≠ 0) :
    wholeQuotient? m n = fit? ⌊(m.toInt : ℚ) / n.toInt⌋ := by
  have divisor : n.toInt ≠ 0 := mt eq_zero_iff_toInt.mpr nonzero
  unfold wholeQuotient?
  split_ifs with least differ
  · obtain ⟨rfl, rfl⟩ := least
    have divided : Divided Int64.minValue.toInt (-1 : Int64).toInt (2 ^ 63) 0 := by
      rw [Int64.toInt_minValue]
      exact ⟨rfl, .inr ⟨by decide, le_rfl⟩⟩
    rw [divided.floor_eq, fit?_eq, if_neg (by decide)]
  · have apart := (signs_differ_iff divisor).mp differ
    have fits := apart.fits divisor
    rw [← toInt_div least] at fits
    have lowered : (m / n - 1).toInt = m.toInt.tdiv n.toInt - 1 := by
      rw [toInt_sub_of_fits fits, toInt_div least]
      rfl
    rw [(apart.divided divisor).floor_eq, ← lowered, fit?_toInt]
  · have alike := mt (signs_differ_iff divisor).mpr differ
    rw [(divided_tdiv divisor alike).floor_eq, ← toInt_div least, fit?_toInt]

/-- The remainder of two 64-bit numbers is what the floor of their quotient leaves. -/
theorem toInt_wholeRemainder {m n : Int64} (nonzero : n ≠ 0) :
    (wholeRemainder m n).toInt = m.toInt - n.toInt * ⌊(m.toInt : ℚ) / n.toInt⌋ := by
  have divisor : n.toInt ≠ 0 := mt eq_zero_iff_toInt.mpr nonzero
  unfold wholeRemainder
  simp only
  split_ifs with differ
  · have divided := (remainder_differs_iff.mp differ).divided divisor
    have range := fits_toInt n
    have fits : Fits ((m % n).toInt + n.toInt) := by
      have between := divided.between
      rw [Int64.toInt_mod]
      unfold Fits at *
      omega
    rw [divided.rest_eq, toInt_add_of_fits fits, Int64.toInt_mod]
  · have alike := mt remainder_differs_iff.mpr differ
    rw [(divided_tdiv divisor alike).rest_eq, Int64.toInt_mod]

/-! ### Powers -/

/-- A base that is neither zero nor of absolute value one leaves the range by its sixty-fourth
power. -/
theorem not_fits_pow {base : Int} {exponent : Nat} (large : 2 ≤ base.natAbs)
    (high : 64 ≤ exponent) : ¬ Fits (base ^ exponent) := by
  have size : 2 ^ 64 ≤ (base ^ exponent).natAbs := by
    rw [Int.natAbs_pow]
    calc 2 ^ 64 ≤ 2 ^ exponent := Nat.pow_le_pow_right (by decide) high
      _ ≤ base.natAbs ^ exponent := Nat.pow_le_pow_left large exponent
  unfold Fits
  omega

/-- A factor that is not smaller than one does not lead back into the range. -/
theorem Fits.of_mul {n factor : Int} (positive : 1 ≤ factor) (fits : Fits (n * factor)) :
    Fits n := by
  unfold Fits at *
  constructor <;> nlinarith

/-- A square that is out of range is larger than `2 ^ 63`, which is no square itself. So its
negative is out of range as well. -/
theorem lt_square {n : Int} (outside : ¬ Fits (n * n)) : 2 ^ 63 < n.natAbs * n.natAbs := by
  have large : 3037000500 ≤ n.natAbs := by
    by_contra small
    have square : n.natAbs * n.natAbs ≤ 3037000499 * 3037000499 :=
      Nat.mul_self_le_mul_self (by omega)
    rw [← Int.natAbs_mul_self] at outside
    unfold Fits at outside
    omega
  calc 2 ^ 63 < 3037000500 * 3037000500 := by decide
    _ ≤ n.natAbs * n.natAbs := Nat.mul_self_le_mul_self large

/-- Once a square is out of range, all that is still to be multiplied with it is, too. -/
theorem not_fits_mul_square_pow {product base : Int} {exponent : Nat} (nonzero : product ≠ 0)
    (outside : ¬ Fits (base * base)) (remains : exponent ≠ 0) :
    ¬ Fits (product * (base * base) ^ exponent) := by
  have large := lt_square outside
  have size : base.natAbs * base.natAbs ≤ (product * (base * base) ^ exponent).natAbs := by
    rw [Int.natAbs_mul, Int.natAbs_pow, Int.natAbs_mul]
    calc base.natAbs * base.natAbs ≤ (base.natAbs * base.natAbs) ^ exponent :=
          Nat.le_self_pow remains _
      _ ≤ product.natAbs * (base.natAbs * base.natAbs) ^ exponent :=
          Nat.le_mul_of_pos_left _ (Int.natAbs_pos.mpr nonzero)
  unfold Fits
  omega

/-- What one turn makes of the product. -/
def raised (product base : Int) (exponent : Nat) : Int :=
  if exponent % 2 = 1 then product * base else product

theorem raised_mul_pow (product base : Int) (exponent : Nat) :
    raised product base exponent * (base * base) ^ (exponent / 2) = product * base ^ exponent := by
  have halves := Nat.div_add_mod exponent 2
  rw [← pow_two, ← pow_mul, raised]
  split_ifs with odd
  · rw [odd] at halves
    rw [mul_assoc, ← pow_succ', halves]
  · rw [Nat.mod_two_ne_one.mp odd, Nat.add_zero] at halves
    rw [halves]

theorem fit?_raised (product base : Int64) (exponent : Nat) :
    (if exponent % 2 = 1 then product? product base else some product) =
      fit? (raised product.toInt base.toInt exponent) := by
  rw [raised]
  split_ifs
  · rfl
  · rw [fit?_toInt]

theorem raised_ne_zero {product base : Int} (together : product = 0 → base = 0)
    (nonzero : base ≠ 0) (exponent : Nat) : raised product base exponent ≠ 0 := by
  rw [raised]
  split_ifs
  · exact mul_ne_zero (mt together nonzero) nonzero
  · exact mt together nonzero

theorem fits_raised_zero (product : Int64) (exponent : Nat) :
    Fits (raised product.toInt 0 exponent) := by
  rw [raised]
  split_ifs
  · rw [mul_zero]
    decide
  · exact fits_toInt product

/-- If one turn leaves the range, the exact result has left it. -/
theorem not_fits_of_turn {product : Int64} {base : Int} {exponent : Nat}
    (together : product.toInt = 0 → base = 0) (halves : exponent / 2 ≠ 0)
    (leaves : ¬ Fits (raised product.toInt base exponent) ∨ ¬ Fits (base * base)) :
    ¬ Fits (raised product.toInt base exponent * (base * base) ^ (exponent / 2)) := by
  have nonzero : base ≠ 0 := by
    rintro rfl
    exact leaves.elim (absurd (fits_raised_zero product exponent)) (absurd (by decide))
  rcases leaves with outside | outside
  · have positive : 1 ≤ (base * base) ^ (exponent / 2) := pow_pos (mul_self_pos.mpr nonzero) _
    exact mt (Fits.of_mul positive) outside
  · exact not_fits_mul_square_pow (raised_ne_zero together nonzero exponent) outside halves

/-- Repeated squaring is exact, and it gives up only if the power is out of range. The product may
be zero only together with the base: zero times a power fits, though the squares may not. -/
theorem powerOnto?_eq {product base : Int64} {exponent : Nat}
    (together : product.toInt = 0 → base.toInt = 0) :
    powerOnto? product base exponent = fit? (product.toInt * base.toInt ^ exponent) := by
  induction exponent using Nat.strong_induction_on generalizing product base with
  | _ exponent inductionHypothesis =>
    rw [powerOnto?]
    by_cases none : exponent = 0
    · rw [if_pos none, none, pow_zero, mul_one, fit?_toInt]
    by_cases one : exponent = 1
    · rw [if_neg none, if_pos one, one, pow_one, product?]
    rw [if_neg none, if_neg one, fit?_raised, product?, ← raised_mul_pow]
    by_cases fits : Fits (raised product.toInt base.toInt exponent) ∧ Fits (base.toInt * base.toInt)
    · obtain ⟨first, second⟩ := fits
      have after : (Int64.ofInt (raised product.toInt base.toInt exponent)).toInt = 0 →
          (Int64.ofInt (base.toInt * base.toInt)).toInt = 0 := by
        rw [toInt_ofInt_of_fits first, toInt_ofInt_of_fits second, mul_self_eq_zero]
        exact not_imp_not.mp fun nonzero => raised_ne_zero together nonzero exponent
      rw [fit?_eq, if_pos first, Option.bind_some, fit?_eq, if_pos second, Option.bind_some,
        inductionHypothesis _ (by omega) after, toInt_ofInt_of_fits first,
        toInt_ofInt_of_fits second]
    · have leaves := not_and_or.mp fits
      have outside := not_fits_of_turn together (by omega) leaves
      rw [fit?_eq (_ * _ ^ _), if_neg outside]
      rcases leaves with first | second
      · rw [fit?_eq, if_neg first, Option.bind_none]
      · rw [fit?_eq (base.toInt * base.toInt), if_neg second]
        exact Option.bind_fun_none _

/-- A power is the exact one, if that is in range and the exponent is below `2 ^ 32`. -/
theorem power?_eq (base : Int64) (exponent : Nat) :
    power? base exponent = if exponent < 2 ^ 32 then fit? (base.toInt ^ exponent) else none := by
  have greatest : greatestExponent < exponent ↔ ¬ exponent < 2 ^ 32 :=
    Nat.not_lt.symm
  have exact : powerOnto? 1 base exponent = fit? (base.toInt ^ exponent) := by
    rw [powerOnto?_eq (fun zero => absurd zero (by decide))]
    exact congrArg fit? (one_mul _)
  rw [power?, exact]
  simp only [greatest, ite_not]

/-- The limit of the exponent is felt only where the power stays in range for ever. -/
theorem power?_of_narrow {base : Int64} {exponent : Nat}
    (narrow : exponent < 2 ^ 32 ∨ 2 ≤ base.toInt.natAbs) :
    power? base exponent = fit? (base.toInt ^ exponent) := by
  rw [power?_eq]
  split_ifs with low
  · rfl
  · have large := narrow.resolve_left low
    rw [fit?_eq, if_neg (not_fits_pow large (by omega))]

end LineScript.Number
