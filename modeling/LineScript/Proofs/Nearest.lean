/-
This file follows a whole number to the float nearest to it. A float has room for a mantissa of 53
bits. A longer number is shifted to the right until 53 bits are left, rounded by what was cut off,
and shifted once more if rounding has made it grow by a bit. A shorter one is shifted to the left,
and nothing is lost.

Two facts come out of this. The conversion keeps the order: a greater number has a greater exponent,
or the same exponent and no smaller a mantissa. And below `2 ^ 53` it also keeps numbers apart.
-/

import LineScript.Value.Basic
import Mathlib

namespace LineScript.Number

open Float.Model (Format UnpackedFloat totalExponent)
open Float.Model.UnpackedFloat

/-! ### Shifted mantissas -/

/-- A mantissa together with the two bits that tell of what was cut off, as one number. -/
def weight (extended : ExtendedMantissa) : Nat :=
  4 * extended.mantissa + 2 * extended.roundBit.toNat + extended.stickyBit.toNat

/-- A mantissa of which nothing was cut off. -/
def exactMantissa (mantissa : Nat) : ExtendedMantissa :=
  ⟨mantissa, false, false⟩

theorem mantissa_exactMantissa (mantissa : Nat) : (exactMantissa mantissa).mantissa = mantissa :=
  rfl

theorem shiftRight_succ (extended : ExtendedMantissa) (count : Nat) :
    extended >>> (count + 1) = (extended >>> count).shiftRightOne := rfl

theorem weight_div (extended : ExtendedMantissa) : weight extended / 4 = extended.mantissa := by
  have round := extended.roundBit.toNat_le
  have sticky := extended.stickyBit.toNat_le
  unfold weight
  omega

/-- A shift by one halves the weight, and what falls off the end stays visible in the last bit. -/
theorem weight_shiftRightOne (extended : ExtendedMantissa) :
    weight extended.shiftRightOne =
      2 * (weight extended / 4) + (weight extended % 4 + 3) / 4 := by
  obtain ⟨mantissa, round, sticky⟩ := extended
  rcases Nat.mod_two_eq_zero_or_one mantissa with even | odd
  · cases round <;> cases sticky <;>
      simp [weight, ExtendedMantissa.shiftRightOne, even] <;> omega
  · cases round <;> cases sticky <;>
      simp [weight, ExtendedMantissa.shiftRightOne, odd] <;> omega

theorem weight_shiftRight_le {low high : ExtendedMantissa} (below : weight low ≤ weight high)
    (count : Nat) : weight (low >>> count) ≤ weight (high >>> count) := by
  induction count with
  | zero => exact below
  | succ count inductionHypothesis =>
    rw [shiftRight_succ, shiftRight_succ, weight_shiftRightOne, weight_shiftRightOne]
    omega

theorem mantissa_shiftRight (extended : ExtendedMantissa) (count : Nat) :
    (extended >>> count).mantissa = extended.mantissa / 2 ^ count := by
  induction count with
  | zero => exact (Nat.div_one _).symm
  | succ count inductionHypothesis =>
    rw [shiftRight_succ, Nat.pow_succ, ← Nat.div_div_eq_div_mul, ← inductionHypothesis]
    rfl

/-- Zeros are cut off without a trace. -/
theorem shiftRight_exactMantissa (mantissa count : Nat) :
    exactMantissa (mantissa * 2 ^ count) >>> count = exactMantissa mantissa := by
  induction count generalizing mantissa with
  | zero => exact congrArg exactMantissa (Nat.mul_one _)
  | succ count inductionHypothesis =>
    rw [shiftRight_succ, Nat.pow_succ', ← Nat.mul_assoc, inductionHypothesis]
    simp [exactMantissa, ExtendedMantissa.shiftRightOne]

/-- Rounding adds one or nothing, as the bits say. A half goes to the even side. -/
theorem roundedMantissa_eq (extended : ExtendedMantissa) :
    extended.roundedMantissa =
      extended.mantissa + (weight extended % 4 + extended.mantissa % 2 + 1) / 4 := by
  obtain ⟨mantissa, round, sticky⟩ := extended
  cases round <;> cases sticky <;>
    simp [weight, ExtendedMantissa.roundedMantissa, ExtendedMantissa.accuracy,
      Accuracy.roundToNearestEven] <;> omega

theorem roundedMantissa_le {low high : ExtendedMantissa} (below : weight low ≤ weight high) :
    low.roundedMantissa ≤ high.roundedMantissa := by
  have lowWhole := weight_div low
  have highWhole := weight_div high
  rw [roundedMantissa_eq, roundedMantissa_eq]
  by_cases same : low.mantissa = high.mantissa
  · rw [same]
    omega
  · omega

/-! ### Rounding to 53 bits -/

/-- The mantissas of 53 bits. -/
structure IsNormal (mantissa : Nat) : Prop where
  long : 2 ^ 52 ≤ mantissa
  short : mantissa < 2 ^ 53

namespace IsNormal

variable {mantissa : Nat}

theorem pos (normal : IsNormal mantissa) : 0 < mantissa :=
  Nat.lt_of_lt_of_le (by decide) normal.long

theorem log2_eq (normal : IsNormal mantissa) : mantissa.log2 = 52 :=
  (Nat.log2_eq_iff (Nat.ne_of_gt normal.pos)).mpr ⟨normal.long, normal.short⟩

theorem of_log2 (positive : 0 < mantissa) (length : mantissa.log2 = 52) : IsNormal mantissa :=
  have bounds := (Nat.log2_eq_iff (Nat.ne_of_gt positive)).mp length
  ⟨bounds.1, bounds.2⟩

end IsNormal

/-- The parts of a float whose mantissa may have grown by a bit. -/
def carried (mantissa : Nat) (exponent : Int) : Nat × Int :=
  if mantissa < 2 ^ 53 then (mantissa, exponent) else (2 ^ 52, exponent + 1)

theorem carried_of_isNormal {mantissa : Nat} (normal : IsNormal mantissa) (exponent : Int) :
    carried mantissa exponent = (mantissa, exponent) :=
  if_pos normal.short

theorem isNormal_carried {mantissa : Nat} (long : 2 ^ 52 ≤ mantissa) (exponent : Int) :
    IsNormal (carried mantissa exponent).1 := by
  unfold carried
  split
  · rename_i short
    exact ⟨long, short⟩
  · exact ⟨Nat.le_refl _, Nat.pow_lt_pow_succ Nat.one_lt_two⟩

theorem exponent_carried (mantissa : Nat) (exponent : Int) :
    exponent ≤ (carried mantissa exponent).2 ∧ (carried mantissa exponent).2 ≤ exponent + 1 := by
  unfold carried
  split <;> simp only <;> omega

/-- The float of this sign and these parts. -/
def assembled (sign : UnpackedFloat.Sign) (parts : Nat × Int) : UnpackedFloat :=
  if empty : parts.1 = 0 then .zero sign
  else .finite sign parts.1 parts.2 (Nat.pos_of_ne_zero empty)

theorem assembled_of_pos {mantissa : Nat} (positive : 0 < mantissa) (sign : UnpackedFloat.Sign)
    (exponent : Int) :
    assembled sign (mantissa, exponent) = .finite sign mantissa exponent positive :=
  dif_neg (Nat.ne_of_gt positive)

theorem neg_assembled (parts : Nat × Int) :
    (assembled .positive parts).neg = assembled .negative parts := by
  unfold assembled
  split <;> rfl

theorem targetExponent_eq {total : Int} (range : -1074 ≤ total - 53) :
    Format.binary64.targetExponent total = total - 53 :=
  Int.max_eq_left range

section Rounding

variable {mantissa count : Nat} {exponent : Int} (length : mantissa.log2 = 52 + count)
  (range : -1074 ≤ exponent + count)

include length

theorem isNormal_shiftRight : IsNormal (mantissa / 2 ^ count) := by
  have filled : mantissa ≠ 0 := by
    rintro rfl
    rw [Nat.log2_zero] at length
    omega
  obtain ⟨least, greatest⟩ := (Nat.log2_eq_iff filled).mp length
  have positive := Nat.two_pow_pos count
  constructor
  · rw [Nat.le_div_iff_mul_le positive, ← Nat.pow_add]
    exact least
  · rw [Nat.div_lt_iff_lt_mul positive, ← Nat.pow_add]
    exact Nat.add_right_comm 52 count 1 ▸ greatest

theorem roundedMantissa_bounds :
    2 ^ 52 ≤ (exactMantissa mantissa >>> count).roundedMantissa ∧
      (exactMantissa mantissa >>> count).roundedMantissa ≤ 2 ^ 53 := by
  obtain ⟨least, greatest⟩ := isNormal_shiftRight length
  rw [← mantissa_exactMantissa mantissa, ← mantissa_shiftRight] at least greatest
  rw [roundedMantissa_eq]
  omega

include range

theorem shiftToTargetExponent_eq :
    shiftToTargetExponent Format.binary64 mantissa exponent .exact =
      (exactMantissa mantissa >>> count, exponent + count) := by
  have total : totalExponent mantissa exponent - 53 = exponent + count := by
    unfold totalExponent
    omega
  have amount : (exponent + count - exponent).toNat = count := by omega
  rw [shiftToTargetExponent, targetExponent_eq (total ▸ range), total, shiftToExponent, amount]
  rfl

end Rounding

/-- The second shift only undoes a carry. -/
theorem shiftToTargetExponent_carried {mantissa : Nat} {exponent : Int}
    (least : 2 ^ 52 ≤ mantissa) (greatest : mantissa ≤ 2 ^ 53) (range : -1074 ≤ exponent) :
    ((shiftToTargetExponent Format.binary64 mantissa exponent .exact).1.mantissa,
        (shiftToTargetExponent Format.binary64 mantissa exponent .exact).2) =
      carried mantissa exponent := by
  unfold carried
  split
  · rename_i short
    have length : mantissa.log2 = 52 + 0 := IsNormal.log2_eq ⟨least, short⟩
    rw [shiftToTargetExponent_eq length (by omega)]
    exact Prod.ext rfl (Int.add_zero exponent)
  · rename_i grown
    obtain rfl : mantissa = 2 ^ 52 * 2 ^ 1 := by omega
    have length : (2 ^ 52 * 2 ^ 1 : Nat).log2 = 52 + 1 := by decide
    rw [shiftToTargetExponent_eq length (by omega), shiftRight_exactMantissa]
    rfl

theorem roundWithAccuracy_eq {mantissa count : Nat} {exponent : Int}
    (length : mantissa.log2 = 52 + count) (range : -1074 ≤ exponent + count)
    (sign : UnpackedFloat.Sign) :
    roundWithAccuracy Format.binary64 sign mantissa exponent .exact =
      assembled sign
        (carried (exactMantissa mantissa >>> count).roundedMantissa (exponent + count)) := by
  obtain ⟨least, greatest⟩ := roundedMantissa_bounds length
  rw [← shiftToTargetExponent_carried least greatest range, roundWithAccuracy,
    shiftToTargetExponent_eq length range]
  rfl

/-! ### Floats as bits -/

section Stored

variable {mantissa stored : Nat} (normal : IsNormal mantissa)

include normal

/-- The first bit of a mantissa is not stored, for it is always set. -/
theorem toNat_append_stored : (1#1 ++ BitVec.ofNat 52 mantissa).toNat = mantissa := by
  obtain ⟨least, greatest⟩ := normal
  rw [BitVec.toNat_append, ← Nat.shiftLeft_add_eq_or_of_lt (BitVec.isLt _), BitVec.toNat_ofNat]
  simp only [Nat.shiftLeft_eq, BitVec.toNat_ofNat]
  omega

variable (bounded : stored < 2047)

include bounded

theorem pack_normal (sign : UnpackedFloat.Sign) :
    UnpackedFloat.pack Format.binary64 (.finite sign mantissa (stored - 1075) normal.pos) =
      packComponents Format.binary64 sign (BitVec.ofNat 11 stored) (BitVec.ofNat 52 mantissa) := by
  have biased : ((stored : Int) - 1075 + Format.binary64.exponentBias + (52 : Nat)).toNat =
      stored := by
    have bias : Format.binary64.exponentBias = 1023 := rfl
    omega
  have finite : ¬ 2 ^ 11 ≤ stored + 1 := by omega
  have length : mantissa.log2 + 1 = Format.binary64.mantissaBits :=
    congrArg (· + 1) normal.log2_eq
  unfold UnpackedFloat.pack
  simp only [biased]
  rw [if_neg finite, if_pos length]

theorem unpack_normal (positive : 0 < stored) (sign : UnpackedFloat.Sign) :
    UnpackedFloat.unpack Format.binary64
        (packComponents Format.binary64 sign (BitVec.ofNat 11 stored) (BitVec.ofNat 52 mantissa)) =
      .finite sign mantissa (stored - 1075) normal.pos := by
  have value : (BitVec.ofNat 11 stored).toNat = stored := by
    rw [BitVec.toNat_ofNat]
    omega
  have notLeast : BitVec.ofNat 11 stored ≠ 0#11 := by
    intro same
    rw [same] at value
    exact absurd value (Nat.ne_of_lt positive)
  have notGreatest : BitVec.ofNat 11 stored ≠ -1#11 := by
    intro same
    rw [same] at value
    exact absurd value (Nat.ne_of_gt bounded)
  unfold UnpackedFloat.unpack
  simp only [unpackExponent_packComponents, unpackMantissa_packComponents,
    unpackSign_packComponents, UnpackedFloat.Sign.ofBitVec_toBitVec, if_neg notGreatest,
    if_neg notLeast, toNat_append_stored normal, value]
  rfl

end Stored

/-- Parts with a mantissa of 53 bits and an exponent for which there is room. -/
structure Storable (parts : Nat × Int) : Prop where
  normal : IsNormal parts.1
  least : -1074 ≤ parts.2
  greatest : parts.2 ≤ 971

theorem unpack_pack {parts : Nat × Int} (storable : Storable parts) (sign : UnpackedFloat.Sign) :
    (Float.Model.pack (assembled sign parts)).unpack = assembled sign parts := by
  obtain ⟨mantissa, exponent⟩ := parts
  obtain ⟨normal, least, greatest⟩ := storable
  simp only at normal least greatest
  obtain ⟨stored, rfl⟩ : ∃ stored : Nat, exponent = stored - 1075 :=
    ⟨(exponent + 1075).toNat, by omega⟩
  have bounded : stored < 2047 := by omega
  rw [assembled_of_pos normal.pos, Float.Model.pack, Float.Model.unpack]
  simp only [pack_normal normal bounded]
  exact unpack_normal normal bounded (by omega) sign

/-! ### The parts of a whole number -/

/-- The parts of the float nearest to a whole number: the first 53 of its bits, rounded. -/
def nearestParts (n : Nat) : Nat × Int :=
  carried (exactMantissa (n * 2 ^ 53) >>> (n.log2 + 1)).roundedMantissa (n.log2 - 52)

theorem log2_mul_two_pow {n : Nat} (positive : 0 < n) (count : Nat) :
    (n * 2 ^ count).log2 = n.log2 + count := by
  induction count with
  | zero => rw [Nat.pow_zero, Nat.mul_one, Nat.add_zero]
  | succ count inductionHypothesis =>
    have filled := Nat.ne_of_gt (Nat.mul_pos positive (Nat.two_pow_pos count))
    rw [Nat.pow_succ', Nat.mul_left_comm, Nat.log2_two_mul filled, inductionHypothesis,
      Nat.add_assoc]

theorem exponent_nearestParts (n : Nat) :
    (n.log2 : Int) - 52 ≤ (nearestParts n).2 ∧ (nearestParts n).2 ≤ (n.log2 : Int) - 51 := by
  have carry := exponent_carried (exactMantissa (n * 2 ^ 53) >>> (n.log2 + 1)).roundedMantissa
    (n.log2 - 52)
  unfold nearestParts
  omega

section Whole

variable {n : Nat} (positive : 0 < n)

include positive

theorem log2_scaled : (n * 2 ^ 53).log2 = 52 + (n.log2 + 1) := by
  rw [log2_mul_two_pow positive]
  omega

theorem isNormal_nearestParts : IsNormal (nearestParts n).1 :=
  isNormal_carried (roundedMantissa_bounds (log2_scaled positive)).1 _

theorem storable_nearestParts (bounded : n < 2 ^ 64) : Storable (nearestParts n) := by
  have length : n.log2 < 64 := (Nat.log2_lt (Nat.ne_of_gt positive)).mpr bounded
  obtain ⟨least, greatest⟩ := exponent_nearestParts n
  exact ⟨isNormal_nearestParts positive, by omega, by omega⟩

variable (small : n < 2 ^ 53)

include small

theorem log2_lt_of_small : n.log2 < 53 :=
  (Nat.log2_lt (Nat.ne_of_gt positive)).mpr small

theorem isNormal_shiftLeft : IsNormal (n * 2 ^ (52 - n.log2)) := by
  have short := log2_lt_of_small positive small
  refine .of_log2 (Nat.mul_pos positive (Nat.two_pow_pos _)) ?_
  rw [log2_mul_two_pow positive]
  omega

/-- A number of at most 53 bits is not rounded. -/
theorem nearestParts_of_small :
    nearestParts n = (n * 2 ^ (52 - n.log2), (n.log2 : Int) - 52) := by
  have short := log2_lt_of_small positive small
  have scaled : n * 2 ^ 53 = n * 2 ^ (52 - n.log2) * 2 ^ (n.log2 + 1) := by
    rw [Nat.mul_assoc, ← Nat.pow_add]
    congr 2
    omega
  rw [nearestParts, scaled, shiftRight_exactMantissa]
  exact carried_of_isNormal (isNormal_shiftLeft positive small) _

end Whole

/-! ### Conversion -/

theorem unpack_one :
    (Float.ofBits 0x3FF0000000000000).toModel.unpack = assembled .positive (2 ^ 52, -52) := rfl

/-- Multiplication by one changes nothing. -/
theorem unpack_mul_one {x : Float} {parts : Nat × Int} (storable : Storable parts)
    (unpacked : x.toModel.unpack = assembled .positive parts) :
    (x * Float.ofBits 0x3FF0000000000000).toModel.unpack = assembled .positive parts := by
  have product : UnpackedFloat.mul Format.binary64 (assembled .positive parts)
      (assembled .positive (2 ^ 52, -52)) = assembled .positive parts := by
    obtain ⟨mantissa, exponent⟩ := parts
    obtain ⟨normal, least, -⟩ := storable
    simp only at normal least
    have length : (mantissa * 2 ^ 52).log2 = 52 + 52 := by
      rw [log2_mul_two_pow normal.pos, normal.log2_eq]
    have back : exponent + -52 + (52 : Nat) = exponent := by omega
    have rounded := roundWithAccuracy_eq length (back.symm ▸ least) .positive
    have exact : (exactMantissa mantissa).roundedMantissa = mantissa := rfl
    rw [shiftRight_exactMantissa, back, exact, carried_of_isNormal normal] at rounded
    rw [assembled_of_pos normal.pos] at rounded ⊢
    exact rounded
  show (Float.Model.pack (UnpackedFloat.mul Format.binary64 x.toModel.unpack
    (Float.ofBits 0x3FF0000000000000).toModel.unpack)).unpack = _
  rw [unpacked, unpack_one, product, unpack_pack storable]

theorem round_of_small {n : Nat} (positive : 0 < n) (small : n < 2 ^ 53) :
    UnpackedFloat.round Format.binary64 .positive n 0 = assembled .positive (nearestParts n) := by
  have short := log2_lt_of_small positive small
  have normal := isNormal_shiftLeft positive small
  have target : Format.binary64.targetExponent (totalExponent n 0) = (n.log2 : Int) - 52 := by
    unfold totalExponent
    rw [targetExponent_eq (by omega)]
    omega
  have amount : (0 - ((n.log2 : Int) - 52)).toNat = 52 - n.log2 := by omega
  have exponent : 0 - ((52 - n.log2 : Nat) : Int) + (0 : Nat) = (n.log2 : Int) - 52 := by omega
  have length : (n * 2 ^ (52 - n.log2)).log2 = 52 + 0 := normal.log2_eq
  rw [UnpackedFloat.round, target]
  simp only [decreaseExponent, amount, Nat.shiftLeft_eq]
  rw [roundWithAccuracy_eq length (by omega), exponent, nearestParts_of_small positive small]
  exact congrArg _ (carried_of_isNormal normal _)

theorem unpack_toFloat {n : Nat} (positive : 0 < n) (small : n < 2 ^ 53) :
    n.toUInt64.toFloat.toModel.unpack = assembled .positive (nearestParts n) := by
  have bounded : n < 2 ^ 64 := Nat.lt_trans small (by decide)
  have word : n.toUInt64.toNat = n := Nat.mod_eq_of_lt bounded
  have above : compare (n : Int) 0 = .gt := Int.compare_eq_gt.mpr (by omega)
  show (Float.Model.pack
    (normalize Format.binary64 (n.toUInt64.toNat : Int) 0 .positive)).unpack = _
  rw [word, UnpackedFloat.normalize, above]
  simp only [Int.toNat_natCast, round_of_small positive small]
  exact unpack_pack (storable_nearestParts positive bounded) .positive

theorem ofScientific_zero {n : Nat} (positive : 0 < n) :
    UnpackedFloat.ofScientific Format.binary64 n 0 = assembled .positive (nearestParts n) := by
  have above : ¬ (0 : Int) > 2 ^ 11 := by decide
  have below : ¬ (0 : Int) < -((2 ^ 11 : Int) + n.log2) := by omega
  have exponent : -53 + ((n.log2 + 1 : Nat) : Int) = n.log2 - 52 := by omega
  have rounded := roundWithAccuracy_eq (log2_scaled positive)
    (show -1074 ≤ -53 + ((n.log2 + 1 : Nat) : Int) by omega) .positive
  rw [exponent, ← Nat.shiftLeft_eq] at rounded
  rw [UnpackedFloat.ofScientific, dif_neg (Nat.ne_of_gt positive), if_neg above, if_neg below,
    if_pos (Int.le_refl 0), nearestParts, ← Nat.shiftLeft_eq, ← rounded]
  show roundWithAccuracy Format.binary64 .positive (n <<< 53 * 1) (-53 + 0) .exact = _
  rw [Nat.mul_one, Int.add_zero]

/-- The float of a number that is not negative. Small numbers and large ones are converted in
different ways, with the same result. -/
theorem unpack_ofNat {n : Nat} (bounded : n < 2 ^ 64) :
    (Float.ofNat n).toModel.unpack = assembled .positive (nearestParts n) := by
  rcases Nat.eq_zero_or_pos n with rfl | positive
  · rfl
  have storable := storable_nearestParts positive bounded
  by_cases small : n < 2 ^ 53
  · have fast : Float.ofNat n = n.toUInt64.toFloat * Float.ofBits 0x3FF0000000000000 :=
      dif_pos ⟨small, Nat.zero_le _⟩
    rw [fast]
    exact unpack_mul_one storable (unpack_toFloat positive small)
  · have slow : Float.ofNat n = ⟨Float.Model.ofScientific n 0⟩ := dif_neg (mt And.left small)
    rw [slow]
    simp only [Float.Model.ofScientific, ofScientific_zero positive]
    exact unpack_pack storable .positive

/-- The float of a whole number has its sign and the parts of its magnitude. -/
theorem unpack_ofInt {n : Int} (bounded : n.natAbs < 2 ^ 64) :
    (Float.ofInt n).toModel.unpack =
      assembled (if n < 0 then .negative else .positive) (nearestParts n.natAbs) := by
  cases n with
  | ofNat n => exact unpack_ofNat bounded
  | negSucc n =>
    have unpacked : (Float.ofNat n.succ).toModel.unpack =
        assembled .positive (nearestParts n.succ) := unpack_ofNat bounded
    show (Float.Model.pack (Float.ofNat n.succ).toModel.unpack.neg).unpack = _
    rw [unpacked, neg_assembled, if_pos (Int.negSucc_lt_zero n)]
    exact unpack_pack (storable_nearestParts n.succ_pos bounded) .negative

/-! ### The order of the parts -/

theorem log2_le_log2 {m n : Nat} (positive : 0 < m) (below : m ≤ n) : m.log2 ≤ n.log2 := by
  rw [Nat.le_log2 (Nat.ne_of_gt (Nat.lt_of_lt_of_le positive below))]
  exact Nat.le_trans (Nat.log2_self_le (Nat.ne_of_gt positive)) below

theorem carried_le {low high : Nat} (below : low ≤ high) (exponent : Int) :
    (carried low exponent).2 < (carried high exponent).2 ∨
      (carried low exponent).2 = (carried high exponent).2 ∧
        (carried low exponent).1 ≤ (carried high exponent).1 := by
  unfold carried
  by_cases short : high < 2 ^ 53
  · rw [if_pos short, if_pos (Nat.lt_of_le_of_lt below short)]
    exact .inr ⟨rfl, below⟩
  · rw [if_neg short]
    split
    · exact .inl (Int.lt_succ exponent)
    · exact .inr ⟨rfl, Nat.le_refl _⟩

/-- A greater number has a greater exponent, or the same exponent and no smaller a mantissa. -/
theorem nearestParts_le {m n : Nat} (positive : 0 < m) (below : m ≤ n) :
    (nearestParts m).2 < (nearestParts n).2 ∨
      (nearestParts m).2 = (nearestParts n).2 ∧ (nearestParts m).1 ≤ (nearestParts n).1 := by
  rcases Nat.lt_or_eq_of_le (log2_le_log2 positive below) with shorter | same
  · -- A carry may take the shorter number up to the exponent of the longer one, but then its
    -- mantissa is the least there is.
    have normal := isNormal_nearestParts (Nat.lt_of_lt_of_le positive below)
    have least := (exponent_nearestParts n).1
    rw [nearestParts, carried]
    split
    · exact .inl (show (m.log2 : Int) - 52 < _ by omega)
    · rcases Int.lt_or_eq_of_le (show (m.log2 : Int) - 52 + 1 ≤ (nearestParts n).2 by omega)
        with less | same
      · exact .inl less
      · exact .inr ⟨same, normal.long⟩
  · have heavier : weight (exactMantissa (m * 2 ^ 53)) ≤ weight (exactMantissa (n * 2 ^ 53)) := by
      unfold weight exactMantissa
      simp only
      omega
    unfold nearestParts
    rw [same]
    exact carried_le (roundedMantissa_le (weight_shiftRight_le heavier _)) _

/-- Above a number that is not rounded, a greater number has greater parts. -/
theorem nearestParts_lt {m n : Nat} (positive : 0 < m) (below : m < n) (small : m < 2 ^ 53) :
    (nearestParts m).2 < (nearestParts n).2 ∨
      (nearestParts m).2 = (nearestParts n).2 ∧ (nearestParts m).1 < (nearestParts n).1 := by
  have above := Nat.lt_trans positive below
  rcases Nat.lt_or_eq_of_le (log2_le_log2 positive (Nat.le_of_lt below)) with shorter | same
  · have least := (exponent_nearestParts n).1
    rw [nearestParts_of_small positive small]
    exact .inl (show (m.log2 : Int) - 52 < _ by omega)
  · have short := log2_lt_of_small positive small
    have alsoSmall : n < 2 ^ 53 := (Nat.log2_lt (Nat.ne_of_gt above)).mp (same ▸ short)
    rw [nearestParts_of_small positive small, nearestParts_of_small above alsoSmall, same]
    exact .inr ⟨rfl, Nat.mul_lt_mul_of_pos_right below (Nat.two_pow_pos _)⟩

end LineScript.Number
