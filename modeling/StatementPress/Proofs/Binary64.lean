import Mathlib
import StatementPress.Binary64

/-!
# The numbers that doubles stand for

A finite double stands for its significand times a power of two, with its sign.  Ranks order doubles
as these numbers are ordered; here it is enough to compare with zero.  A whole number of no more
than 64 bits is rounded to a finite double.
-/

namespace StatementPress.Binary64

/-- What a finite double stands for without its sign. -/
def absolute (x : Binary64) : ℚ := x.significand * (2 : ℚ) ^ x.power

/-- The number that a finite double stands for. -/
def value (x : Binary64) : ℚ := if x.negative then -x.absolute else x.absolute

/-- A finite number at zero or above. -/
def IsNonNegative (x : Binary64) : Prop := x.isFinite = true ∧ 0 ≤ x.value

/-- A finite number above zero. -/
def IsPositive (x : Binary64) : Prop := x.isFinite = true ∧ 0 < x.value

/-! ## Order -/

variable {x : Binary64}

theorem significand_pos_iff : 0 < x.significand ↔ 0 < x.magnitude := by
  unfold significand magnitude
  split
  · simp_all
  · simp only [fractionCount]
    omega

/-- A double other than the two zeros has a significand above zero. -/
theorem isZero_eq_false_iff : x.isZero = false ↔ 0 < x.significand := by
  rw [isZero, Bool.and_eq_false_iff, beq_eq_false_iff_ne, beq_eq_false_iff_ne, significand]
  split
  · omega
  · simp only [fractionCount]
    omega

theorem absolute_nonneg (x : Binary64) : 0 ≤ x.absolute := by
  unfold absolute
  positivity

theorem absolute_pos_iff : 0 < x.absolute ↔ 0 < x.magnitude := by
  have hpower : (0 : ℚ) < (2 : ℚ) ^ x.power := by positivity
  rw [absolute, mul_pos_iff_of_pos_right hpower, Nat.cast_pos, significand_pos_iff]

/-- Ranks have the signs of the values. -/
theorem rank_pos_iff : 0 < x.rank ↔ 0 < x.value := by
  have hle := x.absolute_nonneg
  unfold rank value
  cases x.negative
  · simpa using absolute_pos_iff.symm
  · simp only [if_true, Left.neg_pos_iff]
    exact iff_of_false (by omega) hle.not_gt

theorem rank_nonneg_iff : 0 ≤ x.rank ↔ 0 ≤ x.value := by
  have hle := x.absolute_nonneg
  have hpos := absolute_pos_iff (x := x)
  unfold rank value
  cases x.negative
  · simpa using hle
  -- a negative double is at zero only if it is zero
  · simp only [if_true, Left.nonneg_neg_iff]
    rw [← not_lt, ← not_lt, hpos]
    simp

/-- A finite double is below zero only if it has a sign and is not zero. -/
theorem isNonNegative_iff :
    x.IsNonNegative ↔ x.isFinite = true ∧ (x.negative && !x.isZero) = false := by
  have hzero := isZero_eq_false_iff.trans (significand_pos_iff (x := x))
  rw [IsNonNegative, ← rank_nonneg_iff, rank]
  cases hx : x.negative with
  | false => simp
  | true =>
    have hrank : (0 : Int) ≤ -(x.magnitude : Int) ↔ ¬ 0 < x.magnitude := by omega
    simp only [if_true, hrank, ← hzero, Bool.true_and, Bool.not_eq_false', Bool.not_eq_false]

theorem IsPositive.isNonNegative (h : x.IsPositive) : x.IsNonNegative := ⟨h.1, h.2.le⟩

theorem rank_zero : zero.rank = 0 := by decide

theorem not_isNaN_of_isFinite (h : x.isFinite = true) : x.isNaN = false := by
  unfold isFinite at h
  unfold isNaN
  simp_all

/-- The comparison with zero tells the sign, and minus zero is not below it. -/
theorem less_zero_iff (h : x.isFinite = true) : x.less zero = false ↔ 0 ≤ x.value := by
  rw [← rank_nonneg_iff]
  simp [less, not_isNaN_of_isFinite h, rank_zero, show zero.isNaN = false by decide]

theorem lessOrEqual_zero_iff (h : x.isFinite = true) :
    x.lessOrEqual zero = false ↔ 0 < x.value := by
  rw [← rank_pos_iff]
  simp [lessOrEqual, not_isNaN_of_isFinite h, rank_zero, show zero.isNaN = false by decide]

/-! ## Whole numbers -/

/-- Magnitudes below that of infinity are those of finite doubles. -/
theorem isFinite_ofMagnitude {negative : Bool} {m : Nat} (h : m < infinityMagnitude) :
    (ofMagnitude negative m).isFinite = true := by
  rw [ofMagnitude, dif_pos h, isFinite, bne_iff_ne]
  have hexponent : m / fractionCount < 2047 := by
    rw [Nat.div_lt_iff_lt_mul (by decide)]
    exact h
  exact Nat.ne_of_lt hexponent

/-- Rounding goes up by one at most. -/
theorem roundHalfEven_le (n d : Nat) : roundHalfEven n d ≤ n / d + 1 := by
  unfold roundHalfEven
  dsimp only
  split <;> omega

/-- The logarithm of a whole number is that of its bits, or one less. -/
theorem floorLog_one (n : Nat) : (n.log2 : Int) - 1 ≤ floorLog n 1 ∧ floorLog n 1 ≤ n.log2 := by
  have hone : Nat.log2 1 = 0 := by decide
  rw [floorLog, hone]
  split <;> omega

/-- A number that is scaled down to 53 bits has no more than 54 before it is rounded. -/
theorem scaled_lt {n a b : Nat} (h : n.log2 + 1 + a ≤ 54 + b) :
    (n <<< a) / (1 <<< b) < 2 ^ 54 := by
  rw [Nat.shiftLeft_eq, Nat.shiftLeft_eq, Nat.one_mul, Nat.div_lt_iff_lt_mul (by positivity)]
  calc
    n * 2 ^ a < 2 ^ (n.log2 + 1) * 2 ^ a := by
      exact Nat.mul_lt_mul_of_pos_right Nat.lt_log2_self (by positivity)
    _ = 2 ^ (n.log2 + 1 + a) := (Nat.pow_add 2 _ _).symm
    _ ≤ 2 ^ (54 + b) := Nat.pow_le_pow_right (by decide) h
    _ = 2 ^ 54 * 2 ^ b := Nat.pow_add 2 _ _

/-- A whole number of no more than 64 bits is far from infinity. -/
theorem isFinite_ofInt {i : Int} (h : i.natAbs < 2 ^ 64) : (ofInt i).isFinite = true := by
  rw [ofInt, ofRatio]
  split
  · exact isFinite_ofMagnitude (by decide)
  · rename_i hne
    obtain ⟨hlow, hhigh⟩ := floorLog_one i.natAbs
    have hlog : i.natAbs.log2 < 64 := (Nat.log2_lt hne).mpr h
    generalize hp : max (floorLog i.natAbs 1 - 52) (-1074) = p
    have hround := roundHalfEven_le (i.natAbs <<< (-p).toNat) (1 <<< p.toNat)
    have hscaled : (i.natAbs <<< (-p).toNat) / (1 <<< p.toNat) < 2 ^ 54 := scaled_lt (by omega)
    have hexponent : (p + 1074).toNat ≤ 1085 := by omega
    refine isFinite_ofMagnitude ?_
    simp only [infinityMagnitude, fractionCount]
    omega

end StatementPress.Binary64
