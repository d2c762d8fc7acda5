import Mathlib
import StatementPress.Proofs.Binary64.Rounding

/-!
# The decimals that are written are right

The decimal that is written for a finite double other than zero lies in the rounding interval of the
double (`shortest_spec`), so a reader that rounded correctly would give the double back.  There is
always such a decimal with seventeen digits: the points of that grid are closer to each other than
the ends of the interval.
-/

namespace StatementPress

/-- The number that a decimal stands for. -/
def Decimal.value (d : Decimal) : ℚ := d.coefficient * 10 ^ d.exponent

/-- Dropping zeros changes the writing of a number only. -/
theorem Decimal.stripZeros_spec (fuel c : Nat) (e : Int) :
    (stripZeros fuel c e).value = c * 10 ^ e ∧ (stripZeros fuel c e).coefficient ≤ c ∧
      (0 < c → 0 < (stripZeros fuel c e).coefficient) ∧
      e ≤ (stripZeros fuel c e).exponent ∧ (stripZeros fuel c e).exponent ≤ e + fuel := by
  induction fuel generalizing c e with
  | zero => simp [stripZeros, value]
  | succ fuel ih =>
    rw [stripZeros]
    split
    · rename_i hzero
      obtain ⟨hvalue, hle, hpos, hlow, hhigh⟩ := ih (c / 10) (e + 1)
      have hc : (c : ℚ) = (c / 10 : Nat) * 10 := by
        exact_mod_cast (Nat.div_mul_cancel (Nat.dvd_of_mod_eq_zero hzero)).symm
      refine ⟨?_, hle.trans (Nat.div_le_self c 10), fun h => hpos (by omega), by omega, by
        push_cast
        omega⟩
      rw [hvalue, hc, zpow_add_one₀ (by norm_num)]
      ring
    · refine ⟨rfl, le_rfl, id, le_rfl, ?_⟩
      push_cast
      omega

namespace Binary64

/-! ## Decimal logarithms -/

/-- The number of digits brackets a number by powers of ten. -/
theorem digitCount_spec {n : Nat} (hn : 0 < n) :
    10 ^ (digitCount n - 1) ≤ n ∧ n < 10 ^ digitCount n ∧ 0 < digitCount n := by
  have hpos : 0 < digitCount n := Nat.length_toDigits_pos
  refine ⟨?_, (Nat.length_toDigits_le_iff (by decide) hpos).mp le_rfl, hpos⟩
  rcases Nat.eq_or_lt_of_le hpos with hone | hone
  · rw [← hone]
    exact hn
  · refine not_lt.mp fun hlt => ?_
    have := (Nat.length_toDigits_le_iff (by decide) (by omega)).mpr hlt
    have : digitCount n ≤ digitCount n - 1 := this
    omega

/-- **The decimal logarithm of a ratio.** -/
theorem decimalLog_spec {n d : Nat} (hn : 0 < n) (hd : 0 < d) :
    (10 : ℚ) ^ (decimalLog n d - 1) ≤ n / d ∧ (n : ℚ) / d < 10 ^ decimalLog n d := by
  have hn' : (0 : ℚ) < n := Nat.cast_pos.mpr hn
  have hd' : (0 : ℚ) < d := Nat.cast_pos.mpr hd
  rw [decimalLog]
  split
  · rename_i hle
    obtain ⟨hlow, hhigh, hpos⟩ := digitCount_spec (Nat.div_pos hle hd)
    have hexponent : ((digitCount (n / d) : Int) - 1) = (digitCount (n / d) - 1 : Nat) := by omega
    rw [hexponent, zpow_natCast, zpow_natCast, le_div_iff₀ hd', div_lt_iff₀ hd']
    constructor
    · have : 10 ^ (digitCount (n / d) - 1) * d ≤ n :=
        (Nat.mul_le_mul_right d hlow).trans (Nat.div_mul_le_self n d)
      exact_mod_cast this
    · have : n < 10 ^ digitCount (n / d) * d := (Nat.div_lt_iff_lt_mul hd).mp hhigh
      exact_mod_cast this
  · rename_i hlt
    obtain ⟨hlow, hhigh, hpos⟩ := digitCount_spec (Nat.div_pos (show n ≤ d - 1 by omega) hn)
    generalize digitCount ((d - 1) / n) = k at *
    have hlow' : (10 ^ (k - 1) * n : ℚ) < d := by
      have : 10 ^ (k - 1) * n < d := by
        have := (Nat.le_div_iff_mul_le hn).mp hlow
        omega
      exact_mod_cast this
    have hhigh' : (d : ℚ) ≤ 10 ^ k * n := by
      have : d ≤ 10 ^ k * n := by
        have := (Nat.div_lt_iff_lt_mul hn).mp hhigh
        omega
      exact_mod_cast this
    have hexponent : (1 - (k : Int)) = -((k - 1 : Nat) : Int) := by omega
    constructor
    · rw [show (1 : Int) - k - 1 = -(k : Int) by ring, zpow_neg, zpow_natCast, le_div_iff₀ hd',
        inv_mul_le_iff₀ (by positivity)]
      exact hhigh'
    · rw [hexponent, zpow_neg, zpow_natCast, div_lt_iff₀ hd', ← div_eq_inv_mul,
        lt_div_iff₀ (by positivity), mul_comm]
      exact hlow'

/-! ## Hits -/

/-- Whether a number of quarters of a unit lies in an interval. -/
def Interval.Contains (i : Interval) (v : ℚ) : Prop :=
  ((i.low : ℚ) ≤ v ∧ v ≤ i.high) ∧ (i.closed = false → (i.low : ℚ) < v ∧ v < i.high)

theorem Interval.holds_iff {i : Interval} {c d : Nat} (hd : 0 < d) :
    i.holds c d = true ↔ i.Contains (c / d) := by
  have hd' : (0 : ℚ) < d := Nat.cast_pos.mpr hd
  rw [Contains, le_div_iff₀ hd', div_le_iff₀ hd', lt_div_iff₀ hd', div_lt_iff₀ hd', holds]
  norm_cast
  cases i.closed
  · simp
    omega
  · simp

/-- A point of a grid, in quarters of a unit. -/
theorem grid_ratio (c num den : Nat) (e : Int) :
    ((c * (Nat.pow 10 e.toNat * den) : Nat) : ℚ) / (Nat.pow 10 (-e).toNat * num : Nat) =
      c * 10 ^ e / (num / den) := by
  have hpow : ∀ k, Nat.pow 10 k = 10 ^ k := fun _ => rfl
  rw [hpow, hpow]
  obtain ⟨k, rfl | rfl⟩ := e.eq_nat_or_neg
  · simp
    field_simp
  · simp
    field_simp

/-- What is found on a grid lies in the interval. -/
theorem contains_of_hit {tie : Tie} {i : Interval} {num den : Nat} {e : Int} {c : Nat}
    (hnum : 0 < num) (h : hit tie i num den e = some c) :
    i.Contains (c * 10 ^ e / (num / den)) := by
  have hscale : 0 < Nat.pow 10 (-e).toNat * num := Nat.mul_pos (Nat.pow_pos (by decide)) hnum
  rw [← grid_ratio, ← Interval.holds_iff hscale]
  unfold hit at h
  dsimp only at h
  -- of the two neighbours the one that is taken was tested
  split at h
  · rename_i hbelow habove
    split at h
    · cases h
      exact hbelow
    · split at h
      · cases h
        exact habove
      · split at h
        · cases h
          exact habove
        · split at h
          · cases h
            exact hbelow
          · cases h
            exact habove
  · cases h
    assumption
  · cases h
    assumption
  · cases h

/-- Something is found on a grid that is finer than the interval. -/
theorem hit_ne_none {tie : Tie} {i : Interval} {num den : Nat} {e : Int} (hnum : 0 < num)
    (hden : 0 < den) (hlow : i.low < i.centre) (hhigh : i.centre < i.high)
    (hfine : (10 : ℚ) ^ e / (num / den) < i.high - i.low) : hit tie i num den e ≠ none := by
  have hstep : 0 < Nat.pow 10 e.toNat * den := Nat.mul_pos (Nat.pow_pos (by decide)) hden
  have hscale : 0 < Nat.pow 10 (-e).toNat * num := Nat.mul_pos (Nat.pow_pos (by decide)) hnum
  have hratio := grid_ratio 1 num den e
  rw [Nat.cast_one, one_mul, one_mul] at hratio
  rw [← hratio, div_lt_iff₀ (Nat.cast_pos.mpr hscale)] at hfine
  unfold hit
  dsimp only
  generalize Nat.pow 10 e.toNat * den = step at *
  generalize Nat.pow 10 (-e).toNat * num = scale at *
  have hfine : step + i.low * scale < i.high * scale := by
    have : (step : ℚ) + i.low * scale < i.high * scale := by linarith
    exact_mod_cast this
  have hbelow : i.centre * scale / step * step ≤ i.centre * scale := Nat.div_mul_le_self _ _
  have habove : i.centre * scale < (i.centre * scale / step + 1) * step :=
    (Nat.div_lt_iff_lt_mul hstep).mp (Nat.lt_succ_self _)
  have hcentre : i.low * scale < i.centre * scale := Nat.mul_lt_mul_of_pos_right hlow hscale
  have hcentre' : i.centre * scale < i.high * scale := Nat.mul_lt_mul_of_pos_right hhigh hscale
  generalize i.centre * scale / step = c at *
  rw [Nat.add_mul, Nat.one_mul] at habove
  split
  · split
    · simp
    · split
      · simp
      · split
        · simp
        · split <;> simp
  · simp
  · simp
  · -- both neighbours lie outside, so the interval fits between them
    rename_i h₁ h₂
    rw [Nat.add_mul, Nat.one_mul] at h₂
    unfold Interval.holds at h₁ h₂
    cases hclosed : i.closed <;> simp [hclosed] at h₁ h₂ <;> omega

/-! ## The shortest decimal -/

variable {x : Binary64}

/-- The interval of a double that is not zero lies above zero and around the double. -/
theorem interval_spec (hpos : 0 < x.significand) :
    0 < x.interval.low ∧ x.interval.low < x.interval.centre ∧
      x.interval.centre < x.interval.high := by
  unfold interval
  dsimp only
  split <;> omega

/-- The points of a grid of seventeen digits are closer to each other than the ends of the
interval. -/
theorem lt_width_of_le {g : ℚ} (hg : g * 10 ^ 16 ≤ x.absolute) :
    g < (x.interval.high - x.interval.low) * 2 ^ (x.power - 2) := by
  have hunit : (0 : ℚ) < 2 ^ (x.power - 2) := by positivity
  have habsolute : x.absolute = 4 * x.significand * 2 ^ (x.power - 2) := by
    rw [absolute, zpow_sub₀ two_ne_zero]
    ring
  have hlt : (x.significand : ℚ) < 2 * 2 ^ 52 := by exact_mod_cast x.significand_lt
  have hwidth : 4 * (x.significand : ℚ) < (x.interval.high - x.interval.low) * 10 ^ 16 := by
    unfold interval
    dsimp only
    split
    · rename_i h
      have hm : x.significand = 2 ^ 52 := by
        rw [significand, if_neg (by omega), h.1]
        rfl
      rw [hm]
      norm_num
    · rcases Nat.eq_zero_or_pos x.significand with hm | hm
      · rw [hm]
        norm_num
      · have hends : ((4 * x.significand - 2 : Nat) : ℚ) = 4 * x.significand - 2 := by
          rw [Nat.cast_sub (by omega)]
          push_cast
          ring
        rw [hends]
        push_cast
        linarith
  have : g * 10 ^ 16 < (x.interval.high - x.interval.low) * 10 ^ 16 * 2 ^ (x.power - 2) := by
    refine hg.trans_lt ?_
    rw [habsolute]
    gcongr
  linarith

/-- What is found in the interval around a double rounds to it. -/
theorem roundsTo_of_contains {v : ℚ} (h : x.interval.Contains (v / 2 ^ (x.power - 2))) :
    x.RoundsTo v := by
  have hunit : (0 : ℚ) < 2 ^ (x.power - 2) := by positivity
  rw [Interval.Contains, le_div_iff₀ hunit, div_le_iff₀ hunit, lt_div_iff₀ hunit,
    div_lt_iff₀ hunit] at h
  exact ⟨h.1.1, h.1.2, fun hodd => h.2 (by simp [interval, hodd])⟩

/-- **The shortest decimal of a double lies in its rounding interval.**  Its last digit is the
seventeenth at most. -/
theorem shortest_spec (hpos : 0 < x.significand) (tie : Tie) :
    x.RoundsTo (x.shortest tie).value ∧ 0 < (x.shortest tie).coefficient ∧
      ∃ k : Int, (10 : ℚ) ^ (k - 1) ≤ x.absolute ∧ x.absolute < 10 ^ k ∧
        k - 17 ≤ (x.shortest tie).exponent ∧ (x.shortest tie).exponent ≤ k + 1 := by
  have hnumerator : 0 < x.numerator := by
    rw [numerator, Nat.shiftLeft_eq]
    positivity
  obtain ⟨hklow, hkhigh⟩ := decimalLog_spec hnumerator x.denominator_pos
  rw [← absolute_eq_ratio] at hklow hkhigh
  obtain ⟨hlowpos, hlow, hhigh⟩ := interval_spec hpos
  have hden : 0 < 1 <<< (2 - x.power).toNat := by
    rw [Nat.shiftLeft_eq]
    positivity
  have hnum : 0 < 1 <<< (x.power - 2).toNat := by
    rw [Nat.shiftLeft_eq]
    positivity
  have hquarter : ((1 <<< (x.power - 2).toNat : Nat) : ℚ) / (1 <<< (2 - x.power).toNat : Nat) =
      2 ^ (x.power - 2) := by
    have h := shifted_ratio 1 1 (2 - x.power)
    rw [neg_sub] at h
    rw [h, Nat.cast_one, div_one, one_div, ← zpow_neg, neg_sub]
  rw [shortest, isZero_eq_false_iff.mpr hpos, if_neg Bool.false_ne_true]
  dsimp only
  generalize 1 <<< (x.power - 2).toNat = num at *
  generalize 1 <<< (2 - x.power).toNat = den at *
  generalize decimalLog x.numerator x.denominator = k at *
  have hunit : (0 : ℚ) < 2 ^ (x.power - 2) := by positivity
  cases hfound : (List.range 17).findSome? fun j =>
      (hit tie x.interval num den (k - (j + 1 : Nat))).map fun c =>
        Decimal.stripZeros 2 c (k - (j + 1 : Nat)) with
  | none =>
    -- the last grid is fine enough
    have hnone := List.findSome?_eq_none_iff.mp hfound 16 (by simp)
    have hwidth : (10 : ℚ) ^ (k - 17) < (x.interval.high - x.interval.low) * 2 ^ (x.power - 2) := by
      refine lt_width_of_le (le_trans (le_of_eq ?_) hklow)
      rw [show (k - 1 : Int) = k - 17 + 16 by ring, zpow_add₀ (by norm_num)]
      norm_num
    refine absurd (Option.map_eq_none_iff.mp hnone) (hit_ne_none hnum hden hlow hhigh ?_)
    rw [hquarter, div_lt_iff₀ hunit]
    exact hwidth
  | some d =>
    obtain ⟨j, hj, hd⟩ := List.exists_of_findSome?_eq_some hfound
    obtain ⟨c, hc, rfl⟩ := Option.map_eq_some_iff.mp hd
    have hcontains := contains_of_hit hnum hc
    rw [hquarter] at hcontains
    have hcpos : 0 < c := by
      rcases Nat.eq_zero_or_pos c with rfl | h
      · have : (x.interval.low : ℚ) ≤ 0 := by simpa using hcontains.1.1
        have : x.interval.low ≤ 0 := by exact_mod_cast this
        omega
      · exact h
    obtain ⟨hvalue, -, hpos, hstart, hend⟩ := Decimal.stripZeros_spec 2 c (k - (j + 1 : Nat))
    rw [List.mem_range] at hj
    rw [Option.getD_some]
    refine ⟨?_, hpos hcpos, k, hklow, hkhigh, by omega, by omega⟩
    rw [hvalue]
    exact roundsTo_of_contains hcontains

/-- Finite doubles are below the power of two of the infinite ones. -/
theorem absolute_lt (hx : x.isFinite = true) : x.absolute < 2 ^ (1024 : ℤ) := by
  have hexponent := x.exponent.isLt
  have hfinite : x.exponent.val ≠ 2047 := by simpa [isFinite] using hx
  have hpower : x.power ≤ 971 := by
    unfold power
    omega
  have hlt : (x.significand : ℚ) < 2 ^ (53 : ℤ) := by
    have := x.significand_lt
    exact_mod_cast this
  calc x.absolute < 2 ^ (53 : ℤ) * 2 ^ x.power := by
        unfold absolute
        gcongr
    _ ≤ 2 ^ (53 : ℤ) * 2 ^ (971 : ℤ) := by
        gcongr
        exact one_le_two
    _ = 2 ^ (1024 : ℤ) := by
        rw [← zpow_add₀ two_ne_zero]
        rfl

/-- Nothing but zero is below the least subnormal double. -/
theorem le_absolute (hpos : 0 < x.significand) : (2 : ℚ) ^ (-1074 : ℤ) ≤ x.absolute := by
  have hm : (1 : ℚ) ≤ x.significand := by exact_mod_cast hpos
  calc (2 : ℚ) ^ (-1074 : ℤ) ≤ 2 ^ x.power := zpow_le_zpow_right₀ one_le_two x.power_ge
    _ ≤ x.significand * 2 ^ x.power := le_mul_of_one_le_left (by positivity) hm

/-- The digits of a shortest decimal fit in 64 bits, and its exponent is small. -/
theorem shortest_bounds (hx : x.isFinite = true) (hpos : 0 < x.significand) (tie : Tie) :
    (x.shortest tie).coefficient < 2 * 10 ^ 17 ∧ -1100 ≤ (x.shortest tie).exponent ∧
      (x.shortest tie).exponent ≤ 1100 := by
  obtain ⟨hrounds, -, k, hklow, hkhigh, hstart, hend⟩ := shortest_spec hpos tie
  obtain ⟨-, hhigh, -⟩ := hrounds.bounds hpos
  generalize x.shortest tie = d at *
  have hk : k - 1 < 1024 := by
    have hlt : (10 : ℚ) ^ (k - 1) < 10 ^ (1024 : ℤ) :=
      calc (10 : ℚ) ^ (k - 1) ≤ x.absolute := hklow
        _ < 2 ^ (1024 : ℤ) := absolute_lt hx
        _ ≤ 10 ^ (1024 : ℤ) := zpow_le_zpow_left₀ (by norm_num) (by norm_num) (by norm_num)
    exact (zpow_lt_zpow_iff_right₀ (by norm_num)).mp hlt
  have hk' : -1074 < k := by
    have hlt : (10 : ℚ) ^ (-1074 : ℤ) < 10 ^ k :=
      calc (10 : ℚ) ^ (-1074 : ℤ) ≤ 2 ^ (-1074 : ℤ) := by
            rw [zpow_neg, zpow_neg]
            exact inv_anti₀ (by positivity)
              (zpow_le_zpow_left₀ (by norm_num) (by norm_num) (by norm_num))
        _ ≤ x.absolute := le_absolute hpos
        _ < 10 ^ k := hkhigh
    exact (zpow_lt_zpow_iff_right₀ (by norm_num)).mp hlt
  refine ⟨?_, by omega, by omega⟩
  have hm : (1 : ℚ) ≤ x.significand := by exact_mod_cast hpos
  have hgrid : (0 : ℚ) < 10 ^ (k - 17) := by positivity
  have hlt : (d.coefficient : ℚ) * 10 ^ (k - 17) < 2 * 10 ^ 17 * 10 ^ (k - 17) :=
    calc (d.coefficient : ℚ) * 10 ^ (k - 17) ≤ d.coefficient * 10 ^ d.exponent := by
          gcongr
          norm_num
      _ ≤ ((x.significand : ℚ) + 1 / 2) * 2 ^ x.power := hhigh
      _ ≤ (2 * x.significand) * 2 ^ x.power := by
          gcongr
          linarith
      _ = 2 * x.absolute := by rw [absolute, mul_assoc]
      _ < 2 * 10 ^ k := by gcongr
      _ = 2 * 10 ^ 17 * 10 ^ (k - 17) := by
          rw [mul_assoc, ← zpow_natCast, ← zpow_add₀ (by norm_num)]
          norm_num
  exact_mod_cast lt_of_mul_lt_mul_right hlt hgrid.le

/-- Zero is written with the digit zero, whatever its sign. -/
theorem shortest_of_isZero (h : x.isZero = true) (tie : Tie) : x.shortest tie = ⟨0, 0⟩ := by
  rw [shortest, if_pos h]

end Binary64

end StatementPress
