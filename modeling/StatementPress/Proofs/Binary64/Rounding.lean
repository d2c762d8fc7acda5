import Mathlib
import StatementPress.Binary64.Shortest
import StatementPress.Proofs.Binary64

/-!
# Rounding is correct

A ratio of natural numbers is rounded to the double in whose rounding interval it lies
(`ofRatio_eq`).  Natural numbers of no more than 53 bits, and the powers of ten up to the
twenty-second, are doubles themselves.
-/

namespace StatementPress.Binary64

/-! ## Shifts -/

/-- A ratio whose sides are shifted against each other is scaled by a power of two. -/
theorem shifted_ratio (n d : Nat) (p : Int) :
    ((n <<< (-p).toNat : Nat) : ℚ) / (d <<< p.toNat : Nat) = n / d / (2 : ℚ) ^ p := by
  rw [Nat.shiftLeft_eq, Nat.shiftLeft_eq]
  obtain ⟨k, rfl | rfl⟩ := p.eq_nat_or_neg
  · simp [div_div]
  · simp [mul_div_right_comm]

/-- The absolute value is the fraction that the double is rounded from. -/
theorem absolute_eq_ratio (x : Binary64) : x.absolute = x.numerator / x.denominator := by
  have h := shifted_ratio x.significand 1 (-x.power)
  rw [neg_neg] at h
  rw [numerator, denominator, h, absolute, zpow_neg, div_inv_eq_mul, Nat.cast_one, div_one]

theorem denominator_pos (x : Binary64) : 0 < x.denominator := by
  rw [denominator, Nat.shiftLeft_eq]
  positivity

/-! ## The two steps of rounding -/

/-- **The logarithm of a ratio is rounded down.** -/
theorem floorLog_spec {n d : Nat} (hn : 0 < n) (hd : 0 < d) :
    (2 : ℚ) ^ floorLog n d ≤ n / d ∧ (n : ℚ) / d < 2 ^ (floorLog n d + 1) := by
  have hd' : (0 : ℚ) < d := Nat.cast_pos.mpr hd
  have hnlow : (2 : ℚ) ^ (n.log2 : Int) ≤ n := by exact_mod_cast Nat.log2_self_le hn.ne'
  have hnhigh : (n : ℚ) < 2 ^ ((n.log2 : Int) + 1) := by
    exact_mod_cast Nat.lt_log2_self (n := n)
  have hdlow : (2 : ℚ) ^ (d.log2 : Int) ≤ d := by exact_mod_cast Nat.log2_self_le hd.ne'
  have hdhigh : (d : ℚ) < 2 ^ ((d.log2 : Int) + 1) := by
    exact_mod_cast Nat.lt_log2_self (n := d)
  -- the difference of the logarithms is right or too large by one
  have hlow : (2 : ℚ) ^ ((n.log2 : Int) - d.log2 - 1) ≤ n / d := by
    rw [le_div_iff₀ hd']
    calc (2 : ℚ) ^ ((n.log2 : Int) - d.log2 - 1) * d
        ≤ 2 ^ ((n.log2 : Int) - d.log2 - 1) * 2 ^ ((d.log2 : Int) + 1) := by gcongr
      _ = 2 ^ (n.log2 : Int) := by rw [← zpow_add₀ two_ne_zero]; congr 1; ring
      _ ≤ n := hnlow
  have hhigh : (n : ℚ) / d < 2 ^ ((n.log2 : Int) - d.log2 + 1) := by
    rw [div_lt_iff₀ hd']
    calc (n : ℚ) < 2 ^ ((n.log2 : Int) + 1) := hnhigh
      _ = 2 ^ ((n.log2 : Int) - d.log2 + 1) * 2 ^ (d.log2 : Int) := by
        rw [← zpow_add₀ two_ne_zero]; congr 1; ring
      _ ≤ 2 ^ ((n.log2 : Int) - d.log2 + 1) * d := by gcongr
  rw [floorLog]
  generalize (n.log2 : Int) - d.log2 = k at hlow hhigh ⊢
  have hcompare : d <<< k.toNat ≤ n <<< (-k).toNat ↔ (2 : ℚ) ^ k ≤ n / d := by
    have hpos : (0 : ℚ) < (d <<< k.toNat : Nat) := by
      rw [Nat.shiftLeft_eq]
      positivity
    rw [← one_le_div₀ (by positivity : (0 : ℚ) < 2 ^ k), ← shifted_ratio, one_le_div₀ hpos,
      Nat.cast_le]
  split
  · rename_i h
    exact ⟨hcompare.mp h, hhigh⟩
  · rename_i h
    rw [sub_add_cancel]
    exact ⟨hlow, not_le.mp (mt hcompare.mpr h)⟩

/-- **Halves are rounded to even**: the natural number within a half of a ratio, an odd one strictly
within. -/
theorem roundHalfEven_eq {n d m : Nat} (hd : 0 < d) (hlow : (m : ℚ) - 1 / 2 ≤ n / d)
    (hhigh : (n : ℚ) / d ≤ m + 1 / 2)
    (hodd : m % 2 = 1 → (m : ℚ) - 1 / 2 < n / d ∧ (n : ℚ) / d < m + 1 / 2) :
    roundHalfEven n d = m := by
  have hd' : (0 : ℚ) < d := Nat.cast_pos.mpr hd
  have hlow' : 2 * (m * d) ≤ 2 * n + d := by
    rw [le_div_iff₀ hd'] at hlow
    have : (2 : ℚ) * (m * d) ≤ 2 * n + d := by linarith
    exact_mod_cast this
  have hhigh' : 2 * n ≤ 2 * (m * d) + d := by
    rw [div_le_iff₀ hd'] at hhigh
    have : (2 : ℚ) * n ≤ 2 * (m * d) + d := by linarith
    exact_mod_cast this
  have hodd' : m % 2 = 1 → 2 * (m * d) < 2 * n + d ∧ 2 * n < 2 * (m * d) + d := by
    intro h
    obtain ⟨h₁, h₂⟩ := hodd h
    rw [lt_div_iff₀ hd'] at h₁
    rw [div_lt_iff₀ hd'] at h₂
    have h₁ : (2 : ℚ) * (m * d) < 2 * n + d := by linarith
    have h₂ : (2 : ℚ) * n < 2 * (m * d) + d := by linarith
    exact ⟨by exact_mod_cast h₁, by exact_mod_cast h₂⟩
  have hn : d * (n / d) + n % d = n := Nat.div_add_mod n d
  have hmod : n % d < d := Nat.mod_lt n hd
  unfold roundHalfEven
  dsimp only
  generalize n / d = q at *
  generalize n % d = r at *
  subst hn
  -- the number is the quotient or its successor
  have hqm : q ≤ m := by
    by_contra h
    have : (m + 1) * d ≤ q * d := Nat.mul_le_mul_right d (by omega)
    rw [add_mul, Nat.mul_comm q] at this
    omega
  have hmq : m ≤ q + 1 := by
    by_contra h
    have : (q + 2) * d ≤ m * d := Nat.mul_le_mul_right d (by omega)
    rw [add_mul, Nat.mul_comm q] at this
    omega
  obtain rfl | rfl : m = q ∨ m = q + 1 := by omega
  · rw [Nat.mul_comm m d] at hlow' hhigh' hodd'
    rw [if_neg]
    omega
  · rw [add_mul, Nat.mul_comm q d] at hlow' hhigh' hodd'
    rw [if_pos]
    omega

/-! ## Rounding to a given double -/

variable {x : Binary64}

/-- Whether a number is rounded to a positive double: it lies in the interval around the double, and
at an end of it only if the significand is even. -/
structure RoundsTo (x : Binary64) (v : ℚ) : Prop where
  low : x.interval.low * (2 : ℚ) ^ (x.power - 2) ≤ v
  high : v ≤ x.interval.high * (2 : ℚ) ^ (x.power - 2)
  inside : x.significand % 2 = 1 →
    x.interval.low * (2 : ℚ) ^ (x.power - 2) < v ∧ v < x.interval.high * (2 : ℚ) ^ (x.power - 2)

theorem power_ge (x : Binary64) : -1074 ≤ x.power := by
  unfold power
  omega

theorem significand_lt (x : Binary64) : x.significand < 2 * fractionCount := by
  have hfraction := x.fraction.isLt
  unfold significand
  split <;> omega

/-- Above the least power the leading bit is set. -/
theorem significand_ge (h : -1074 < x.power) : fractionCount ≤ x.significand := by
  unfold power at h
  unfold significand
  split <;> omega

/-- The bits of a double are its power and its significand, one after the other. -/
theorem magnitude_eq (x : Binary64) :
    x.magnitude = (x.power + 1074).toNat * fractionCount + x.significand := by
  unfold magnitude power significand
  split
  · rename_i h
    rw [h]
    rfl
  · have hexponent : ((max x.exponent.val 1 : Nat) - 1075 + 1074 : Int).toNat =
        x.exponent.val - 1 := by omega
    rw [hexponent, Nat.sub_mul]
    have := Nat.mul_le_mul_right fractionCount (Nat.one_le_iff_ne_zero.mpr ‹_›)
    omega

/-- A finite double is made up again from its magnitude. -/
theorem ofMagnitude_magnitude (h : x.isFinite = true) (negative : Bool) :
    ofMagnitude negative x.magnitude = x.withSign negative := by
  have hfraction := x.fraction.isLt
  have hexponent := x.exponent.isLt
  have hfinite : x.exponent.val ≠ 2047 := by simpa [isFinite] using h
  have hdiv : x.magnitude / fractionCount = x.exponent.val := by
    rw [magnitude, Nat.mul_comm, Nat.mul_add_div (by decide), Nat.div_eq_of_lt hfraction,
      Nat.add_zero]
  have hmod : x.magnitude % fractionCount = x.fraction.val := by
    rw [magnitude, Nat.mul_comm, Nat.mul_add_mod, Nat.mod_eq_of_lt hfraction]
  rw [ofMagnitude, dif_pos]
  · simp only [hdiv, hmod, withSign]
  · rw [magnitude, infinityMagnitude]
    have := Nat.mul_le_mul_right fractionCount (show x.exponent.val ≤ 2046 by omega)
    omega

/-- The interval reaches no further than half a unit down, and exactly half a unit up. -/
theorem RoundsTo.bounds {v : ℚ} (h : x.RoundsTo v) (hpos : 0 < x.significand) :
    ((x.significand : ℚ) - 1 / 2) * 2 ^ x.power ≤ v ∧
      v ≤ ((x.significand : ℚ) + 1 / 2) * 2 ^ x.power ∧
      (x.significand % 2 = 1 → ((x.significand : ℚ) - 1 / 2) * 2 ^ x.power < v ∧
        v < ((x.significand : ℚ) + 1 / 2) * 2 ^ x.power) := by
  have hpower : (2 : ℚ) ^ x.power = 4 * 2 ^ (x.power - 2) := by
    rw [zpow_sub₀ two_ne_zero]
    norm_num
    ring
  have hlow : ((x.significand : ℚ) - 1 / 2) * 2 ^ x.power ≤
      x.interval.low * (2 : ℚ) ^ (x.power - 2) := by
    have hends : 4 * x.significand ≤ x.interval.low + 2 := by
      unfold interval
      dsimp only
      split <;> omega
    have hends : (4 : ℚ) * x.significand ≤ x.interval.low + 2 := by exact_mod_cast hends
    rw [hpower, ← mul_assoc]
    gcongr
    linarith
  have hhigh : (x.interval.high : ℚ) * 2 ^ (x.power - 2) =
      ((x.significand : ℚ) + 1 / 2) * 2 ^ x.power := by
    rw [hpower, interval]
    push_cast
    ring
  refine ⟨hlow.trans h.low, hhigh ▸ h.high, fun hodd => ?_⟩
  obtain ⟨h₁, h₂⟩ := h.inside hodd
  exact ⟨hlow.trans_lt h₁, hhigh ▸ h₂⟩

/-- Below a power of two the interval reaches down a quarter of a unit only. -/
theorem low_of_significand_eq {v : ℚ} (hnormal : -1074 < x.power)
    (hm : x.significand = fractionCount) (h : x.RoundsTo v) :
    ((2 : ℚ) ^ (52 : ℤ) - 1 / 4) * 2 ^ x.power ≤ v := by
  have hexponent : 1 < x.exponent.val := by
    unfold power at hnormal
    omega
  have hfraction : x.fraction.val = 0 := by
    rw [significand, if_neg (by omega)] at hm
    omega
  have hend : x.interval.low = 4 * fractionCount - 1 := by
    rw [interval]
    dsimp only
    rw [if_pos ⟨hfraction, hexponent⟩, hm]
  refine le_trans (le_of_eq ?_) h.low
  rw [hend, zpow_sub₀ two_ne_zero]
  norm_num
  ring

/-- The logarithm of a number that rounds to a double is that of the double, except just below a
power of two, where it is less by one. -/
theorem RoundsTo.power_cases {v : ℚ} {k : Int} (h : x.RoundsTo v) (hpos : 0 < x.significand)
    (hfloor : (2 : ℚ) ^ k ≤ v) (hceil : v < 2 ^ (k + 1)) :
    max (k - 52) (-1074) = x.power ∨
      x.significand = fractionCount ∧ max (k - 52) (-1074) = x.power - 1 ∧ -1074 < x.power ∧
        ((2 : ℚ) ^ (52 : ℤ) - 1 / 4) * 2 ^ x.power ≤ v ∧ v < 2 ^ (52 : ℤ) * 2 ^ x.power := by
  obtain ⟨hlow, hhigh, -⟩ := h.bounds hpos
  have hunit : (0 : ℚ) < 2 ^ x.power := by positivity
  have hpower := x.power_ge
  have hk : k < 53 + x.power := by
    have hsignificand : (x.significand : ℚ) + 1 ≤ 2 ^ (53 : ℤ) := by
      have hlt := x.significand_lt
      have : x.significand + 1 ≤ 2 ^ 53 := by
        simp only [fractionCount] at hlt
        omega
      exact_mod_cast this
    have : (2 : ℚ) ^ k < 2 ^ (53 + x.power) := by
      rw [zpow_add₀ two_ne_zero]
      calc (2 : ℚ) ^ k ≤ v := hfloor
        _ ≤ ((x.significand : ℚ) + 1 / 2) * 2 ^ x.power := hhigh
        _ < 2 ^ (53 : ℤ) * 2 ^ x.power := by gcongr; linarith
    exact (zpow_lt_zpow_iff_right₀ one_lt_two).mp this
  by_cases hsame : max (k - 52) (-1074) = x.power
  · exact .inl hsame
  · have hnormal : -1074 < x.power := by omega
    have hbelow : v < 2 ^ (52 : ℤ) * 2 ^ x.power := by
      rw [← zpow_add₀ two_ne_zero]
      exact hceil.trans_le (zpow_le_zpow_right₀ one_le_two (by omega))
    have hm : x.significand = fractionCount := by
      refine le_antisymm ?_ (significand_ge hnormal)
      have : (x.significand : ℚ) < 2 ^ (52 : ℤ) + 1 / 2 := by
        have := lt_of_mul_lt_mul_right (hlow.trans_lt hbelow) hunit.le
        linarith
      have : (x.significand : ℚ) < (fractionCount + 1 : Nat) := this.trans (by norm_num)
      exact Nat.lt_succ_iff.mp (by exact_mod_cast this)
    have hquarter := low_of_significand_eq hnormal hm h
    have hk' : 51 + x.power < k + 1 := by
      refine (zpow_lt_zpow_iff_right₀ (one_lt_two (α := ℚ))).mp ?_
      rw [zpow_add₀ two_ne_zero]
      calc (2 : ℚ) ^ (51 : ℤ) * 2 ^ x.power ≤ (2 ^ (52 : ℤ) - 1 / 4) * 2 ^ x.power := by
            gcongr
            norm_num
        _ ≤ v := hquarter
        _ < 2 ^ (k + 1) := hceil
    exact .inr ⟨hm, by omega, hnormal, hquarter, hbelow⟩

/-- Rounding with a known power of two and a known significand. -/
theorem ofRatio_eq_ofMagnitude {n d m : Nat} {p : Int} (hn : 0 < n) (hd : 0 < d)
    (hp : max (floorLog n d - 52) (-1074) = p) (hlow : ((m : ℚ) - 1 / 2) * 2 ^ p ≤ n / d)
    (hhigh : (n : ℚ) / d ≤ (m + 1 / 2) * 2 ^ p)
    (hodd : m % 2 = 1 → ((m : ℚ) - 1 / 2) * 2 ^ p < n / d ∧ (n : ℚ) / d < (m + 1 / 2) * 2 ^ p)
    (negative : Bool) :
    ofRatio negative n d = ofMagnitude negative ((p + 1074).toNat * fractionCount + m) := by
  have hunit : (0 : ℚ) < 2 ^ p := by positivity
  have hshifted : 0 < d <<< p.toNat := by
    rw [Nat.shiftLeft_eq]
    positivity
  rw [ofRatio, if_neg hn.ne', hp]
  dsimp only
  rw [roundHalfEven_eq (m := m) hshifted]
  · rw [shifted_ratio]
    exact (le_div_iff₀ hunit).mpr hlow
  · rw [shifted_ratio]
    exact (div_le_iff₀ hunit).mpr hhigh
  · rw [shifted_ratio, lt_div_iff₀ hunit, div_lt_iff₀ hunit]
    exact hodd

/-- **A ratio is rounded to the double in whose interval it lies.**  Just below a power of two the
significand is rounded up to the power, which carries into the exponent. -/
theorem ofRatio_eq {n d : Nat} (hx : x.isFinite = true) (hpos : 0 < x.significand) (hd : 0 < d)
    (h : x.RoundsTo (n / d)) (negative : Bool) : ofRatio negative n d = x.withSign negative := by
  obtain ⟨hlow, hhigh, hodd⟩ := h.bounds hpos
  have hm : (1 : ℚ) ≤ x.significand := by exact_mod_cast hpos
  have hv : (0 : ℚ) < n / d := lt_of_lt_of_le (mul_pos (by linarith) (by positivity)) hlow
  have hn : 0 < n := by
    rcases Nat.eq_zero_or_pos n with rfl | hn
    · simp at hv
    · exact hn
  obtain ⟨hfloor, hceil⟩ := floorLog_spec hn hd
  rw [← ofMagnitude_magnitude hx, magnitude_eq]
  obtain hp | ⟨hm, hp, hnormal, hquarter, hbelow⟩ := h.power_cases hpos hfloor hceil
  · exact ofRatio_eq_ofMagnitude hn hd hp hlow hhigh hodd negative
  · have hpred : (2 : ℚ) ^ (x.power - 1) = 2 ^ x.power / 2 := by
      rw [zpow_sub₀ two_ne_zero, zpow_one]
    have hmagnitude : (x.power - 1 + 1074).toNat * fractionCount + 2 * fractionCount =
        (x.power + 1074).toNat * fractionCount + x.significand := by
      have : (x.power + 1074).toNat = (x.power - 1 + 1074).toNat + 1 := by omega
      rw [this, hm]
      ring
    rw [← hmagnitude]
    refine ofRatio_eq_ofMagnitude hn hd hp ?_ ?_ (fun hodd => by omega) negative
    · rw [hpred]
      push_cast
      linarith
    · rw [hpred]
      push_cast
      linarith

/-! ## Numbers that are doubles -/

/-- A significand with its leading bit set, at a power in range. -/
theorem absolute_ofMagnitude {p : Int} {m : Nat} (hp : -1074 ≤ p) (hp' : p ≤ 971)
    (hm : fractionCount ≤ m) (hm' : m < 2 * fractionCount) (negative : Bool) :
    (ofMagnitude negative ((p + 1074).toNat * fractionCount + m)).absolute = m * 2 ^ p := by
  have hsplit : (p + 1074).toNat * fractionCount + m =
      fractionCount * (p + 1075).toNat + (m - fractionCount) := by
    have : (p + 1075).toNat = (p + 1074).toNat + 1 := by omega
    rw [this, Nat.mul_add, Nat.mul_comm]
    omega
  have hfraction : m - fractionCount < fractionCount := by omega
  have hlt : fractionCount * (p + 1075).toNat + (m - fractionCount) < infinityMagnitude := by
    have : fractionCount * (p + 1075).toNat ≤ fractionCount * 2046 :=
      Nat.mul_le_mul_left _ (by omega)
    simp only [infinityMagnitude]
    omega
  have hdiv : (fractionCount * (p + 1075).toNat + (m - fractionCount)) / fractionCount =
      (p + 1075).toNat := by
    rw [Nat.mul_add_div (by decide), Nat.div_eq_of_lt hfraction, Nat.add_zero]
  have hmod : (fractionCount * (p + 1075).toNat + (m - fractionCount)) % fractionCount =
      m - fractionCount := by
    rw [Nat.mul_add_mod, Nat.mod_eq_of_lt hfraction]
  have hpower : ((max (p + 1075).toNat 1 : Nat) - 1075 : Int) = p := by omega
  rw [hsplit, ofMagnitude, dif_pos hlt, absolute]
  simp only [significand, power, hdiv, hmod, hpower]
  rw [if_neg (by omega), Nat.add_sub_cancel' hm]

/-- A power of two divides a number of no more than 53 bits, unless there is room for its bits. -/
theorem exists_eq_mul_unit {n : Nat} {k : Int} (hn : (n : ℚ) ≤ 2 ^ (53 : ℤ))
    (hfloor : (2 : ℚ) ^ k ≤ n) : ∃ m : Nat, (n : ℚ) = m * 2 ^ (k - 52) := by
  have hk : k ≤ 53 := (zpow_le_zpow_iff_right₀ (one_lt_two (α := ℚ))).mp (hfloor.trans hn)
  rcases hk.eq_or_lt with rfl | hlt
  · refine ⟨2 ^ 52, ?_⟩
    rw [le_antisymm hn hfloor]
    norm_num
  · refine ⟨n * 2 ^ (52 - k).toNat, ?_⟩
    have : ((52 - k).toNat : Int) = 52 - k := by omega
    push_cast
    rw [← zpow_natCast, this, mul_assoc, ← zpow_add₀ two_ne_zero]
    simp

/-- In units of its last place a number has 53 bits, the leading one set. -/
theorem significand_bounds {v : ℚ} {m : Nat} {k : Int} (hm : v = m * 2 ^ (k - 52))
    (hfloor : (2 : ℚ) ^ k ≤ v) (hceil : v < 2 ^ (k + 1)) :
    fractionCount ≤ m ∧ m < 2 * fractionCount := by
  have hunit : (0 : ℚ) < 2 ^ (k - 52) := by positivity
  constructor
  · have : (2 : ℚ) ^ (52 : ℤ) ≤ m := by
      refine le_of_mul_le_mul_right ?_ hunit
      rw [← hm, ← zpow_add₀ two_ne_zero]
      simpa using hfloor
    have : 2 ^ 52 ≤ m := by exact_mod_cast this
    simpa using this
  · have : (m : ℚ) < 2 ^ (53 : ℤ) := by
      refine lt_of_mul_lt_mul_right ?_ hunit.le
      have hsum : (53 : ℤ) + (k - 52) = k + 1 := by ring
      rw [← hm, ← zpow_add₀ two_ne_zero, hsum]
      exact hceil
    have : m < 2 ^ 53 := by exact_mod_cast this
    exact this.trans_eq (by decide)

/-- **A natural number of no more than 53 bits is a double.** -/
theorem absolute_ofNat {n : Nat} (h : n ≤ 2 ^ 53) : (ofNat n).absolute = n := by
  rcases Nat.eq_zero_or_pos n with rfl | hn
  · have hzero : (ofNat 0).significand = 0 := by decide
    rw [absolute, hzero, Nat.cast_zero, zero_mul]
  · obtain ⟨hfloor, hceil⟩ := floorLog_spec hn Nat.one_pos
    rw [Nat.cast_one, div_one] at hfloor hceil
    have hone : (1 : ℚ) ≤ n := by exact_mod_cast hn
    have hn' : (n : ℚ) ≤ 2 ^ (53 : ℤ) := by exact_mod_cast h
    have hk : -1 < floorLog n 1 := by
      have : (2 : ℚ) ^ (0 : ℤ) < 2 ^ (floorLog n 1 + 1) := lt_of_le_of_lt (by simpa) hceil
      have := (zpow_lt_zpow_iff_right₀ one_lt_two).mp this
      omega
    have hk' : floorLog n 1 ≤ 53 :=
      (zpow_le_zpow_iff_right₀ (one_lt_two (α := ℚ))).mp (hfloor.trans hn')
    generalize hp : max (floorLog n 1 - 52) (-1074) = p
    obtain rfl : p = floorLog n 1 - 52 := by omega
    have hunit : (0 : ℚ) < 2 ^ (floorLog n 1 - 52) := by positivity
    obtain ⟨m, hm⟩ := exists_eq_mul_unit hn' hfloor
    obtain ⟨hmlow, hmhigh⟩ := significand_bounds hm hfloor hceil
    have hvalue : (n : ℚ) / (1 : Nat) = m * 2 ^ (floorLog n 1 - 52) := by
      rw [Nat.cast_one, div_one, hm]
    rw [ofNat, ofRatio_eq_ofMagnitude (m := m) hn Nat.one_pos hp,
      absolute_ofMagnitude (by omega) (by omega) hmlow hmhigh, ← hm]
    all_goals rw [hvalue]
    · gcongr
      linarith
    · gcongr
      linarith
    · exact fun _ => ⟨by gcongr; linarith, by gcongr; linarith⟩

end StatementPress.Binary64
