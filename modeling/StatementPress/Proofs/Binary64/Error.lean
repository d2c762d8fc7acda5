import StatementPress.Proofs.Binary64.Rounding

/-!
# Rounding errors

A ratio below the limit of the doubles is rounded to a finite double, which is off by no more than
the 53rd bit of the ratio, or by half of the least positive double (`near_ofRatio`).  So is every
product and every quotient.
-/

namespace StatementPress.Binary64

/-- What is too large for the doubles: half a unit above the largest of them. -/
def limit : ℚ := (2 ^ (53 : ℤ) - 1 / 2) * 2 ^ (971 : ℤ)

/-- Whether a double is finite and no further from a number than rounding takes it. -/
structure Near (x : Binary64) (v : ℚ) : Prop where
  finite : x.isFinite = true
  low : v - (v * 2 ^ (-53 : ℤ) + 2 ^ (-1075 : ℤ)) ≤ x.absolute
  high : x.absolute ≤ v + (v * 2 ^ (-53 : ℤ) + 2 ^ (-1075 : ℤ))

/-! ## One rounding -/

/-- Rounding to a whole number is off by a half at most. -/
theorem roundHalfEven_near {n d : Nat} (hd : 0 < d) :
    (n : ℚ) / d - 1 / 2 ≤ roundHalfEven n d ∧ (roundHalfEven n d : ℚ) ≤ n / d + 1 / 2 := by
  have hd' : (0 : ℚ) < d := Nat.cast_pos.mpr hd
  have hn : d * (n / d) + n % d = n := Nat.div_add_mod n d
  have hmod : n % d < d := Nat.mod_lt n hd
  have hbounds : 2 * n ≤ 2 * (roundHalfEven n d * d) + d ∧
      2 * (roundHalfEven n d * d) ≤ 2 * n + d := by
    unfold roundHalfEven
    dsimp only
    generalize n / d = q at *
    generalize n % d = r at *
    subst hn
    split
    · rw [Nat.add_mul, Nat.mul_comm q]
      omega
    · rw [Nat.mul_comm q]
      omega
  obtain ⟨hlow, hhigh⟩ := hbounds
  have hlow : (2 : ℚ) * n ≤ 2 * (roundHalfEven n d * d) + d := by exact_mod_cast hlow
  have hhigh : (2 : ℚ) * (roundHalfEven n d * d) ≤ 2 * n + d := by exact_mod_cast hhigh
  constructor
  · rw [sub_le_iff_le_add, div_le_iff₀ hd']
    linarith
  · rw [← sub_le_iff_le_add, le_div_iff₀ hd']
    linarith

/-- What a magnitude stands for, put together from a power of two and a significand that may have
been rounded up to the next power. -/
theorem absolute_ofMagnitude_of_le {p : Int} {m : Nat} (hp : -1074 ≤ p)
    (hm : -1074 < p → fractionCount ≤ m) (hm' : m ≤ 2 * fractionCount)
    (hlt : (p + 1074).toNat * fractionCount + m < infinityMagnitude) (negative : Bool) :
    (ofMagnitude negative ((p + 1074).toNat * fractionCount + m)).absolute = m * 2 ^ p := by
  rcases Nat.lt_or_ge m fractionCount with hsmall | hbig
  · -- a small significand stands at the least power only
    obtain rfl : p = -1074 := by
      by_contra hne
      exact absurd (hm (by omega)) (by omega)
    have hzero : ((-1074 + 1074 : Int).toNat * fractionCount + m) = m := by simp
    rw [hzero] at hlt ⊢
    rw [ofMagnitude, dif_pos hlt, absolute]
    simp only [significand, power, Nat.div_eq_of_lt hsmall, Nat.mod_eq_of_lt hsmall]
    rfl
  · have hp' : p ≤ 971 := by
      simp only [infinityMagnitude, fractionCount] at hlt hbig
      omega
    rcases hm'.lt_or_eq with hm' | rfl
    · exact absolute_ofMagnitude hp hp' hbig hm' negative
    · have hcarry : (p + 1074).toNat * fractionCount + 2 * fractionCount =
          (p + 1 + 1074).toNat * fractionCount + fractionCount := by
        have : (p + 1 + 1074).toNat = (p + 1074).toNat + 1 := by omega
        rw [this]
        ring
      have hp' : p + 1 ≤ 971 := by
        simp only [infinityMagnitude, fractionCount] at hlt
        omega
      rw [hcarry, absolute_ofMagnitude (by omega) hp' le_rfl (by decide), zpow_add_one₀ two_ne_zero]
      push_cast
      ring

/-- What overflows lies half a unit above the largest double, and below the next power of two. -/
theorem limit_lt : limit < 2 ^ (1024 : ℤ) := by
  calc limit < 2 ^ (53 : ℤ) * 2 ^ (971 : ℤ) := by
        unfold limit
        gcongr
        norm_num
    _ = 2 ^ (1024 : ℤ) := by
        rw [← zpow_add₀ two_ne_zero]
        rfl

/-- What a positive ratio is rounded to: the unit has its place by the size of the ratio, and the
significand is off by half a unit at most. -/
theorem exists_ofRatio_eq {n d : Nat} (hn : 0 < n) (hd : 0 < d) (negative : Bool) :
    ∃ (p : Int) (q : Nat),
      ofRatio negative n d = ofMagnitude negative ((p + 1074).toNat * fractionCount + q) ∧
        -1074 ≤ p ∧ (-1074 < p → 2 ^ (52 : ℤ) ≤ (n : ℚ) / d / 2 ^ p) ∧
          (n : ℚ) / d / 2 ^ p < 2 ^ (53 : ℤ) ∧
            (2 : ℚ) ^ p / 2 ≤ n / d * 2 ^ (-53 : ℤ) + 2 ^ (-1075 : ℤ) ∧
              ((n : ℚ) / d / 2 ^ p - 1 / 2 ≤ q ∧ (q : ℚ) ≤ n / d / 2 ^ p + 1 / 2) := by
  obtain ⟨hfloor, hceil⟩ := floorLog_spec hn hd
  rw [ofRatio, if_neg hn.ne']
  dsimp only
  generalize floorLog n d = k at *
  generalize hp : max (k - 52) (-1074) = p
  have hunit : (0 : ℚ) < 2 ^ p := by positivity
  have hround := roundHalfEven_near (n := n <<< (-p).toNat) (d := d <<< p.toNat) (by
    rw [Nat.shiftLeft_eq]
    positivity)
  rw [shifted_ratio] at hround
  generalize roundHalfEven (n <<< (-p).toNat) (d <<< p.toNat) = q at *
  generalize (n : ℚ) / d = v at *
  refine ⟨p, q, rfl, by omega, fun hnormal => ?_, ?_, ?_, hround⟩
  · rw [le_div_iff₀ hunit, ← zpow_add₀ two_ne_zero]
    exact (zpow_le_zpow_right₀ one_le_two (by omega)).trans hfloor
  · rw [div_lt_iff₀ hunit, ← zpow_add₀ two_ne_zero]
    exact hceil.trans_le (zpow_le_zpow_right₀ one_le_two (by omega))
  -- half a unit is below the 53rd bit, except at the least power
  · have hhalf : (2 : ℚ) ^ p / 2 = 2 ^ (p - 1) := by rw [zpow_sub₀ two_ne_zero, zpow_one]
    rw [hhalf]
    rcases max_choice (k - 52) (-1074) with hmax | hmax
    · have hsplit : p - 1 = k + -53 := by omega
      have : (2 : ℚ) ^ k * 2 ^ (-53 : ℤ) ≤ v * 2 ^ (-53 : ℤ) := by gcongr
      rw [hsplit, zpow_add₀ two_ne_zero]
      exact this.trans (le_add_of_nonneg_right (by positivity))
    · have hsplit : p - 1 = -1075 := by omega
      have hv : 0 ≤ v := (by positivity : (0 : ℚ) ≤ 2 ^ k).trans hfloor
      rw [hsplit]
      exact le_add_of_nonneg_left (by positivity)

/-- A number below the limit has its unit and its significand in range. -/
theorem magnitude_lt_of_lt_limit {v : ℚ} {p : Int} {q : Nat} (h : v < limit)
    (hlow : -1074 < p → 2 ^ (52 : ℤ) ≤ v / 2 ^ p) (hhigh : v / 2 ^ p < 2 ^ (53 : ℤ))
    (hround : (q : ℚ) ≤ v / 2 ^ p + 1 / 2) :
    (p + 1074).toNat * fractionCount + q < infinityMagnitude := by
  have hunit : (0 : ℚ) < 2 ^ p := by positivity
  have hp : p ≤ 971 := by
    by_contra hp
    have : (2 : ℚ) ^ (52 + p) < 2 ^ (1024 : ℤ) := by
      rw [zpow_add₀ two_ne_zero]
      exact ((le_div_iff₀ hunit).mp (hlow (by omega))).trans_lt (h.trans limit_lt)
    have := (zpow_lt_zpow_iff_right₀ (one_lt_two (α := ℚ))).mp this
    omega
  rcases hp.lt_or_eq with hp | rfl
  · have : (q : ℚ) < 2 ^ (53 : ℤ) + 1 := by linarith
    have : q < 2 ^ 53 + 1 := by exact_mod_cast this
    simp only [infinityMagnitude, fractionCount]
    omega
  · have hbelow : v / 2 ^ (971 : ℤ) < 2 ^ (53 : ℤ) - 1 / 2 := by
      rw [div_lt_iff₀ hunit]
      exact h
    have : (q : ℚ) < 2 ^ (53 : ℤ) := by linarith
    have : q < 2 ^ 53 := by exact_mod_cast this
    simp only [infinityMagnitude, fractionCount]
    omega

/-- **A ratio below the limit is rounded to a finite double near it.** -/
theorem near_ofRatio {n d : Nat} (hd : 0 < d) (h : (n : ℚ) / d < limit) (negative : Bool) :
    (ofRatio negative n d).Near (n / d) := by
  rcases Nat.eq_zero_or_pos n with rfl | hn
  · have hzero : (ofMagnitude negative 0).absolute = 0 :=
      (absolute_ofMagnitude_of_le (m := 0) le_rfl (fun h => absurd h (lt_irrefl _)) (by decide)
        (by decide) negative).trans (by simp)
    rw [ofRatio, if_pos rfl, Nat.cast_zero, zero_div]
    refine ⟨isFinite_ofMagnitude (by decide), ?_, ?_⟩ <;> rw [hzero] <;> norm_num
  · obtain ⟨p, q, hratio, hp, hlow, hhigh, hhalf, hround, hround'⟩ :=
      exists_ofRatio_eq hn hd negative
    generalize (n : ℚ) / d = v at *
    have hlt := magnitude_lt_of_lt_limit h hlow hhigh hround'
    have hq : -1074 < p → fractionCount ≤ q := by
      intro hnormal
      have : (2 : ℚ) ^ (52 : ℤ) < q + 1 := by linarith [hlow hnormal]
      have : 2 ^ 52 < q + 1 := by exact_mod_cast this
      exact Nat.lt_succ_iff.mp this
    have hq' : q ≤ 2 * fractionCount := by
      have : (q : ℚ) < 2 ^ (53 : ℤ) + 1 := by linarith
      have : q < 2 ^ 53 + 1 := by exact_mod_cast this
      exact Nat.lt_succ_iff.mp this
    have hscaled : v / 2 ^ p * 2 ^ p = v := div_mul_cancel₀ v (by positivity)
    rw [hratio]
    refine ⟨isFinite_ofMagnitude hlt, ?_, ?_⟩
    all_goals rw [absolute_ofMagnitude_of_le hp hq hq' hlt]
    · calc v - (v * 2 ^ (-53 : ℤ) + 2 ^ (-1075 : ℤ)) ≤ v - 2 ^ p / 2 := sub_le_sub_left hhalf v
        _ = (v / 2 ^ p - 1 / 2) * 2 ^ p := by rw [sub_mul, hscaled]; ring
        _ ≤ q * 2 ^ p := by gcongr
    · calc (q : ℚ) * 2 ^ p ≤ (v / 2 ^ p + 1 / 2) * 2 ^ p := by gcongr
        _ = v + 2 ^ p / 2 := by rw [add_mul, hscaled]; ring
        _ ≤ v + (v * 2 ^ (-53 : ℤ) + 2 ^ (-1075 : ℤ)) := by gcongr

/-! ## Products and quotients -/

variable {x y : Binary64}

/-- Turning a whole number into a double is one rounding. -/
theorem near_ofNat {n : Nat} (h : (n : ℚ) < limit) : (ofNat n).Near n := by
  have hnear := near_ofRatio (n := n) Nat.one_pos (by simpa using h) false
  simpa [ofNat] using hnear

theorem absolute_mul_eq_ratio (x y : Binary64) : x.absolute * y.absolute =
    (x.numerator * y.numerator : Nat) / (x.denominator * y.denominator : Nat) := by
  rw [absolute_eq_ratio x, absolute_eq_ratio y, div_mul_div_comm]
  push_cast
  rfl

theorem absolute_div_eq_ratio (x y : Binary64) : x.absolute / y.absolute =
    (x.numerator * y.denominator : Nat) / (x.denominator * y.numerator : Nat) := by
  rw [absolute_eq_ratio x, absolute_eq_ratio y, div_div_div_eq]
  push_cast
  rfl

theorem numerator_pos_of_absolute_pos (hy : 0 < y.absolute) : 0 < y.numerator := by
  refine Nat.pos_of_ne_zero fun hzero => ?_
  rw [absolute_eq_ratio, hzero, Nat.cast_zero, zero_div] at hy
  exact lt_irrefl _ hy

/-- Multiplication is one rounding of the product. -/
theorem near_mul (h : x.absolute * y.absolute < limit) :
    (x.mul y).Near (x.absolute * y.absolute) := by
  rw [absolute_mul_eq_ratio] at h ⊢
  exact near_ofRatio (Nat.mul_pos x.denominator_pos y.denominator_pos) h _

/-- Division is one rounding of the quotient. -/
theorem near_div (hy : 0 < y.absolute) (h : x.absolute / y.absolute < limit) :
    (x.div y).Near (x.absolute / y.absolute) := by
  have hnumerator := numerator_pos_of_absolute_pos hy
  rw [absolute_div_eq_ratio] at h ⊢
  exact near_ofRatio (Nat.mul_pos x.denominator_pos hnumerator) h _

/-! ## Relative errors -/

/-- From one upwards the error is a part of the number. -/
theorem Near.relative {v : ℚ} (h : x.Near v) (hv : 1 ≤ v) :
    v * (1 - 2 ^ (-52 : ℤ)) ≤ x.absolute ∧ x.absolute ≤ v * (1 + 2 ^ (-52 : ℤ)) := by
  have herror : v * 2 ^ (-53 : ℤ) + 2 ^ (-1075 : ℤ) ≤ v * 2 ^ (-52 : ℤ) := by
    calc v * 2 ^ (-53 : ℤ) + 2 ^ (-1075 : ℤ) ≤ v * 2 ^ (-53 : ℤ) + v * 2 ^ (-53 : ℤ) := by
          have : (2 : ℚ) ^ (-1075 : ℤ) ≤ 2 ^ (-53 : ℤ) :=
            zpow_le_zpow_right₀ one_le_two (by norm_num)
          exact add_le_add_right (this.trans (le_mul_of_one_le_left (by positivity) hv)) _
      _ = v * 2 ^ (-52 : ℤ) := by
          rw [← mul_add]
          norm_num
  constructor
  · rw [mul_sub, mul_one]
    exact (sub_le_sub_left herror v).trans h.low
  · rw [mul_add, mul_one]
    exact h.high.trans (add_le_add_right herror v)

/-- What is no smaller than the least positive double is not rounded to zero. -/
theorem Near.pos {v : ℚ} (h : x.Near v) (hv : 2 ^ (-1074 : ℤ) ≤ v) : 0 < x.absolute := by
  have hhalf : (2 : ℚ) ^ (-1075 : ℤ) ≤ v / 2 := by
    have : (2 : ℚ) ^ (-1075 : ℤ) = 2 ^ (-1074 : ℤ) / 2 := by
      rw [div_eq_mul_inv, ← zpow_sub_one₀ two_ne_zero]
      rfl
    rw [this]
    gcongr
  have hpos : 0 < v := (by positivity : (0 : ℚ) < 2 ^ (-1074 : ℤ)).trans_le hv
  have hbit : v * 2 ^ (-53 : ℤ) < v / 2 := by
    rw [div_eq_mul_inv]
    gcongr
    norm_num
  have herror : v * 2 ^ (-53 : ℤ) + 2 ^ (-1075 : ℤ) < v :=
    (add_lt_add_of_lt_of_le hbit hhalf).trans_eq (add_halves v)
  exact (sub_pos.mpr herror).trans_le h.low

end StatementPress.Binary64
