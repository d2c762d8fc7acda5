import StatementPress.Proofs.Binary64.Error
import StatementPress.Proofs.Json.Numerals

/-!
# Doubles that were written

The text of a finite double is read as a finite double with its sign, and a positive one as a
positive one (`Binary64.reread_spec`).  It is the same double where nothing is rounded on the way:
the digits make a number of no more than 53 bits, and the point stands no further off than the
twenty-second power of ten, the last that is a double (`Binary64.reread_of_isShort`).
-/

namespace StatementPress

open Json.Reader

namespace Binary64

variable {x : Binary64}

/-- Whether the digits of the text of a double make a number of no more than 53 bits, and the
exponent has no more than 22 in either direction. -/
def IsShort (x : Binary64) : Prop :=
  x.written.1 ≤ 2 ^ 53 ∧ -22 ≤ x.written.2 ∧ x.written.2 ≤ 22

instance (x : Binary64) : Decidable x.IsShort := by
  unfold IsShort
  infer_instance

/-! ## What is written -/

/-- What is written of a double rounds to it. -/
theorem written_spec (hpos : 0 < x.significand) :
    x.RoundsTo (x.written.1 * 10 ^ x.written.2) ∧ 0 < x.written.1 := by
  obtain ⟨hrounds, hcoefficient, -⟩ := shortest_spec hpos .even
  rw [Decimal.value] at hrounds
  rw [written]
  split
  · rename_i hwhole
    have hshift : (((x.shortest .even).coefficient * 10 ^ ((x.shortest .even).exponent.toNat + 1) :
        Nat) : ℚ) * 10 ^ (-1 : ℤ) =
          (x.shortest .even).coefficient * 10 ^ (x.shortest .even).exponent := by
      push_cast
      rw [← zpow_natCast, mul_assoc, ← zpow_add₀ (by norm_num)]
      congr 2
      push_cast
      omega
    rw [hshift]
    exact ⟨hrounds, Nat.mul_pos hcoefficient (by positivity)⟩
  · exact ⟨hrounds, hcoefficient⟩

/-- A zero is written with one digit after the point. -/
theorem written_of_isZero (h : x.isZero = true) : x.written = (0, -1) := by
  rw [written, shortest_of_isZero h, isPlain, h]
  rfl

/-- The digits of the text of a double make a number that fits in 64 bits. -/
theorem written_le (hx : x.isFinite = true) : x.written.1 ≤ maxSignificand := by
  cases hzero : x.isZero with
  | true =>
    rw [written_of_isZero hzero]
    exact Nat.zero_le _
  | false =>
    have hm := isZero_eq_false_iff.mp hzero
    rw [written]
    split
    · rename_i hwhole
      have hplain : x.isPlain = true → (x.shortest .even).point ≤ 16 := by
        rw [isPlain, hzero]
        simp
      exact whole_le_maxSignificand hwhole.2 (hplain hwhole.1)
    · exact (shortest_bounds hx hm .even).1.le.trans (by decide)

/-! ## Scaling without rounding -/

theorem negative_ofMagnitude (negative : Bool) (m : Nat) :
    (ofMagnitude negative m).negative = negative := by
  rw [ofMagnitude]
  split <;> rfl

theorem negative_ofNat (n : Nat) : (ofNat n).negative = false := by
  rcases Nat.eq_zero_or_pos n with rfl | hn
  · decide
  · obtain ⟨p, q, hratio, -⟩ := exists_ofRatio_eq hn Nat.one_pos false
    rw [ofNat, hratio, negative_ofMagnitude]

/-- The powers of ten up to the twenty-second are doubles. -/
theorem absolute_powerOfTen {k : Nat} (h : k ≤ 22) : (powerOfTen k).absolute = 10 ^ k := by
  have hparts : ∀ k < 23, (powerOfTen k).numerator = 10 ^ k * (powerOfTen k).denominator := by
    decide +kernel
  have hd : ((powerOfTen k).denominator : ℚ) ≠ 0 := by
    exact_mod_cast (powerOfTen k).denominator_pos.ne'
  rw [absolute_eq_ratio, hparts k (by omega), Nat.cast_mul, mul_div_assoc, div_self hd]
  push_cast
  ring

/-- **Scaling is exact** where neither significand nor power is rounded. -/
theorem scaled?_eq {n : Nat} {e : Int} (hx : x.isFinite = true) (hpos : 0 < x.significand)
    (hn : n ≤ 2 ^ 53) (he : -22 ≤ e) (he' : e ≤ 22) (h : x.RoundsTo (n * 10 ^ e)) :
    scaled? n e = some (x.withSign false) := by
  have hpower : (powerOfTen e.natAbs).absolute = 10 ^ e.natAbs := absolute_powerOfTen (by omega)
  have hsign : ((ofNat n).negative != (powerOfTen e.natAbs).negative) = false := by
    rw [powerOfTen, negative_ofNat, negative_ofNat]
    rfl
  rw [scaled?]
  dsimp only
  rw [if_neg (by omega)]
  by_cases hup : 0 ≤ e
  · have hproduct : (ofNat n).mul (powerOfTen e.toNat) = x.withSign false := by
      have hvalue : (ofNat n).absolute * (powerOfTen e.natAbs).absolute = n * 10 ^ e := by
        rw [absolute_ofNat hn, hpower, ← zpow_natCast, Int.natAbs_of_nonneg hup]
      have hnat : e.toNat = e.natAbs := by omega
      rw [← hvalue, absolute_mul_eq_ratio] at h
      rw [hnat, mul, hsign]
      exact ofRatio_eq hx hpos (Nat.mul_pos (denominator_pos _) (denominator_pos _)) h false
    have hfinite : (x.withSign false).isFinite = true := hx
    rw [if_pos hup, hproduct, if_pos hfinite]
  · have hquotient : (ofNat n).div (powerOfTen (-e).toNat) = x.withSign false := by
      have hvalue : (ofNat n).absolute / (powerOfTen e.natAbs).absolute = n * 10 ^ e := by
        have hneg : e = -(e.natAbs : ℤ) := by omega
        rw [absolute_ofNat hn, hpower, div_eq_mul_inv, ← zpow_natCast, ← zpow_neg, ← hneg]
      have hnat : (-e).toNat = e.natAbs := by omega
      have hnumerator : 0 < (powerOfTen e.natAbs).numerator :=
        numerator_pos_of_absolute_pos (by rw [hpower]; positivity)
      rw [← hvalue, absolute_div_eq_ratio] at h
      rw [hnat, div, hsign]
      exact ofRatio_eq hx hpos (Nat.mul_pos (denominator_pos _) hnumerator) h false
    rw [if_neg hup, if_pos (by omega), hquotient]

/-- A zero is read back with its sign. -/
theorem reread_of_isZero (h : x.isZero = true) : x.reread = x := by
  have hwritten := written_of_isZero h
  rw [isZero, Bool.and_eq_true, beq_iff_eq, beq_iff_eq] at h
  have hfinite : x.isFinite = true := by
    rw [isFinite, h.1]
    rfl
  have hmagnitude : x.magnitude = 0 := by
    rw [magnitude, h.1, h.2, Nat.zero_mul]
  have hzero : scaled? 0 (-1) = some zero := by decide +kernel
  have hsame := ofMagnitude_magnitude hfinite x.negative
  rw [hmagnitude] at hsame
  rw [reread, hwritten, hzero]
  exact hsame

/-- **A double with a short text is read back.** -/
theorem reread_of_isShort (hx : x.isFinite = true) (h : x.IsShort) : x.reread = x := by
  cases hzero : x.isZero with
  | true => exact reread_of_isZero hzero
  | false =>
    have hpos := isZero_eq_false_iff.mp hzero
    obtain ⟨hn, he, he'⟩ := h
    rw [reread, scaled?_eq hx hpos hn he he' (written_spec hpos).1]
    rfl

/-! ## Scaling with rounding -/

/-- How far a number of at least one may be off after rounding, relative to its size. -/
def roundoff : ℚ := 2 ^ (-52 : ℤ)

theorem roundoff_pos : 0 < roundoff := by
  unfold roundoff
  positivity

theorem roundoff_le : roundoff ≤ 1 / 1000 := by
  unfold roundoff
  norm_num

/-- The limit lies between two powers of ten. -/
theorem limit_bounds : (10 : ℚ) ^ 308 < limit ∧ limit < 10 ^ 309 := by
  have hlow : 10 ^ 308 < 9007199254740991 * 2 ^ 971 := by decide +kernel
  have hhigh : 2 ^ 1024 < 10 ^ 309 := by decide +kernel
  constructor
  · calc (10 : ℚ) ^ 308 < 9007199254740991 * 2 ^ 971 := by exact_mod_cast hlow
      _ ≤ limit := by
        rw [limit, zpow_ofNat 2 971]
        gcongr
        norm_num
  · refine limit_lt.trans ?_
    exact_mod_cast hhigh

/-- A power of ten in the table is one rounding away from the power. -/
theorem near_powerOfTen {k : Nat} (h : k ≤ 308) : (powerOfTen k).Near (10 ^ k) := by
  have hlt : ((10 ^ k : Nat) : ℚ) < limit := by
    push_cast
    exact (pow_le_pow_right₀ (by norm_num) h).trans_lt limit_bounds.1
  have hnear := near_ofNat hlt
  push_cast at hnear
  exact hnear

/-- A significand is turned into a double with a small relative error. -/
theorem ofNat_bounds {n : Nat} (hn : 0 < n) (hn' : n ≤ maxSignificand) :
    n * (1 - roundoff) ≤ (ofNat n).absolute ∧ (ofNat n).absolute ≤ n * (1 + roundoff) := by
  have hlt : (n : ℚ) < limit := by
    have hle : n ≤ 10 ^ 308 := hn'.trans (by decide +kernel)
    exact (by exact_mod_cast hle : (n : ℚ) ≤ 10 ^ 308).trans_lt limit_bounds.1
  exact (near_ofNat hlt).relative (by exact_mod_cast hn)

/-- The powers of ten in the table have a small relative error. -/
theorem powerOfTen_bounds {k : Nat} (h : k ≤ 308) :
    10 ^ k * (1 - roundoff) ≤ (powerOfTen k).absolute ∧
      (powerOfTen k).absolute ≤ 10 ^ k * (1 + roundoff) :=
  (near_powerOfTen h).relative (one_le_pow₀ (by norm_num))

theorem powerOfTen_pos {k : Nat} (h : k ≤ 308) : 1 / 2 ≤ (powerOfTen k).absolute := by
  have hpow : (1 : ℚ) ≤ 10 ^ k := one_le_pow₀ (by norm_num)
  have := (powerOfTen_bounds h).1
  have := roundoff_le
  nlinarith

/-- A product stays below the limit if it would without rounding, a few units off. -/
theorem scaled_up {n k : Nat} (hn : 0 < n) (hn' : n ≤ maxSignificand) (hk : k ≤ 308)
    (h : (n : ℚ) * 10 ^ k ≤ (2 ^ (53 : ℤ) - 13 / 2) * 2 ^ (971 : ℤ)) :
    ((ofNat n).mul (powerOfTen k)).isFinite = true ∧
      0 < ((ofNat n).mul (powerOfTen k)).absolute := by
  obtain ⟨hf, hf'⟩ := ofNat_bounds hn hn'
  obtain ⟨-, hp'⟩ := powerOfTen_bounds hk
  have hp := powerOfTen_pos hk
  have hu := roundoff_pos
  have hone : (1 : ℚ) ≤ n := by exact_mod_cast hn
  have hlt : (ofNat n).absolute * (powerOfTen k).absolute < limit := by
    calc (ofNat n).absolute * (powerOfTen k).absolute
        ≤ n * (1 + roundoff) * (10 ^ k * (1 + roundoff)) := by gcongr
      _ = n * 10 ^ k * (1 + roundoff) ^ 2 := by ring
      _ ≤ (2 ^ (53 : ℤ) - 13 / 2) * 2 ^ (971 : ℤ) * (1 + roundoff) ^ 2 := by gcongr
      _ = (2 ^ (53 : ℤ) - 13 / 2) * (1 + roundoff) ^ 2 * 2 ^ (971 : ℤ) := by ring
      _ < limit := by
        unfold limit roundoff
        gcongr
        norm_num
  have hlow : (2 : ℚ) ^ (-1074 : ℤ) ≤ (ofNat n).absolute * (powerOfTen k).absolute := by
    have hhalf : (1 / 2 : ℚ) ≤ (ofNat n).absolute := by
      have := roundoff_le
      nlinarith
    calc (2 : ℚ) ^ (-1074 : ℤ) ≤ 2 ^ (-2 : ℤ) := zpow_le_zpow_right₀ one_le_two (by norm_num)
      _ = 1 / 2 * (1 / 2) := by norm_num
      _ ≤ (ofNat n).absolute * (powerOfTen k).absolute := by gcongr
  exact ⟨(near_mul hlt).finite, (near_mul hlt).pos hlow⟩

/-- A quotient of numbers in range is in range. -/
theorem quotient_bounds {n k : Nat} (hn : 0 < n) (hn' : n ≤ maxSignificand) (hk : k ≤ 308) :
    (n : ℚ) / 10 ^ k * (1 - 3 * roundoff) ≤ (ofNat n).absolute / (powerOfTen k).absolute ∧
      (ofNat n).absolute / (powerOfTen k).absolute ≤ 2 ^ (66 : ℤ) := by
  obtain ⟨hf, hf'⟩ := ofNat_bounds hn hn'
  obtain ⟨-, hp'⟩ := powerOfTen_bounds hk
  have hp := powerOfTen_pos hk
  have hu := roundoff_pos
  have hu' := roundoff_le
  have hpos : (0 : ℚ) < (powerOfTen k).absolute := by linarith
  have hpow : (0 : ℚ) < 10 ^ k := by positivity
  constructor
  · have hfactor : (1 - 3 * roundoff) * (1 + roundoff) ≤ 1 - roundoff := by nlinarith
    rw [le_div_iff₀ hpos]
    calc (n : ℚ) / 10 ^ k * (1 - 3 * roundoff) * (powerOfTen k).absolute
        ≤ n / 10 ^ k * (1 - 3 * roundoff) * (10 ^ k * (1 + roundoff)) := by
          gcongr
          exact mul_nonneg (by positivity) (by linarith)
      _ = n * ((1 - 3 * roundoff) * (1 + roundoff)) := by
          field_simp
      _ ≤ n * (1 - roundoff) := by gcongr
      _ ≤ (ofNat n).absolute := hf
  · have hmax : (n : ℚ) ≤ 2 ^ (64 : ℤ) := by
      have : n ≤ 2 ^ 64 := hn'.trans (by decide)
      exact_mod_cast this
    rw [div_le_iff₀ hpos]
    calc (ofNat n).absolute ≤ n * (1 + roundoff) := hf'
      _ ≤ 2 ^ (64 : ℤ) * 2 := by
          gcongr
          linarith
      _ = 2 ^ (66 : ℤ) * (1 / 2) := by norm_num
      _ ≤ 2 ^ (66 : ℤ) * (powerOfTen k).absolute := by gcongr

theorem two_zpow_lt_limit {k : ℤ} (h : k ≤ 971) : (2 : ℚ) ^ k < limit := by
  calc (2 : ℚ) ^ k ≤ 2 ^ (971 : ℤ) := zpow_le_zpow_right₀ one_le_two h
    _ < limit := by
      unfold limit
      exact lt_mul_of_one_lt_left (by positivity) (by norm_num)

/-- A significand over a power of ten does not overflow, so dividing is one rounding. -/
theorem near_quotient {n k : Nat} (hn : 0 < n) (hn' : n ≤ maxSignificand) (hk : k ≤ 308) :
    ((ofNat n).div (powerOfTen k)).Near ((ofNat n).absolute / (powerOfTen k).absolute) := by
  have hp := powerOfTen_pos hk
  exact near_div (by linarith)
    ((quotient_bounds hn hn' hk).2.trans_lt (two_zpow_lt_limit (by norm_num)))

/-- A quotient by one power of ten is not rounded to zero. -/
theorem scaled_down {n k : Nat} (hn : 0 < n) (hn' : n ≤ maxSignificand) (hk : k ≤ 308) :
    ((ofNat n).div (powerOfTen k)).isFinite = true ∧
      0 < ((ofNat n).div (powerOfTen k)).absolute := by
  have hnear := near_quotient hn hn' hk
  refine ⟨hnear.finite, hnear.pos (le_trans ?_ (quotient_bounds hn hn' hk).1)⟩
  have hu := roundoff_le
  have hone : (1 : ℚ) ≤ n := by exact_mod_cast hn
  have hten : (10 : ℚ) ^ 308 ≤ 2 ^ (1024 : ℤ) := (limit_bounds.1.trans limit_lt).le
  calc (2 : ℚ) ^ (-1074 : ℤ) ≤ 2 ^ (-1025 : ℤ) := zpow_le_zpow_right₀ one_le_two (by norm_num)
    _ = 1 / 2 ^ (1024 : ℤ) * (1 / 2) := by
      rw [one_div, ← zpow_neg, one_div, ← zpow_sub_one₀ two_ne_zero]
      rfl
    _ ≤ 1 / 10 ^ k * (1 / 2) := by
      have hle : (10 : ℚ) ^ k ≤ 2 ^ (1024 : ℤ) :=
        (pow_le_pow_right₀ (by norm_num) hk).trans hten
      gcongr
    _ ≤ n / 10 ^ k * (1 - 3 * roundoff) := by
      gcongr
      linarith

/-- A quotient by two powers of ten is not rounded to zero, if without rounding it would be no
smaller than one and a half times the least positive double. -/
theorem scaled_twice {n k : Nat} (hn : 0 < n) (hn' : n ≤ maxSignificand) (hk : 1 ≤ k)
    (hk' : k ≤ 308) (h : 3 * 2 ^ (-1075 : ℤ) * 10 ^ k ≤ (n : ℚ) / 10 ^ 308) :
    (((ofNat n).div (powerOfTen 308)).div (powerOfTen k)).isFinite = true ∧
      0 < (((ofNat n).div (powerOfTen 308)).div (powerOfTen k)).absolute := by
  obtain ⟨hlow, hhigh⟩ := quotient_bounds hn hn' (le_refl 308)
  obtain ⟨-, hnear, hnear'⟩ := near_quotient hn hn' (le_refl 308)
  have hp := powerOfTen_pos hk'
  obtain ⟨-, hp'⟩ := powerOfTen_bounds hk'
  have hu := roundoff_pos
  have hu' := roundoff_le
  generalize (ofNat n).div (powerOfTen 308) = y at *
  generalize (ofNat n).absolute / (powerOfTen 308).absolute = v at *
  have hdouble : (2 : ℚ) ^ (-1074 : ℤ) = 2 * 2 ^ (-1075 : ℤ) := by
    rw [mul_comm, ← zpow_add_one₀ two_ne_zero]
    rfl
  have hm : (0 : ℚ) < 2 ^ (-1075 : ℤ) := by positivity
  have hm' : (2 : ℚ) ^ (-1075 : ℤ) ≤ 2 ^ (66 : ℤ) := zpow_le_zpow_right₀ one_le_two (by norm_num)
  have hbit : (2 : ℚ) ^ (-53 : ℤ) ≤ roundoff := zpow_le_zpow_right₀ one_le_two (by norm_num)
  have hten : (10 : ℚ) ≤ 10 ^ k := le_self_pow₀ (by norm_num) (by omega)
  have hpos : 0 < (powerOfTen k).absolute := by linarith
  have hv : 0 ≤ v := le_trans (mul_nonneg (by positivity) (by linarith)) hlow
  have hbelow : y.absolute / (powerOfTen k).absolute < limit := by
    refine lt_of_le_of_lt ?_ (two_zpow_lt_limit (k := 69) (by norm_num))
    have herror : v * 2 ^ (-53 : ℤ) ≤ 2 ^ (66 : ℤ) :=
      le_trans (mul_le_of_le_one_right hv (by linarith)) hhigh
    rw [div_le_iff₀ hpos]
    calc y.absolute ≤ 2 ^ (66 : ℤ) + (2 ^ (66 : ℤ) + 2 ^ (66 : ℤ)) :=
          hnear'.trans (add_le_add hhigh (add_le_add herror hm'))
      _ ≤ 2 ^ (69 : ℤ) * (1 / 2) := by norm_num
      _ ≤ 2 ^ (69 : ℤ) * (powerOfTen k).absolute := by gcongr
  have habove : (2 : ℚ) ^ (-1074 : ℤ) ≤ y.absolute / (powerOfTen k).absolute := by
    rw [le_div_iff₀ hpos, hdouble]
    generalize (2 : ℚ) ^ (-1075 : ℤ) = m at *
    generalize (2 : ℚ) ^ (-53 : ℤ) = b at *
    generalize (n : ℚ) / 10 ^ 308 = a at *
    have ha : 0 ≤ a := le_trans (by positivity) h
    calc 2 * m * (powerOfTen k).absolute ≤ 2 * m * (10 ^ k * (1 + roundoff)) := by gcongr
      _ = m * 10 ^ k * (2 + 2 * roundoff) := by ring
      _ ≤ m * 10 ^ k * (3 * (1 - 4 * roundoff) - 1 / 10) := by
        gcongr
        linarith
      _ = 3 * m * 10 ^ k * (1 - 4 * roundoff) - m * 10 ^ k / 10 := by ring
      _ ≤ a * (1 - 4 * roundoff) - m := by
        have : m ≤ m * 10 ^ k / 10 := by
          rw [le_div_iff₀ (by norm_num)]
          gcongr
        have : 3 * m * 10 ^ k * (1 - 4 * roundoff) ≤ a * (1 - 4 * roundoff) := by
          gcongr
          linarith
        linarith
      _ ≤ a * (1 - 3 * roundoff) * (1 - roundoff) - m := by
        have : a * (1 - 4 * roundoff) ≤ a * ((1 - 3 * roundoff) * (1 - roundoff)) := by
          gcongr
          nlinarith
        linarith
      _ ≤ v * (1 - b) - m := by
        have : a * (1 - 3 * roundoff) * (1 - roundoff) ≤ v * (1 - b) :=
          mul_le_mul hlow (by linarith) (by linarith) hv
        linarith
      _ ≤ y.absolute := by linarith
  exact ⟨(near_div hpos hbelow).finite, (near_div hpos hbelow).pos habove⟩

/-- **What is scaled is finite and not rounded to zero**, as long as without rounding it is neither
next to the limit nor next to zero. -/
theorem scaled?_spec {n : Nat} {e : Int} (hn : 0 < n) (hn' : n ≤ maxSignificand)
    (hlow : 3 * 2 ^ (-1075 : ℤ) ≤ (n : ℚ) * 10 ^ e)
    (hhigh : (n : ℚ) * 10 ^ e ≤ (2 ^ (53 : ℤ) - 13 / 2) * 2 ^ (971 : ℤ)) :
    ∃ y, scaled? n e = some y ∧ y.isFinite = true ∧ 0 < y.absolute := by
  have he : e ≤ 308 := by
    by_contra he
    have hone : (1 : ℚ) ≤ n := by exact_mod_cast hn
    have hbelow : (2 ^ (53 : ℤ) - 13 / 2) * 2 ^ (971 : ℤ) < limit := by
      unfold limit
      gcongr
      norm_num
    have habove : limit < n * 10 ^ e := by
      calc limit < 10 ^ 309 := limit_bounds.2
        _ ≤ 10 ^ e := by
          rw [← zpow_ofNat]
          exact zpow_le_zpow_right₀ (by norm_num) (by omega)
        _ ≤ n * 10 ^ e := le_mul_of_one_le_left (by positivity) hone
    exact absurd (habove.trans_le hhigh) hbelow.le.not_gt
  have he' : -616 ≤ e := by
    by_contra he'
    have hmax : (n : ℚ) ≤ 10 ^ (20 : ℤ) := by
      have : n ≤ 10 ^ 20 := hn'.trans (by decide)
      exact_mod_cast this
    have hten : (10 : ℚ) ^ (-597 : ℤ) ≤ 2 ^ (-1075 : ℤ) := by
      calc (10 : ℚ) ^ (-597 : ℤ) ≤ 8 ^ (-597 : ℤ) := by
            rw [zpow_neg, zpow_neg]
            exact inv_anti₀ (by positivity)
              (zpow_le_zpow_left₀ (by norm_num) (by norm_num) (by norm_num))
        _ = 2 ^ (-1791 : ℤ) := by
            rw [show (8 : ℚ) = 2 ^ (3 : ℤ) by norm_num, ← zpow_mul]
            rfl
        _ ≤ 2 ^ (-1075 : ℤ) := zpow_le_zpow_right₀ one_le_two (by norm_num)
    have hbelow : (n : ℚ) * 10 ^ e ≤ 2 ^ (-1075 : ℤ) := by
      calc (n : ℚ) * 10 ^ e ≤ 10 ^ (20 : ℤ) * 10 ^ (-617 : ℤ) := by
            gcongr
            · norm_num
            · omega
        _ = 10 ^ (-597 : ℤ) := by
            rw [← zpow_add₀ (by norm_num)]
            rfl
        _ ≤ 2 ^ (-1075 : ℤ) := hten
    have hpos : (0 : ℚ) < 2 ^ (-1075 : ℤ) := by positivity
    linarith
  rw [scaled?]
  dsimp only
  rw [if_neg (by omega)]
  by_cases hup : 0 ≤ e
  · have hpower : (10 : ℚ) ^ e = 10 ^ e.toNat := by
      rw [← zpow_natCast, Int.toNat_of_nonneg hup]
    rw [hpower] at hhigh
    obtain ⟨hfinite, hpos⟩ := scaled_up hn hn' (by omega) hhigh
    rw [if_pos hup, if_pos hfinite]
    exact ⟨_, rfl, hfinite, hpos⟩
  · rw [if_neg hup]
    by_cases hdown : -308 ≤ e
    · rw [if_pos hdown]
      exact ⟨_, rfl, scaled_down hn hn' (by omega)⟩
    · rw [if_neg hdown, if_pos he']
      refine ⟨_, rfl, scaled_twice hn hn' (by omega) (by omega) ?_⟩
      have hsplit : e = -(308 : Nat) + -((-e - 308).toNat : ℤ) := by omega
      have hpower : (10 : ℚ) ^ e = (10 ^ 308)⁻¹ * (10 ^ (-e - 308).toNat)⁻¹ := by
        rw [← zpow_natCast, ← zpow_neg, ← zpow_natCast, ← zpow_neg, ← zpow_add₀ (by norm_num)]
        exact congrArg _ hsplit
      rw [hpower, ← mul_assoc, ← div_eq_mul_inv, ← div_eq_mul_inv,
        le_div_iff₀ (by positivity)] at hlow
      exact hlow

/-! ## What is read -/

theorem reread_eq_withSign {y : Binary64} (h : scaled? x.written.1 x.written.2 = some y) :
    x.reread = y.withSign x.negative := by
  rw [reread, h]

/-- Reading back keeps the sign. -/
theorem negative_reread (x : Binary64) : x.reread.negative = x.negative := by
  unfold reread
  split
  · rfl
  · exact negative_ofMagnitude _ _

/-- The doubles next to the limit and next to zero are read as such. -/
theorem reread_extreme {m : Nat} (h : infinityMagnitude - 7 < m ∧ m < infinityMagnitude ∨ m = 1)
    (negative : Bool) : (ofMagnitude negative m).reread.isFinite = true ∧
      0 < (ofMagnitude negative m).reread.significand := by
  have hall : ∀ negative, ∀ m ∈ 1 :: (List.range 6).map (infinityMagnitude - 1 - ·),
      (ofMagnitude negative m).reread.isFinite = true ∧
        0 < (ofMagnitude negative m).reread.significand := by
    decide +kernel
  refine hall negative m ?_
  rw [List.mem_cons, List.mem_map]
  rcases h with ⟨hlow, hhigh⟩ | rfl
  · refine .inr ⟨infinityMagnitude - 1 - m, ?_, ?_⟩
    · rw [List.mem_range]
      omega
    · omega
  · exact .inl rfl

/-- A double that is neither next to the limit nor next to zero is written as a number that is not
either. -/
theorem written_bounds (hx : x.isFinite = true) (hpos : 0 < x.significand)
    (hlimit : x.magnitude ≤ infinityMagnitude - 7) (hone : x.magnitude ≠ 1) :
    3 * 2 ^ (-1075 : ℤ) ≤ (x.written.1 : ℚ) * 10 ^ x.written.2 ∧
      (x.written.1 : ℚ) * 10 ^ x.written.2 ≤ (2 ^ (53 : ℤ) - 13 / 2) * 2 ^ (971 : ℤ) := by
  obtain ⟨hlow, hhigh, -⟩ := (written_spec hpos).1.bounds hpos
  have hmagnitude := x.magnitude_eq
  have hpower := x.power_ge
  constructor
  · have htwo : 2 ≤ x.significand := by
      by_contra htwo
      have hsignificand : x.significand = 1 := by omega
      have hp : x.power = -1074 := by
        by_contra hp
        have := x.significand_ge (by omega)
        simp only [fractionCount] at this
        omega
      rw [hsignificand, hp] at hmagnitude
      exact hone hmagnitude
    have htwo : (2 : ℚ) ≤ x.significand := by exact_mod_cast htwo
    calc 3 * (2 : ℚ) ^ (-1075 : ℤ) = (2 - 1 / 2) * 2 ^ (-1074 : ℤ) := by
          rw [show (-1074 : ℤ) = -1075 + 1 by rfl, zpow_add_one₀ two_ne_zero]
          ring
      _ ≤ (x.significand - 1 / 2) * 2 ^ x.power := by
          gcongr
          · linarith
          · exact one_le_two
      _ ≤ x.written.1 * 10 ^ x.written.2 := hlow
  · refine hhigh.trans ?_
    have hp : x.power ≤ 971 := by
      have := x.exponent.isLt
      have : x.exponent.val ≠ 2047 := by simpa [isFinite] using hx
      unfold power
      omega
    rcases hp.lt_or_eq with hp | hp
    · have hsignificand : (x.significand : ℚ) + 1 ≤ 2 ^ (53 : ℤ) := by
        have : x.significand + 1 ≤ 2 ^ 53 := x.significand_lt
        exact_mod_cast this
      calc ((x.significand : ℚ) + 1 / 2) * 2 ^ x.power
          ≤ (2 ^ (53 : ℤ) - 1 / 2) * 2 ^ (970 : ℤ) := by
            gcongr
            · linarith
            · exact one_le_two
            · omega
        _ ≤ (2 ^ (53 : ℤ) - 13 / 2) * 2 * 2 ^ (970 : ℤ) := by
            gcongr
            norm_num
        _ = (2 ^ (53 : ℤ) - 13 / 2) * 2 ^ (971 : ℤ) := by
            rw [mul_assoc, ← zpow_one_add₀ two_ne_zero]
            rfl
    · have hsignificand : (x.significand : ℚ) + 7 ≤ 2 ^ (53 : ℤ) := by
        rw [hp] at hmagnitude
        simp only [infinityMagnitude, fractionCount] at hlimit hmagnitude
        have : x.significand + 7 ≤ 2 ^ 53 := by omega
        exact_mod_cast this
      rw [hp]
      gcongr
      linarith

/-- **The text of a finite double is read as a finite double**, and only a zero as a zero. -/
theorem reread_spec (hx : x.isFinite = true) (hpos : 0 < x.significand) :
    x.reread.isFinite = true ∧ 0 < x.reread.significand := by
  have hsame := ofMagnitude_magnitude hx x.negative
  have hlt : x.magnitude < infinityMagnitude := by
    have := x.exponent.isLt
    have : x.exponent.val ≠ 2047 := by simpa [isFinite] using hx
    have := x.fraction.isLt
    unfold magnitude infinityMagnitude
    simp only [fractionCount] at *
    omega
  by_cases hextreme : infinityMagnitude - 7 < x.magnitude ∨ x.magnitude = 1
  · have h := reread_extreme (hextreme.imp_left (⟨·, hlt⟩)) x.negative
    rwa [hsame] at h
  · rw [not_or, not_lt] at hextreme
    obtain ⟨hlow, hhigh⟩ := written_bounds hx hpos hextreme.1 hextreme.2
    obtain ⟨y, hy, hfinite, hypos⟩ :=
      scaled?_spec (written_spec hpos).2 (written_le hx) hlow hhigh
    rw [reread_eq_withSign hy]
    exact ⟨hfinite, significand_pos_iff.mpr (absolute_pos_iff.mp hypos)⟩

/-- **A finite double is read back as a finite one.** -/
theorem isFinite_reread (hx : x.isFinite = true) : x.reread.isFinite = true := by
  cases hzero : x.isZero with
  | true => rwa [reread_of_isZero hzero]
  | false => exact (reread_spec hx (isZero_eq_false_iff.mp hzero)).1

theorem absolute_pos_of_significand_pos (h : 0 < x.significand) : 0 < x.absolute :=
  absolute_pos_iff.mpr (significand_pos_iff.mp h)

/-- A number above zero is read as one. -/
theorem IsPositive.reread (h : x.IsPositive) : x.reread.IsPositive := by
  obtain ⟨hfinite, hvalue⟩ := h
  have hnonneg := x.absolute_nonneg
  have hnegative : x.negative = false := by
    by_contra hnegative
    rw [value, if_pos (by simpa using hnegative)] at hvalue
    linarith
  rw [value, hnegative, if_neg Bool.false_ne_true] at hvalue
  have hpos := significand_pos_iff.mpr (absolute_pos_iff.mp hvalue)
  obtain ⟨hfinite', hpos'⟩ := reread_spec hfinite hpos
  refine ⟨hfinite', ?_⟩
  rw [value, negative_reread, hnegative, if_neg Bool.false_ne_true]
  exact absolute_pos_of_significand_pos hpos'

/-- A number at zero or above is read as one. -/
theorem IsNonNegative.reread (h : x.IsNonNegative) : x.reread.IsNonNegative := by
  cases hzero : x.isZero with
  | true => rwa [reread_of_isZero hzero]
  | false =>
    have hpos := absolute_pos_of_significand_pos (isZero_eq_false_iff.mp hzero)
    have hne : x.value ≠ 0 := by
      rw [value]
      split
      · exact neg_ne_zero.mpr hpos.ne'
      · exact hpos.ne'
    have hpositive : x.IsPositive := ⟨h.1, lt_of_le_of_ne h.2 hne.symm⟩
    exact ⟨hpositive.reread.1, hpositive.reread.2.le⟩

end Binary64

end StatementPress
