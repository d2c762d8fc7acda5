import Mathlib
import StatementPress.Json.Printer
import StatementPress.Json.Reader
import StatementPress.Proofs.Binary64.Shortest
import StatementPress.Proofs.Json.Fits

/-!
# Numerals that were written

A number that was written is read to its end, whatever may follow a value.  Whole numbers of 64 bits
come back.  A double comes back as what its digits and its exponent, as they were written, are
scaled to (`Binary64.reread`), which need not be the double itself.
-/

namespace StatementPress

/-! ## Doubles as they are written -/

namespace Binary64

/-- Whether a double is written without an exponent. -/
def isPlain (x : Binary64) : Bool :=
  x.isZero || (-5 < (x.shortest .even).point && (x.shortest .even).point ≤ 16)

/-- The significand and the decimal exponent in the text of a double.  A whole number without an
exponent is written with a zero after its point. -/
def written (x : Binary64) : Nat × Int :=
  let d := x.shortest .even
  if x.isPlain ∧ 0 ≤ d.exponent then (d.coefficient * 10 ^ (d.exponent.toNat + 1), -1)
  else (d.coefficient, d.exponent)

/-- **What the text of a double is read as.**  It is an infinity if the text is refused. -/
def reread (x : Binary64) : Binary64 :=
  match Json.Reader.scaled? x.written.1 x.written.2 with
  | some y => y.withSign x.negative
  | none => ofMagnitude x.negative infinityMagnitude

end Binary64

namespace Json.Reader

/-- Whether a text goes on as it may after a value. -/
def MayFollow (rest : List Char) : Prop := ∀ c ∈ rest.head?, c = ',' ∨ c = ']' ∨ c = '\x7d'

theorem mayFollow_nil : MayFollow [] := fun _ h => nomatch h

theorem MayFollow.startsWithDigit {rest : List Char} (h : MayFollow rest) :
    startsWithDigit rest = false := by
  cases rest with
  | nil => rfl
  | cons c rest => rcases h c rfl with rfl | rfl | rfl <;> rfl

/-! ## Steps -/

/-- What a reader has left is given to the next one. -/
theorem get_bind {α : Type} (f : List Char → Reader α) (s : List Char) :
    ((get : Reader (List Char)) >>= f) s = f s s := rfl

theorem set_bind {α : Type} (f : PUnit → Reader α) (rest s : List Char) :
    ((set rest : Reader PUnit) >>= f) s = f ⟨⟩ rest := rfl

/-- After a reader that succeeds the next one goes on with the rest. -/
theorem bind_of_ok {α β : Type} {r : Reader α} {f : α → Reader β} {s s' : List Char} {a : α}
    (h : r s = .ok (a, s')) : (r >>= f) s = f a s' := by
  change (r s >>= fun p => f p.1 p.2) = _
  rw [h]
  rfl

/-! ## Digits -/

/-- Further digits make no number smaller. -/
theorem le_ofDigitChars (n : Nat) (ds : List Char) : n ≤ Nat.ofDigitChars 10 ds n := by
  rw [Nat.ofDigitChars_eq_ofDigitChars_zero]
  exact le_add_right (Nat.le_mul_of_pos_left _ (by positivity))

/-- Digits are read as the number that they make, as long as it stays within the limit. -/
theorem takeDigits_append {limit n : Nat} {ds rest : List Char} (read : Nat)
    (hds : ∀ c ∈ ds, c.isDigit = true) (hlimit : Nat.ofDigitChars 10 ds n ≤ limit)
    (hrest : startsWithDigit rest = false) :
    takeDigits limit n read (ds ++ rest) =
      (Nat.ofDigitChars 10 ds n, read + ds.length, rest) := by
  induction ds generalizing n read with
  | nil =>
    cases rest with
    | nil => rfl
    | cons c rest =>
      have hc : c.isDigit = false := hrest
      simp [takeDigits, hc]
  | cons c ds ih =>
    obtain ⟨hc, hds⟩ := List.forall_mem_cons.mp hds
    rw [Nat.ofDigitChars_cons] at hlimit ⊢
    have hnext : n * 10 + digitValue c = 10 * n + (c.toNat - '0'.toNat) := by
      rw [digitValue, Nat.mul_comm]
    -- what is read so far is below what is read in the end
    have hle : 10 * n + (c.toNat - '0'.toNat) ≤ limit := (le_ofDigitChars _ ds).trans hlimit
    rw [List.cons_append, takeDigits, hnext, if_pos ⟨hc, hle⟩, ih (read + 1) hds hlimit]
    simp
    omega

/-- Digits are not in front of what does not start with one. -/
theorem takeWhile_isDigit_eq_nil {rest : List Char} (h : startsWithDigit rest = false) :
    rest.takeWhile Char.isDigit = [] := by
  cases rest with
  | nil => rfl
  | cons c rest =>
    have hc : c.isDigit = false := h
    rw [List.takeWhile_cons, hc]
    rfl

variable {negative : Bool} {n : Nat} {rest ds : List Char}

theorem afterWhole_point : afterWhole negative n ('.' :: rest) = fractionPart negative n 0 rest :=
  rfl

theorem afterWhole_exponent :
    afterWhole negative n ('e' :: rest) = exponentPart negative n 0 rest := rfl

theorem exponentPart?_exponent (e : Int) :
    exponentPart? negative n e ('e' :: rest) = exponentPart negative n e rest := rfl

/-- Without an exponent the numeral ends here. -/
theorem exponentPart?_of_mayFollow (e : Int) (h : MayFollow rest) :
    exponentPart? negative n e rest = doubleOf negative n e rest := by
  cases rest with
  | nil => rfl
  | cons c rest => rcases h c rfl with rfl | rfl | rfl <;> rfl

/-- With neither point nor exponent the numeral is a whole number. -/
theorem afterWhole_of_mayFollow (h : MayFollow rest) :
    afterWhole negative n rest = wholeOf negative n rest := by
  cases rest with
  | nil => rfl
  | cons c rest => rcases h c rfl with rfl | rfl | rfl <;> rfl

/-- An exponent with its sign. -/
theorem exponentPart_append (start : Int) (down : Bool) (hne : ds ≠ [])
    (hds : ∀ c ∈ ds, c.isDigit = true) (hlimit : Nat.ofDigitChars 10 ds 0 ≤ maxExponent)
    (h : MayFollow rest) :
    exponentPart negative n start ((if down then '-' else '+') :: (ds ++ rest)) =
      doubleOf negative n (if down then start - Nat.ofDigitChars 10 ds 0
        else start + Nat.ofDigitChars 10 ds 0) rest := by
  have htake := takeDigits_append 0 hds hlimit h.startsWithDigit
  obtain ⟨c, ds, rfl⟩ := List.exists_cons_of_ne_nil hne
  have hc : c.isDigit = true := hds c List.mem_cons_self
  rw [exponentPart, get_bind]
  cases down
  all_goals
    simp only [List.cons_append, hc, Bool.not_true, Bool.false_eq_true, if_true, if_false]
    rw [List.cons_append] at htake
    rw [htake]
    simp only [h.startsWithDigit, Bool.false_eq_true, if_false, set_bind]

/-- A fraction behind its point. -/
theorem fractionPart_append (start : Nat) (hne : ds ≠ []) (hds : ∀ c ∈ ds, c.isDigit = true)
    (hlimit : Nat.ofDigitChars 10 ds n ≤ maxSignificand) (hrest : startsWithDigit rest = false) :
    fractionPart negative n start (ds ++ rest) =
      exponentPart? negative (Nat.ofDigitChars 10 ds n) (start - ds.length) rest := by
  have htake := takeDigits_append 0 hds hlimit hrest
  have hlength : 0 + ds.length ≠ 0 := by simpa using hne
  rw [fractionPart, get_bind, htake]
  dsimp only
  rw [hrest, if_neg Bool.false_ne_true, if_neg hlength, Nat.zero_add, set_bind]

/-- The whole digits of a numeral, the first of them not zero. -/
theorem numeral_append {c : Char} (hc : c ≠ '0') (hds : ∀ d ∈ c :: ds, d.isDigit = true)
    (hlimit : Nat.ofDigitChars 10 (c :: ds) 0 ≤ maxSignificand)
    (hrest : startsWithDigit rest = false) :
    numeral negative (c :: ds ++ rest) =
      afterWhole negative (Nat.ofDigitChars 10 (c :: ds) 0) rest := by
  obtain ⟨hdigit, hds⟩ := List.forall_mem_cons.mp hds
  rw [Nat.ofDigitChars_cons, Nat.mul_zero, Nat.zero_add] at hlimit ⊢
  have htake := takeDigits_append 0 hds hlimit hrest
  have hnil := takeWhile_isDigit_eq_nil hrest
  rw [numeral, get_bind]
  simp only [List.cons_append, hc, hdigit, if_true, if_false, digitValue, htake, hnil, set_bind]
  rfl

/-- A zero in front is a numeral by itself. -/
theorem numeral_zero (hrest : startsWithDigit rest = false) :
    numeral negative ('0' :: rest) = afterWhole negative 0 rest := by
  rw [numeral, get_bind]
  simp only [hrest, if_true, Bool.false_eq_true, if_false, set_bind]

/-! ## Whole numbers -/

theorem isDigit_of_mem_toDigits {n : Nat} : ∀ c ∈ Nat.toDigits 10 n, c.isDigit = true :=
  fun _ => Nat.isDigit_of_mem_toDigits (by decide) (by decide)

/-- The digits of a positive number do not start with zero. -/
theorem exists_toDigits_eq_cons {n : Nat} (hn : 0 < n) :
    ∃ c ds, Nat.toDigits 10 n = c :: ds ∧ c ≠ '0' := by
  induction n using Nat.strongRecOn with
  | ind n ih =>
    by_cases hlt : n < 10
    · refine ⟨_, [], Nat.toDigits_of_lt_base hlt, ?_⟩
      rw [Ne, Nat.digitChar_eq_zero]
      omega
    · obtain ⟨c, ds, hds, hc⟩ := ih (n / 10) (by omega) (by omega)
      refine ⟨c, ds ++ [(n % 10).digitChar], ?_, hc⟩
      rw [Nat.toDigits_of_base_le (by decide) (by omega), hds, List.cons_append]

/-- The digits of a natural number. -/
theorem numeral_toDigits (hlimit : n ≤ maxSignificand) (hrest : startsWithDigit rest = false) :
    numeral negative (Nat.toDigits 10 n ++ rest) = afterWhole negative n rest := by
  rcases Nat.eq_zero_or_pos n with rfl | hn
  · exact numeral_zero hrest
  · obtain ⟨c, ds, hds, hc⟩ := exists_toDigits_eq_cons hn
    have hdigits := isDigit_of_mem_toDigits (n := n)
    have hvalue := Nat.ofDigitChars_ten_toDigits (n := n)
    rw [hds] at hdigits hvalue ⊢
    rw [numeral_append hc hdigits (hvalue ▸ hlimit) hrest, hvalue]

/-- A minus sign is read as the sign, and a digit as none. -/
theorem number_signed {body : List Char} (hbody : startsWithDigit body = true) :
    number ((if negative then '-' :: body else body) ++ rest) =
      numeral negative (body ++ rest) := by
  cases negative with
  | true => rfl
  | false =>
    cases body with
    | nil => cases hbody
    | cons c body =>
      have hc : c.isDigit = true := hbody
      have hne : c ≠ '-' := by
        rintro rfl
        exact absurd hc (by decide)
      rw [number, get_bind, if_neg Bool.false_ne_true, List.cons_append]
      simp [hne]

theorem startsWithDigit_toDigits (n : Nat) :
    startsWithDigit (Nat.toDigits 10 n ++ rest) = true := by
  obtain ⟨c, ds, hds⟩ := List.exists_cons_of_ne_nil (Nat.toDigits_ne_nil (n := n) (b := 10))
  have hc : c.isDigit = true := isDigit_of_mem_toDigits c (hds ▸ List.mem_cons_self)
  rw [hds]
  exact hc

/-- A whole number is written as its digits, with a minus sign in front if it is negative. -/
theorem toList_wholeText (i : Int) : (Number.whole i).text.toList =
    if decide (i < 0) = true then '-' :: Nat.toDigits 10 i.natAbs
    else Nat.toDigits 10 i.natAbs := by
  rw [Number.text, Text.signedDecimal, Text.decimal]
  by_cases hi : i < 0 <;> simp [hi]

/-- **A whole number that fits is read back.** -/
theorem number_whole {i : Int} (hi : (Number.whole i).Fits) (h : MayFollow rest) :
    number ((Number.whole i).text.toList ++ rest) = .ok (.whole i, rest) := by
  obtain ⟨hlow, hhigh⟩ := hi
  have hmax : maxSignificand = 2 ^ 64 - 1 := rfl
  have hstart : startsWithDigit (Nat.toDigits 10 i.natAbs ++ []) = true :=
    startsWithDigit_toDigits i.natAbs
  rw [List.append_nil] at hstart
  rw [toList_wholeText, number_signed hstart, numeral_toDigits (by omega) h.startsWithDigit,
    afterWhole_of_mayFollow h, wholeOf]
  by_cases hi : i < 0
  · have hhalf : UInt64.size / 2 = 2 ^ 63 := rfl
    have hsign : decide (i < 0) = true := decide_eq_true hi
    have hvalue : -(i.natAbs : Int) = i := by omega
    rw [hsign, if_neg (by simp), if_neg (by omega), hvalue]
    rfl
  · have hsign : decide (i < 0) = false := decide_eq_false hi
    have hvalue : (i.natAbs : Int) = i := by omega
    rw [hsign, if_pos (by simp), hvalue]
    rfl

/-! ## Doubles -/

variable {d : Decimal}

/-- A decimal without an exponent whose last digit stands before the point. -/
theorem numeral_whole_positional (hpos : 0 < d.coefficient) (he : 0 ≤ d.exponent)
    (hlimit : d.coefficient * 10 ^ (d.exponent.toNat + 1) ≤ maxSignificand) (h : MayFollow rest) :
    numeral negative (d.positional ['.', '0'] ++ rest) =
      doubleOf negative (d.coefficient * 10 ^ (d.exponent.toNat + 1)) (-1) rest := by
  obtain ⟨c, ds, hds, hc⟩ := exists_toDigits_eq_cons hpos
  have hall : ∀ d' ∈ c :: (ds ++ List.replicate d.exponent.toNat '0'), d'.isDigit = true := by
    rw [← List.cons_append, ← hds, List.forall_mem_append]
    refine ⟨isDigit_of_mem_toDigits, fun d' hd' => ?_⟩
    rw [List.eq_of_mem_replicate hd']
    rfl
  have hvalue : Nat.ofDigitChars 10 (c :: (ds ++ List.replicate d.exponent.toNat '0')) 0 =
      d.coefficient * 10 ^ d.exponent.toNat := by
    rw [← List.cons_append, ← hds, Nat.ofDigitChars_append, Nat.ofDigitChars_ten_toDigits,
      Nat.ofDigitChars_replicate_zero, Nat.mul_comm]
  have hzero : Nat.ofDigitChars 10 ['0'] (d.coefficient * 10 ^ d.exponent.toNat) =
      d.coefficient * 10 ^ (d.exponent.toNat + 1) := by
    rw [Nat.ofDigitChars_cons, Nat.ofDigitChars_nil, pow_succ]
    simp
    ring
  have hle : d.coefficient * 10 ^ d.exponent.toNat ≤ maxSignificand :=
    (hzero ▸ le_ofDigitChars _ ['0']).trans hlimit
  have htext : d.positional ['.', '0'] ++ rest =
      c :: (ds ++ List.replicate d.exponent.toNat '0') ++ '.' :: (['0'] ++ rest) := by
    rw [Decimal.positional, if_pos he, Decimal.digits, hds]
    simp
  rw [htext, numeral_append hc hall (hvalue ▸ hle) rfl, hvalue, afterWhole_point,
    fractionPart_append 0 (by simp) (by simp) (hzero ▸ hlimit) h.startsWithDigit, hzero,
    exponentPart?_of_mayFollow _ h]
  rfl

/-- A decimal without an exponent, with digits behind the point. -/
theorem numeral_fraction_positional (hpos : 0 < d.coefficient) (he : d.exponent < 0)
    (hlimit : d.coefficient ≤ maxSignificand) (whole : List Char) (h : MayFollow rest) :
    numeral negative (d.positional whole ++ rest) =
      doubleOf negative d.coefficient d.exponent rest := by
  obtain ⟨c, ds, hds, hc⟩ := exists_toDigits_eq_cons hpos
  have hdigits := isDigit_of_mem_toDigits (n := d.coefficient)
  have hvalue := Nat.ofDigitChars_ten_toDigits (n := d.coefficient)
  rw [Decimal.positional, if_neg (by omega)]
  by_cases hpoint : 0 < d.point
  · -- some digits stand before the point
    rw [if_pos hpoint]
    unfold Decimal.point Decimal.digits at *
    obtain ⟨k, hk⟩ : ∃ k : Nat, ((Nat.toDigits 10 d.coefficient).length : Int) + d.exponent =
        (k + 1 : Nat) := ⟨(((Nat.toDigits 10 d.coefficient).length : Int) + d.exponent - 1).toNat,
      by omega⟩
    rw [hk, Int.toNat_natCast]
    generalize Nat.toDigits 10 d.coefficient = digits at *
    subst hds
    rw [List.take_succ_cons, List.drop_succ_cons]
    have hlength : (ds.drop k).length = (-d.exponent).toNat := by
      rw [List.length_drop]
      rw [List.length_cons] at hk
      omega
    have hsplit : Nat.ofDigitChars 10 (ds.drop k) (Nat.ofDigitChars 10 (c :: ds.take k) 0) =
        d.coefficient := by
      rw [← Nat.ofDigitChars_append, List.cons_append, List.take_append_drop, hvalue]
    have hwhole : ∀ d' ∈ c :: ds.take k, d'.isDigit = true := fun d' hd' =>
      hdigits d' (List.mem_of_mem_take (i := k + 1) (by simpa using hd'))
    have hfraction : ∀ d' ∈ ds.drop k, d'.isDigit = true := fun d' hd' =>
      hdigits d' (List.mem_cons_of_mem c (List.mem_of_mem_drop hd'))
    have hne : ds.drop k ≠ [] := by
      rw [← List.length_pos_iff, hlength]
      omega
    have hexponent : ((0 : Nat) : Int) - (ds.drop k).length = d.exponent := by
      rw [hlength]
      omega
    have htext : c :: ds.take k ++ '.' :: ds.drop k ++ rest =
        c :: ds.take k ++ '.' :: (ds.drop k ++ rest) := by simp
    rw [htext, numeral_append hc hwhole ((hsplit ▸ le_ofDigitChars _ _).trans hlimit) rfl,
      afterWhole_point, fractionPart_append 0 hne hfraction (hsplit ▸ hlimit) h.startsWithDigit,
      hsplit, hexponent, exponentPart?_of_mayFollow _ h]
  · -- zeros stand before the digits
    rw [if_neg hpoint]
    have hall : ∀ d' ∈ List.replicate (-d.point).toNat '0' ++ d.digits, d'.isDigit = true := by
      rw [List.forall_mem_append]
      refine ⟨fun d' hd' => ?_, hdigits⟩
      rw [List.eq_of_mem_replicate hd']
      rfl
    have hvalue' : Nat.ofDigitChars 10 (List.replicate (-d.point).toNat '0' ++ d.digits) 0 =
        d.coefficient := by
      rw [Nat.ofDigitChars_append, Nat.ofDigitChars_replicate_zero, Nat.mul_zero]
      exact hvalue
    have hexponent : ((0 : Nat) : Int) -
        (List.replicate (-d.point).toNat '0' ++ d.digits).length = d.exponent := by
      rw [List.length_append, List.length_replicate]
      unfold Decimal.point at *
      omega
    have hne : List.replicate (-d.point).toNat '0' ++ d.digits ≠ [] := by
      rw [Decimal.digits, hds]
      simp
    have htext : '0' :: '.' :: (List.replicate (-d.point).toNat '0' ++ d.digits) ++ rest =
        '0' :: '.' :: (List.replicate (-d.point).toNat '0' ++ d.digits ++ rest) := rfl
    rw [htext, numeral_zero rfl, afterWhole_point,
      fractionPart_append 0 hne hall (hvalue' ▸ hlimit) h.startsWithDigit, hvalue', hexponent,
      exponentPart?_of_mayFollow _ h]

/-- A decimal with an exponent. -/
theorem numeral_scientific (hpos : 0 < d.coefficient) (hlimit : d.coefficient ≤ maxSignificand)
    (hexponent : (d.point - 1).natAbs ≤ maxExponent) (h : MayFollow rest) :
    numeral negative (d.scientific ++ rest) = doubleOf negative d.coefficient d.exponent rest := by
  obtain ⟨c, ds, hds, hc⟩ := exists_toDigits_eq_cons hpos
  have hdigits := isDigit_of_mem_toDigits (n := d.coefficient)
  have hvalue := Nat.ofDigitChars_ten_toDigits (n := d.coefficient)
  have hpoint : d.point - 1 = ds.length + d.exponent := by
    rw [Decimal.point, Decimal.digits, hds, List.length_cons]
    push_cast
    ring
  have hscale : ∀ start : Int, start = -ds.length →
      (if decide (d.point - 1 < 0) = true then
        start - Nat.ofDigitChars 10 (Nat.toDigits 10 (d.point - 1).natAbs) 0
      else start + Nat.ofDigitChars 10 (Nat.toDigits 10 (d.point - 1).natAbs) 0) = d.exponent := by
    intro start hstart
    rw [Nat.ofDigitChars_ten_toDigits]
    by_cases hneg : d.point - 1 < 0
    · rw [if_pos (decide_eq_true hneg)]
      omega
    · rw [if_neg (by simpa using hneg)]
      omega
  have hsign : (if d.point - 1 < 0 then '-' else '+') =
      (if decide (d.point - 1 < 0) = true then '-' else '+') := by simp
  have hlast := fun start => @exponentPart_append negative d.coefficient rest _ start
    (decide (d.point - 1 < 0)) Nat.toDigits_ne_nil
    (isDigit_of_mem_toDigits (n := (d.point - 1).natAbs))
    (Nat.ofDigitChars_ten_toDigits.trans_le hexponent) h
  rw [Decimal.scientific, Decimal.digits, hds]
  rw [hds] at hdigits hvalue
  cases ds with
  | nil =>
    have htext : [c] ++ ([] : List Char) ++ 'e' ::
        (if d.point - 1 < 0 then '-' else '+') :: Nat.toDigits 10 (d.point - 1).natAbs ++ rest =
        [c] ++ 'e' :: (if decide (d.point - 1 < 0) = true then '-' else '+') ::
          (Nat.toDigits 10 (d.point - 1).natAbs ++ rest) := by
      rw [hsign]
      simp
    refine (congrArg (numeral negative) htext).trans ?_
    rw [numeral_append hc hdigits (hvalue ▸ hlimit) rfl, hvalue, afterWhole_exponent, hlast,
      hscale 0 rfl]
  | cons c' ds =>
    have htext : [c] ++ '.' :: c' :: ds ++ 'e' ::
        (if d.point - 1 < 0 then '-' else '+') :: Nat.toDigits 10 (d.point - 1).natAbs ++ rest =
        [c] ++ '.' :: (c' :: ds ++ 'e' :: (if decide (d.point - 1 < 0) = true then '-' else '+') ::
          (Nat.toDigits 10 (d.point - 1).natAbs ++ rest)) := by
      rw [hsign]
      simp
    have hsplit : Nat.ofDigitChars 10 (c' :: ds) (Nat.ofDigitChars 10 [c] 0) = d.coefficient := by
      rw [← Nat.ofDigitChars_append, List.singleton_append, hvalue]
    refine (congrArg (numeral negative) htext).trans ?_
    rw [numeral_append hc (by simpa using hdigits c List.mem_cons_self)
      ((hsplit ▸ le_ofDigitChars _ _).trans hlimit) rfl, afterWhole_point,
      fractionPart_append 0 (by simp) (fun d' hd' => hdigits d' (List.mem_cons_of_mem c hd'))
        (hsplit ▸ hlimit) rfl, hsplit, exponentPart?_exponent, hlast, hscale _ (by simp)]

/-- In positional form a decimal starts with a digit. -/
theorem startsWithDigit_positional (whole : List Char) :
    startsWithDigit (d.positional whole) = true := by
  rw [Decimal.positional]
  split
  · rw [List.append_assoc]
    exact startsWithDigit_toDigits _
  · split
    · rename_i hpoint
      obtain ⟨k, hk⟩ : ∃ k, d.point.toNat = k + 1 := ⟨d.point.toNat - 1, by omega⟩
      obtain ⟨c, ds, hds⟩ := List.exists_cons_of_ne_nil
        (Nat.toDigits_ne_nil (n := d.coefficient) (b := 10))
      rw [hk, Decimal.digits, hds]
      exact isDigit_of_mem_toDigits c (hds ▸ List.mem_cons_self)
    · rfl

/-- In scientific form it does too. -/
theorem startsWithDigit_scientific : startsWithDigit d.scientific = true := by
  obtain ⟨c, ds, hds⟩ := List.exists_cons_of_ne_nil
    (Nat.toDigits_ne_nil (n := d.coefficient) (b := 10))
  rw [Decimal.scientific, Decimal.digits, hds]
  exact isDigit_of_mem_toDigits c (hds ▸ List.mem_cons_self)

/-- The digits of a decimal with a small point make a number that fits. -/
theorem whole_le_maxSignificand (he : 0 ≤ d.exponent) (hpoint : d.point ≤ 16) :
    d.coefficient * 10 ^ (d.exponent.toNat + 1) ≤ maxSignificand := by
  rw [Decimal.point, Decimal.digits] at hpoint
  have hlt : d.coefficient < 10 ^ (Nat.toDigits 10 d.coefficient).length :=
    (Nat.length_toDigits_le_iff (by decide) Nat.length_toDigits_pos).mp le_rfl
  calc d.coefficient * 10 ^ (d.exponent.toNat + 1)
      ≤ 10 ^ (Nat.toDigits 10 d.coefficient).length * 10 ^ (d.exponent.toNat + 1) :=
        Nat.mul_le_mul_right _ hlt.le
    _ = 10 ^ ((Nat.toDigits 10 d.coefficient).length + (d.exponent.toNat + 1)) :=
        (Nat.pow_add _ _ _).symm
    _ ≤ 10 ^ 17 := Nat.pow_le_pow_right (by decide) (by omega)
    _ ≤ maxSignificand := by decide

/-- The text of a number starts with a sign or a digit. -/
theorem exists_numberText_eq_cons (n : Number) :
    ∃ c cs, n.text.toList = c :: cs ∧ (c = '-' ∨ c.isDigit = true) := by
  have hsigned : ∀ (negative : Bool) {body : List Char}, startsWithDigit body = true →
      ∃ c cs, (if negative then '-' :: body else body) = c :: cs ∧
        (c = '-' ∨ c.isDigit = true) := by
    intro negative body hbody
    cases body with
    | nil => cases hbody
    | cons c body =>
      cases negative with
      | true => exact ⟨_, _, rfl, .inl rfl⟩
      | false => exact ⟨_, _, rfl, .inr hbody⟩
  cases n with
  | whole i =>
    have hstart : startsWithDigit (Nat.toDigits 10 i.natAbs ++ []) = true :=
      startsWithDigit_toDigits i.natAbs
    rw [List.append_nil] at hstart
    rw [toList_wholeText]
    exact hsigned _ hstart
  | double x hx =>
    rw [Number.text, doubleText, String.toList_ofList]
    refine hsigned x.negative ?_
    split
    · exact startsWithDigit_positional _
    · exact startsWithDigit_scientific

variable {x : Binary64}

/-- **The text of a double is read to its end**, and what is read is made of the parts as they are
written. -/
theorem number_doubleText (hx : x.isFinite = true) (h : MayFollow rest) :
    number ((doubleText x).toList ++ rest) =
      doubleOf x.negative x.written.1 x.written.2 rest := by
  rw [doubleText, String.toList_ofList, Binary64.written, ← Binary64.isPlain]
  cases hzero : x.isZero with
  | true =>
    have hplain : x.isPlain = true := by rw [Binary64.isPlain, hzero, Bool.true_or]
    rw [Binary64.shortest_of_isZero hzero, hplain, if_pos rfl,
      number_signed (startsWithDigit_positional _)]
    change numeral x.negative ('0' :: '.' :: (['0'] ++ rest)) = _
    rw [numeral_zero rfl, afterWhole_point,
      fractionPart_append 0 (by simp) (by simp) (by decide) h.startsWithDigit,
      exponentPart?_of_mayFollow _ h]
    rfl
  | false =>
    have hm := Binary64.isZero_eq_false_iff.mp hzero
    obtain ⟨-, hpos, -⟩ := Binary64.shortest_spec hm .even
    obtain ⟨hcoefficient, hlow, hhigh⟩ := Binary64.shortest_bounds hx hm .even
    have hplain : x.isPlain = true → (x.shortest .even).point ≤ 16 := by
      rw [Binary64.isPlain, hzero]
      simp
    generalize x.shortest .even = d at *
    have hlimit : d.coefficient ≤ maxSignificand := hcoefficient.le.trans (by decide)
    cases hbody : x.isPlain with
    | true =>
      rw [if_pos rfl, number_signed (startsWithDigit_positional _)]
      by_cases he : 0 ≤ d.exponent
      · rw [if_pos ⟨rfl, he⟩]
        exact numeral_whole_positional hpos he (whole_le_maxSignificand he (hplain hbody)) h
      · rw [if_neg fun hwhole => he hwhole.2]
        exact numeral_fraction_positional hpos (by omega) hlimit _ h
    | false =>
      have hexponent : (d.point - 1).natAbs ≤ maxExponent := by
        have hlength : (Nat.toDigits 10 d.coefficient).length ≤ 18 :=
          (Nat.length_toDigits_le_iff (by decide) (by decide)).mpr (by omega)
        have hmax : maxExponent = 2147483647 := rfl
        rw [Decimal.point, Decimal.digits]
        omega
      rw [if_neg Bool.false_ne_true, number_signed startsWithDigit_scientific,
        if_neg fun hwhole => Bool.false_ne_true hwhole.1]
      exact numeral_scientific hpos hlimit hexponent h

/-- What is scaled is finite or refused, so the text of a double is refused exactly if what it would
be read as is not finite. -/
theorem toOption_doubleOf_written (rest : List Char) :
    (doubleOf x.negative x.written.1 x.written.2 rest).toOption =
      if h : x.reread.isFinite = true then some (.double x.reread h, rest) else none := by
  unfold doubleOf Binary64.reread
  cases scaled? x.written.1 x.written.2 with
  | none =>
    have hinfinite : ∀ negative,
        (Binary64.ofMagnitude negative Binary64.infinityMagnitude).isFinite = false := by decide
    rw [dif_neg (by simp [hinfinite])]
    rfl
  | some y =>
    dsimp only
    split
    · rfl
    · rfl

end Json.Reader

end StatementPress
