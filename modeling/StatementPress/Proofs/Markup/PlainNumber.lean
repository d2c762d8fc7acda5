import StatementPress.Decimal

/-!
# Plain numbers

A number is plain if it is written with digits, perhaps with a point between them (`IsPlainNumber`):
it has no sign and no exponent.  Positional writing gives plain numbers only, however large or small
the decimal is (`Decimal.isPlainNumber_positional`).
-/

namespace StatementPress

namespace Markup

/-- **Decimal digits**, one at least. -/
structure AreDigits (cs : List Char) : Prop where
  nonempty : cs ≠ []
  digits : ∀ c ∈ cs, c.isDigit = true

/-- **A plain number**: digits, or digits on both sides of a point. -/
inductive IsPlainNumber : List Char → Prop
  | whole {digits : List Char} (h : AreDigits digits) : IsPlainNumber digits
  | fraction {digits more : List Char} (h : AreDigits digits) (hmore : AreDigits more) :
      IsPlainNumber (digits ++ '.' :: more)

namespace IsPlainNumber

/-- A plain number holds digits, and perhaps a point. -/
theorem isDigit_or_point {cs : List Char} (h : IsPlainNumber cs) {c : Char} (hc : c ∈ cs) :
    c.isDigit = true ∨ c = '.' := by
  cases h with
  | whole h => exact .inl (h.digits c hc)
  | fraction h hmore =>
    rcases List.mem_append.mp hc with hc | hc
    · exact .inl (h.digits c hc)
    · rcases List.mem_cons.mp hc with rfl | hc
      · exact .inr rfl
      · exact .inl (hmore.digits c hc)

/-- A plain number starts with a digit. -/
theorem isDigit_head {c : Char} {cs : List Char} (h : IsPlainNumber (c :: cs)) :
    c.isDigit = true := by
  generalize hnumber : c :: cs = number at h
  cases h with
  | whole h =>
    subst hnumber
    exact h.digits c List.mem_cons_self
  | @fraction digits more h _ =>
    cases digits with
    | nil => exact absurd rfl h.nonempty
    | cons d digits =>
      obtain ⟨rfl, -⟩ := List.cons.inj hnumber
      exact h.digits c List.mem_cons_self

end IsPlainNumber

end Markup

open Markup

/-! ## Positional writing -/

namespace Decimal

theorem areDigits_digits (d : Decimal) : AreDigits d.digits where
  nonempty := Nat.toDigits_ne_nil
  digits _ hc := Nat.isDigit_of_mem_toDigits (by decide) (by decide) hc

theorem isDigit_of_mem_zeros {n : Nat} {c : Char} (h : c ∈ List.replicate n '0') :
    c.isDigit = true := by
  rw [List.eq_of_mem_replicate h]
  rfl

/-- **Positional writing gives a plain number**, whether the point stands behind the digits, among
them or before them. -/
theorem isPlainNumber_positional (d : Decimal) : IsPlainNumber (d.positional []) := by
  obtain ⟨hne, hdigits⟩ := d.areDigits_digits
  rw [positional]
  by_cases hwhole : 0 ≤ d.exponent
  · rw [if_pos hwhole, List.append_nil]
    refine .whole ⟨List.append_ne_nil_of_left_ne_nil hne _, ?_⟩
    exact List.forall_mem_append.mpr ⟨hdigits, fun _ => isDigit_of_mem_zeros⟩
  · rw [if_neg hwhole]
    by_cases hpoint : 0 < d.point
    · rw [if_pos hpoint]
      -- the exponent is below zero, so the point stands before the last digit
      have hinside : d.point.toNat < d.digits.length := by
        unfold point at hpoint ⊢
        omega
      have hbefore : d.digits.take d.point.toNat ≠ [] := by
        rw [ne_eq, List.take_eq_nil_iff, not_or]
        exact ⟨by omega, hne⟩
      have hbehind : d.digits.drop d.point.toNat ≠ [] := by
        rw [ne_eq, List.drop_eq_nil_iff]
        omega
      exact .fraction ⟨hbefore, fun c hc => hdigits c (List.mem_of_mem_take hc)⟩
        ⟨hbehind, fun c hc => hdigits c (List.mem_of_mem_drop hc)⟩
    · rw [if_neg hpoint]
      have hzero : AreDigits ['0'] :=
        ⟨List.cons_ne_nil _ _, fun _ hc => isDigit_of_mem_zeros (n := 1) hc⟩
      refine .fraction hzero ⟨List.append_ne_nil_of_right_ne_nil _ hne, ?_⟩
      exact List.forall_mem_append.mpr ⟨fun _ => isDigit_of_mem_zeros, hdigits⟩

end Decimal

end StatementPress
