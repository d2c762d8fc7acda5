import StatementPress.Markup.Length
import StatementPress.Proofs.Binary64
import StatementPress.Proofs.Markup.PlainNumber

/-!
# Lengths in plain digits

An engine that reads a document takes a length only if it is plain (`IsPlainLength`): a plain number
and the unit.  There is no place for a sign, for an exponent or for a word.

The digits of a double are always written out in full, so its length is plain exactly if the double
is a finite number at zero or above (`isPlainLength_points_iff`).  Negative zero counts as zero,
because no sign is written for it.
-/

namespace StatementPress.Markup

/-- **A plain length**: a plain number of points. -/
def IsPlainLength (s : String) : Prop :=
  ∃ number, IsPlainNumber number ∧ s.toList = number ++ ['p', 't']

variable {x : Binary64}

/-- A length is plain exactly if its number is. -/
theorem isPlainLength_points_iff_number :
    IsPlainLength (points x) ↔ IsPlainNumber (plainNumber x).toList := by
  have hunit : "pt".toList = ['p', 't'] := rfl
  rw [IsPlainLength, points, String.toList_append, hunit]
  constructor
  · rintro ⟨number, hnumber, heq⟩
    rwa [List.append_cancel_right heq]
  · intro h
    exact ⟨_, h, rfl⟩

/-- **The length of a double is plain exactly if the double is finite and not below zero.** -/
theorem isPlainLength_points_iff : IsPlainLength (points x) ↔ x.IsNonNegative := by
  rw [isPlainLength_points_iff_number, Binary64.isNonNegative_iff, plainNumber]
  by_cases hnan : x.isNaN = true
  · -- a word is no number, and what is no number is not finite
    have hfinite : x.isFinite ≠ true := fun h => by
      simp [Binary64.not_isNaN_of_isFinite h] at hnan
    rw [if_pos hnan]
    refine iff_of_false (fun h => ?_) fun h => hfinite h.1
    exact absurd (IsPlainNumber.isDigit_head (c := 'N') h) (by decide)
  · rw [if_neg hnan]
    dsimp only
    cases hsign : x.negative && !x.isZero with
    | true =>
      rw [if_pos rfl, String.toList_append]
      refine iff_of_false (fun h => ?_) (by simp)
      exact absurd (IsPlainNumber.isDigit_head (c := '-') h) (by decide)
    | false =>
      rw [if_neg Bool.false_ne_true]
      by_cases hfinite : x.isFinite = true
      · rw [if_pos hfinite, String.toList_ofList]
        exact iff_of_true (Decimal.isPlainNumber_positional _) ⟨hfinite, rfl⟩
      · rw [if_neg hfinite]
        refine iff_of_false (fun h => ?_) fun h => hfinite h.1
        exact absurd (IsPlainNumber.isDigit_head (c := 'i') h) (by decide)

end StatementPress.Markup
