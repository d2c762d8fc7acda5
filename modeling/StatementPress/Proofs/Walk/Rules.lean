import StatementPress.Proofs.Template.Invariants
import StatementPress.Template.Walk

/-!
# What passes a rule

Which values a rule for a field lets through, rule by rule: for the values that a template holds the
rules are its invariants.
-/

namespace StatementPress.Walk

variable {v : Option Json}

/-! ## Strings -/

/-- A name passes exactly if it is a string with characters. -/
theorem name_eq_none : Rule.name v = none ↔ ∃ s, v = some (.string s) ∧ s ≠ "" := by
  rcases v with _ | v
  · simp [Rule.name]
  · cases v <;> simp [Rule.name]

/-- An optional string passes exactly if it is a string or not there. -/
theorem optionalString_eq_none :
    Rule.optionalString v = none ↔ v = none ∨ ∃ s, v = some (.string s) := by
  rcases v with _ | v
  · simp [Rule.optionalString]
  · cases v <;> simp [Rule.optionalString]

theorem fontFamily_eq_none :
    fontFamily v = none ↔ v = none ∨ ∃ s, v = some (.string s) ∧ s ≠ "" := by
  rcases v with _ | v
  · simp [fontFamily]
  · have hname : fontFamily (some v) = Rule.name (some v) := rfl
    simp [hname, name_eq_none]

theorem optionalOneOf_eq_none {allowed : List String} :
    Rule.optionalOneOf allowed v = none ↔ v = none ∨ ∃ s ∈ allowed, v = some (.string s) := by
  rcases v with _ | v
  · simp [Rule.optionalOneOf]
  · cases v <;> simp [Rule.optionalOneOf]

/-- A choice passes exactly if it is one of the allowed strings. -/
theorem oneOf_eq_none {allowed : List String} :
    Rule.oneOf allowed v = none ↔ ∃ s ∈ allowed, v = some (.string s) := by
  rcases v with _ | v
  · simp [Rule.oneOf]
  · simp [Rule.oneOf, optionalOneOf_eq_none]

/-- The schema version passes exactly if it is the current one. -/
theorem version_eq_none : Rule.version v = none ↔ v = some (.string schemaVersion) := by
  rcases v with _ | v
  · simp [Rule.version]
  · cases v <;> simp [Rule.version]

theorem isHexDigit_iff {c : Char} : Text.isHexDigit c = true ↔
    ('0' ≤ c ∧ c ≤ '9') ∨ ('a' ≤ c ∧ c ≤ 'f') ∨ ('A' ≤ c ∧ c ≤ 'F') := by
  unfold Text.isHexDigit Text.hexValue?
  split_ifs <;> simp_all

/-- The check of colours is their definition. -/
theorem isColor_iff {s : String} : Rule.isColor s = true ↔ IsColor s := by
  unfold Rule.isColor IsColor
  split
  · rename_i digits hs
    simp [hs, isHexDigit_iff]
  · rename_i hother
    simp only [Bool.false_eq_true, false_iff, not_exists]
    exact fun digits h => hother digits h.1

/-- An optional colour passes exactly if it is a colour or not there. -/
theorem optionalColor_eq_none :
    Rule.optionalColor v = none ↔ v = none ∨ ∃ s, v = some (.string s) ∧ IsColor s := by
  rcases v with _ | v
  · simp [Rule.optionalColor]
  · cases v <;> simp [Rule.optionalColor, isColor_iff]

/-! ## Numbers -/

theorem optionalNumber_eq_none {bound : Rule.Bound} : Rule.optionalNumber bound v = none ↔
    v = none ∨ ∃ n, v = some (.number n) ∧ bound.fault n.toBinary64 = none := by
  rcases v with _ | v
  · simp [Rule.optionalNumber]
  · cases v <;> simp [Rule.optionalNumber]

/-- A number passes exactly if its double keeps to the bound. -/
theorem number_eq_none {bound : Rule.Bound} : Rule.number bound v = none ↔
    ∃ n, v = some (.number n) ∧ bound.fault n.toBinary64 = none := by
  rcases v with _ | v
  · simp [Rule.number]
  · simp [Rule.number, optionalNumber_eq_none]

/-- What a bound says of a number. -/
def Holds : Rule.Bound → Binary64 → Prop
  | .nonNegative, x => x.IsNonNegative
  | .positive, x => x.IsPositive

/-- A bound holds of finite doubles that it finds no fault with. -/
theorem holds_iff {bound : Rule.Bound} {x : Binary64} :
    Holds bound x ↔ x.isFinite = true ∧ bound.fault x = none := by
  cases bound with
  | nonNegative =>
    refine and_congr_right fun h => ?_
    rw [← Binary64.less_zero_iff h, Rule.Bound.fault]
    simp
  | positive =>
    refine and_congr_right fun h => ?_
    rw [← Binary64.lessOrEqual_zero_iff h, Rule.Bound.fault]
    simp

/-- A counter is a whole number from one on that fits in 32 bits. -/
theorem counter_eq_ok {n : Nat} :
    Rule.counter v = .ok n ↔ v = some (.ofNat n) ∧ 1 ≤ n ∧ n < UInt32.size := by
  constructor
  · intro h
    rcases v with _ | v
    · cases h
    · cases v with
      | number m =>
        cases m with
        | whole i =>
          rw [Rule.counter] at h
          split at h
          · cases h
          · split at h
            · cases h
            · cases h
              rename_i hlow hhigh
              have hi : (i.toNat : Int) = i := Int.toNat_of_nonneg (by omega)
              refine ⟨?_, by omega, by omega⟩
              rw [Json.ofNat, Json.ofInt, hi]
        | double x hx =>
          rw [Rule.counter] at h
          split at h <;> cases h
      | _ => cases h
  · rintro ⟨rfl, hlow, hhigh⟩
    rw [Json.ofNat, Json.ofInt, Rule.counter, if_neg (by omega), if_neg (by omega)]
    rfl

/-- A counter passes exactly if it is a whole number from one on that fits into thirty-two bits. -/
theorem counterRule_eq_none :
    counterRule v = none ↔ ∃ n, v = some (.ofNat n) ∧ 1 ≤ n ∧ n < UInt32.size := by
  simp only [← counter_eq_ok]
  unfold counterRule
  cases Rule.counter v <;> simp

end StatementPress.Walk
