import StatementPress.Proofs.Binary64
import StatementPress.Proofs.Json.Normal

/-!
# Values that fit

The whole numbers of a value that was read from a text fit in 64 bits, with or without a sign.  Then
each of its numbers is a finite double.
-/

namespace StatementPress.Json

/-- A whole number that fits in 64 bits, with or without a sign. -/
def Number.Fits : Number → Prop
  | .whole i => -2 ^ 63 ≤ i ∧ i < 2 ^ 64
  | .double _ _ => True

mutual

/-- A value whose whole numbers fit in 64 bits. -/
def Fits : Json → Prop
  | .array items => FitsItems items
  | .object members => FitsMembers members
  | .number n => n.Fits
  | .null | .bool _ | .string _ => True

/-- Every item fits. -/
def FitsItems : List Json → Prop
  | [] => True
  | item :: rest => Fits item ∧ FitsItems rest

/-- Every member's value fits. -/
def FitsMembers : List (String × Json) → Prop
  | [] => True
  | (_, v) :: rest => Fits v ∧ FitsMembers rest

end

/-- A number that fits is no infinity when it is turned into a double. -/
theorem isFinite_of_fits {n : Number} (h : n.Fits) : n.toBinary64.isFinite = true := by
  cases n with
  | whole i =>
    obtain ⟨hlow, hhigh⟩ := h
    exact Binary64.isFinite_ofInt (by omega)
  | double x hx => exact hx

theorem fitsItems_iff {items : List Json} : FitsItems items ↔ ∀ item ∈ items, item.Fits := by
  induction items with
  | nil => simp [FitsItems]
  | cons item rest ih => simp [FitsItems, ih]

theorem fitsMembers_iff {members : List (String × Json)} :
    FitsMembers members ↔ ∀ m ∈ members, m.2.Fits := by
  induction members with
  | nil => simp [FitsMembers]
  | cons m rest ih => simp [FitsMembers, ih]

/-- The items of an array that fits fit. -/
theorem fits_of_mem_array {items : List Json} {v : Json} (h : (array items).Fits)
    (hv : v ∈ items) : v.Fits := fitsItems_iff.mp h v hv

/-- A member of a value that fits fits. -/
theorem fits_of_get? {obj v : Json} {key : String} (h : obj.Fits) (hv : obj.get? key = some v) :
    v.Fits := by
  cases obj with
  | object members => exact fitsMembers_iff.mp h _ (mem_of_lookup hv)
  | _ => cases hv

mutual

/-- Normalizing keeps numbers as they are. -/
theorem fits_normalize : ∀ {v : Json}, v.Fits → v.normalize.Fits
  | .array _, h => by
    rw [normalize, Fits]
    exact fitsItems_normalizeItems h
  | .object _, h => by
    rw [normalize, Fits, fitsMembers_iff]
    have hmembers := fitsMembers_iff.mp (fitsMembers_normalizeMembers h)
    exact fun m hm => hmembers m (mem_of_mem_sortMembers hm)
  | .null, _ => trivial
  | .bool _, _ => trivial
  | .number _, h => h
  | .string _, _ => trivial

theorem fitsItems_normalizeItems : ∀ {items : List Json}, FitsItems items →
    FitsItems (normalizeItems items)
  | [], _ => trivial
  | _ :: _, ⟨hitem, hrest⟩ => ⟨fits_normalize hitem, fitsItems_normalizeItems hrest⟩

theorem fitsMembers_normalizeMembers : ∀ {members : List (String × Json)}, FitsMembers members →
    FitsMembers (normalizeMembers members)
  | [], _ => trivial
  | (_, _) :: _, ⟨hv, hrest⟩ => ⟨fits_normalize hv, fitsMembers_normalizeMembers hrest⟩

end

end StatementPress.Json
