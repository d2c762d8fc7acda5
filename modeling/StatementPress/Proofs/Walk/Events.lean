import StatementPress.Proofs.Outcome
import StatementPress.Template.Validate

/-!
# Events without findings

A walk is clean if none of its events is a finding.  Whether a walk over a composed value is clean
comes down to its parts, and in the end to single fields.
-/

namespace StatementPress.Walk

open Finding (join item)

variable {xs ys : List Event} {obj : Json} {base path key : String}

/-! ## Clean events -/

/-- Events none of which is a finding. -/
def Clean (events : List Event) : Prop := ∀ f, .finding f ∉ events

@[simp] theorem clean_nil : Clean [] := fun _ h => nomatch h

@[simp] theorem clean_append : Clean (xs ++ ys) ↔ Clean xs ∧ Clean ys := by
  simp only [Clean, List.mem_append, not_or]
  exact forall_and

@[simp] theorem clean_report {fault : Option String} : Clean (report path fault) ↔ fault = none := by
  cases fault with
  | none => simp [report]
  | some reason => simp [report, Clean]

@[simp] theorem clean_field {rule : Rule} :
    Clean (field obj base key rule) ↔ rule (obj.get? key) = none := clean_report

@[simp] theorem clean_object {value : Option Json} {inside : Json → List Event} :
    Clean (object value path inside) ↔
      ∃ members, value = some (.object members) ∧ Clean (inside (.object members)) := by
  cases value with
  | none => simp [object]
  | some v => cases v <;> simp [object]

/-- The walk over each item of an array is clean, at some path. -/
theorem clean_items {visit : Json → String → List Event} {values : List Json} {i : Nat}
    (h : Clean (items visit path i values)) : ∀ v ∈ values, ∃ p, Clean (visit v p) := by
  induction values generalizing i with
  | nil => intro v hv; cases hv
  | cons w rest ih =>
    rw [items, clean_append] at h
    intro v hv
    rcases List.mem_cons.mp hv with rfl | hv
    · exact ⟨_, h.1⟩
    · exact ih h.2 v hv

/-- No finding afterwards means none on the way. -/
theorem clean_of_findingsAfter {earlier events : List Event}
    (h : findingsAfter earlier events = []) : Clean events := by
  induction events generalizing earlier with
  | nil => exact clean_nil
  | cons e rest ih =>
    obtain ⟨he, hrest⟩ := List.append_eq_nil_iff.mp h
    intro f hf
    rcases List.mem_cons.mp hf with rfl | hf
    · simp [finding?] at he
    · exact ih hrest f hf

/-! ## Clean walks over arrays -/

variable {v : Option Json}

/-- Columns without findings are a list of columns without findings, and not an empty one. -/
theorem clean_columns (h : Clean (columns v path)) :
    ∃ values, v = some (.array values) ∧ values ≠ [] ∧ ∀ w ∈ values, ∃ p, Clean (column w p) := by
  unfold columns at h
  split at h
  · simp at h
  · simp at h
  · rename_i hne
    exact ⟨_, rfl, hne, clean_items h⟩
  · simp at h

/-- Pages without findings are a list of pages without findings, and not an empty one. -/
theorem clean_pages (h : Clean (pages v path)) :
    ∃ values, v = some (.array values) ∧ values ≠ [] ∧ ∀ w ∈ values, ∃ p, Clean (page w p) := by
  unfold pages at h
  split at h
  · simp at h
  · simp at h
  · rename_i hne
    exact ⟨_, rfl, hne, clean_items h⟩
  · simp at h

/-- A region may have no components at all. -/
theorem clean_region (h : Clean (region v path)) :
    ∃ members, v = some (.object members) ∧
      ((Json.object members).get? "components" = none ∨
        ∃ values, (Json.object members).get? "components" = some (.array values) ∧
          ∀ w ∈ values, ∃ p, Clean (component w p)) := by
  rw [region, clean_object] at h
  obtain ⟨members, rfl, h⟩ := h
  refine ⟨members, rfl, ?_⟩
  split at h
  · exact .inl ‹_›
  · exact .inr ⟨_, ‹_›, clean_items h⟩
  · simp at h

end StatementPress.Walk
