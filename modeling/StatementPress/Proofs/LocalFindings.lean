import Mathlib
import StatementPress.Proofs.Agreement
import StatementPress.Proofs.DistinctFindings
import StatementPress.Proofs.Walk.Beyond

/-!
# Findings are local

However broken a component is, it takes no finding away elsewhere and adds none.  If two values differ in
what stands in one component slot, and the same identifier or none stands in both, the findings outside
the slot are the same, in the same order (`findings_local`).
-/

namespace StatementPress

open Walk

/-- The findings that a value is rejected with, none if it is accepted. -/
def Template.reported (raw : Json) : List Finding :=
  match (ofValue raw).outcome with
  | .ok _ => []
  | .error r => r.findings

/-- What is reported of a value are the findings of the walk. -/
theorem Template.reported_eq {raw : Json} (hraw : raw.IsNormal) :
    reported raw = findings (Walk.template raw) := by
  obtain ⟨haccepted, hrejected⟩ := walk_agrees_with_decoder raw hraw
  by_cases hfindings : findings (Walk.template raw) = []
  · obtain ⟨t, -, ht, -⟩ := haccepted hfindings
    rw [reported, ht, hfindings]
  · rw [reported, outcome_ofValue_of_findings hfindings]

/-- **Findings are local.**  Of two values that differ in one component slot only, where both have the
same identifier or both have none, the walk finds the same outside the slot, in the same order; and the
same is reported of values in normal form. -/
theorem findings_local {raw raw' old new : Json} {s : Slot}
    (h : Json.DifferAt s.address raw raw' old new) (hid : idOf? old = idOf? new) :
    outside s.path (findings (template raw)) = outside s.path (findings (template raw')) ∧
    (raw.IsNormal → raw'.IsNormal →
      outside s.path (Template.reported raw) = outside s.path (Template.reported raw')) := by
  have hwalk : outside s.path (findings (template raw)) =
      outside s.path (findings (template raw')) := by
    rw [h.eq_put, ← findings_beyond, ← beyond_template h.left hid, findings_beyond]
  refine ⟨hwalk, fun hraw hraw' => ?_⟩
  rw [Template.reported_eq hraw, Template.reported_eq hraw', hwalk]

/-- A component whose kind is a number, with the identifier of the first component of
`brokenStatement`. -/
def numberedKind : Json := .object [("id", .string "a"), ("type", .ofNat 7)]

/-- The slot of the first component of `brokenStatement`. -/
def firstSlot : Slot := ⟨0, .body, 0⟩

theorem findings_local_on_brokenStatement :
    outside firstSlot.path (Template.reported brokenStatement) =
      outside firstSlot.path (Template.reported (brokenStatement.put firstSlot.address numberedKind)) ∧
    ⟨"pages[0].body.components[1].id", Finding.repeatedId "a" firstSlot.path⟩ ∈
      outside firstSlot.path (Template.reported brokenStatement) := by
  have hdiffer : Json.DifferAt firstSlot.address brokenStatement
      (brokenStatement.put firstSlot.address numberedKind)
      (.object [("content", .null), ("id", .string "a"), ("type", .string "text")])
      numberedKind := ⟨rfl, rfl, rfl⟩
  have hnormal : brokenStatement.IsNormal := by
    have hfixed : brokenStatement.normalize = brokenStatement := by cbv
    exact hfixed ▸ Json.isNormal_normalize brokenStatement
  have hnormal' : (brokenStatement.put firstSlot.address numberedKind).IsNormal := by
    have hfixed : (brokenStatement.put firstSlot.address numberedKind).normalize =
        brokenStatement.put firstSlot.address numberedKind := by cbv
    exact hfixed ▸ Json.isNormal_normalize _
  refine ⟨(findings_local hdiffer rfl).2 hnormal hnormal', ?_⟩
  rw [Template.reported_eq hnormal, outside, List.mem_filter]
  exact ⟨by decide +kernel, by decide +kernel⟩

end StatementPress
