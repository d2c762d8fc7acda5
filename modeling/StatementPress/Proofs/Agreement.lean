import Mathlib
import StatementPress.Proofs.Walk.Decoding
import StatementPress.Proofs.Walk.Places

/-!
# The walk and the decoder agree

A value that passes the walk is always decoded, so the one finding without a place, which stands for
a value that passes and is no template all the same, never comes up.  What is decoded has the pages
and components of the value, none of them taken for unknown except by its kind.
-/

namespace StatementPress

open Json Walk

/-- Recording what a walk came across does not fail. -/
theorem Walk.outcome_recordEvents (events : List Event) :
    (recordEvents events).outcome = .ok () := by
  induction events with
  | nil => rfl
  | cons e rest ih =>
    cases e with
    | unknownKind kind path =>
      rw [recordEvents, Run.outcome_bind, Run.outcome_record, ok_bind, ih]
    | _ => exact ih

namespace Template

variable {raw : Json}

/-- A value with findings is refused, with all of them. -/
theorem outcome_ofValue_of_findings (h : findings (Walk.template raw) ≠ []) :
    (ofValue raw).outcome = .error ⟨findings (Walk.template raw)⟩ := by
  have hempty : ¬ (findings (Walk.template raw)).isEmpty = true := by
    rwa [List.isEmpty_iff]
  rw [ofValue, Run.outcome_bind, outcome_recordEvents, ok_bind]
  dsimp only
  rw [if_neg hempty, Run.outcome_bind, Run.outcome_record, ok_bind, Run.outcome_fail]

/-- A value without findings is accepted as what it decodes to. -/
theorem outcome_ofValue_of_decoded {t : Template} (h : findings (Walk.template raw) = [])
    (ht : ofJson? raw = some t) : (ofValue raw).outcome = .ok t := by
  rw [ofValue, Run.outcome_bind, outcome_recordEvents, ok_bind]
  dsimp only
  rw [h, if_pos List.isEmpty_nil, ht]
  rfl

/-- A value without findings becomes the template that is decoded from it. -/
theorem outcome_ofValue_of_isNormal (hraw : raw.IsNormal) (h : findings (Walk.template raw) = []) :
    ∃ t, ofJson? raw = some t ∧ (ofValue raw).outcome = .ok t ∧ t.Decoded raw := by
  obtain ⟨t, ht, hdecoded⟩ := Template.decodes (clean_of_findingsAfter h) hraw
  exact ⟨t, ht, outcome_ofValue_of_decoded h ht, hdecoded⟩

/-- A finding without a place means that the value is no object. -/
theorem exists_path_eq_empty_iff (raw : Json) :
    (∃ f ∈ findings (Walk.template raw), f.path = "") ↔ raw.members? = none := by
  cases raw with
  | object members =>
    have hlocated : ∀ f ∈ findings (Walk.template (.object members)), f.path ≠ "" :=
      fun f hf => path_ne_empty_of_mem_findings (located_template members) hf
    simpa [members?] using hlocated
  | _ => exact ⟨fun _ => rfl, fun _ => ⟨_, List.mem_cons_self, rfl⟩⟩

end Template

/-- **The walk and the decoder agree on every value.**  A value without findings is accepted, and the
template has its pages and components, in its order and with their kinds and identifiers; only an
unknown kind makes an unknown component.  A value with findings is rejected with these, and one of
them has no place exactly if the value is no object. -/
theorem walk_agrees_with_decoder (raw : Json) (hraw : raw.IsNormal) :
    (findings (Walk.template raw) = [] → ∃ t,
      Template.ofJson? raw = some t ∧ (Template.ofValue raw).outcome = .ok t ∧ t.Matches raw) ∧
    (∀ r, (Template.ofValue raw).outcome = .error r →
      r.findings = findings (Walk.template raw) ∧ r.findings ≠ [] ∧
        ((∃ f ∈ r.findings, f.path = "") ↔ raw.members? = none)) := by
  constructor
  · intro h
    obtain ⟨t, hdecoded, ht, hparts⟩ := Template.outcome_ofValue_of_isNormal hraw h
    exact ⟨t, hdecoded, ht, hparts.agrees⟩
  · intro r hr
    by_cases hfindings : findings (Walk.template raw) = []
    -- without findings there is a template, so there is no rejection
    · obtain ⟨t, -, ht, -⟩ := Template.outcome_ofValue_of_isNormal hraw hfindings
      rw [ht] at hr
      cases hr
    · rw [Template.outcome_ofValue_of_findings hfindings] at hr
      cases hr
      exact ⟨rfl, hfindings, Template.exists_path_eq_empty_iff raw⟩

/-- A value with a component of a known kind after one of an unknown kind, its keys in order. -/
def sealedStatement : Json := .object [
  ("createdBy", .string "author"), ("name", .string "Sealed"),
  ("pages", .array [.object [
    ("body", .object [("components", .array [
      .object [("id", .string "seal"), ("type", .string "seal")],
      .object [("body", .string "Pay now"), ("id", .string "callout"),
        ("position", .object [("height", .ofNat 1), ("width", .ofNat 1), ("x", .ofNat 0),
          ("y", .ofNat 0)]), ("title", .string "Note"), ("type", .string "callout")]])]),
    ("footer", .object []), ("header", .object []), ("id", .string "page"),
    ("pageNumber", .ofNat 1), ("size", .string "A4")]]),
  ("schemaVersion", .string schemaVersion), ("status", .string "draft"),
  ("templateId", .string "template"), ("tenantId", .string "tenant"),
  ("updatedBy", .string "author"), ("version", .ofNat 1)]

theorem walk_agrees_with_decoder_on_sealedStatement :
    sealedStatement.IsNormal ∧ ∃ t,
      (Template.ofValue sealedStatement).outcome = .ok t ∧ t.Matches sealedStatement := by
  have hfixed : sealedStatement.normalize = sealedStatement := by cbv
  have hnormal : sealedStatement.IsNormal := hfixed ▸ isNormal_normalize sealedStatement
  obtain ⟨t, -, ht, hmatches⟩ := (walk_agrees_with_decoder sealedStatement hnormal).1 rfl
  exact ⟨hnormal, t, ht, hmatches⟩

end StatementPress
