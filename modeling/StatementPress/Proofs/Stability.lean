import StatementPress.Proofs.Gates
import StatementPress.Proofs.Json.InText
import StatementPress.Proofs.Template.RoundTrip
import StatementPress.Statement

/-!
# Accepted templates stay accepted

A template that is taken from a JSON value has all its invariants (`Template.Decoded.isValid`), and
its own value is taken as the same template again.  So what an application holds on to, once it was
accepted, is never rejected when it is compiled, whatever its settings are by then.

The value has to be one that a text can have: its keys in order, its whole numbers in 64 bits.
-/

namespace StatementPress

open Json Walk

/-! ## Parts of a value that fits -/

theorem Json.fits_of_mem_itemsOf {v : Option Json} (h : ∀ w, v = some w → w.Fits) :
    ∀ item ∈ itemsOf v, item.Fits := by
  intro item hitem
  rcases v with _ | ⟨_ | _ | _ | _ | items | _⟩
  case some.array => exact fits_of_mem_array (h _ rfl) hitem
  all_goals cases hitem

theorem Walk.fits_of_mem_slots {raw slot : Json} (h : raw.Fits) (hslot : slot ∈ slots raw) :
    slot.Fits := by
  have hregion : ∀ {v : Option Json}, (∀ w, v = some w → w.Fits) → ∀ c ∈ regionSlots v, c.Fits := by
    intro v hv
    refine fits_of_mem_itemsOf fun w hw => ?_
    obtain ⟨r, hr, hw⟩ := Option.bind_eq_some_iff.mp hw
    exact fits_of_get? (hv r hr) hw
  obtain ⟨p, hp, hslot⟩ := List.mem_flatMap.mp hslot
  have hp := fits_of_mem_itemsOf (fun _ => fits_of_get? h) p hp
  simp only [pageSlots, List.mem_append] at hslot
  rcases hslot with (hslot | hslot) | hslot <;> exact hregion (fun _ => fits_of_get? hp) slot hslot

/-! ## What an accepted value says of its template -/

/-- What each item of a list comes to is what its partner does. -/
theorem filterMap_eq_map_of_forall₂ {α β γ : Type} {R : α → β → Prop} {f : β → Option γ} {g : α → γ}
    {as : List α} {bs : List β} (h : List.Forall₂ R as bs) (hf : ∀ a b, R a b → f b = some (g a)) :
    bs.filterMap f = as.map g := by
  induction h with
  | nil => rfl
  | cons hab _ ih => rw [List.filterMap_cons_some (hf _ _ hab), ih, List.map_cons]

namespace Template

variable {t : Template} {raw : Json}

/-- The components of a template were decoded from the slots of its value, in order. -/
theorem Decoded.components (h : t.Decoded raw) :
    List.Forall₂ Component.Decoded t.components (slots raw) := by
  have hpage : ∀ {p v}, Page.Decoded p v →
      List.Forall₂ Component.Decoded (p.regions.flatMap (·.2.components)) (pageSlots v) := by
    intro p v hp
    simpa [Page.regions, pageSlots, regionSlots] using
      List.rel_append hp.header (List.rel_append hp.body hp.footer)
  exact List.rel_flatMap h.pages fun _ _ => hpage

theorem Decoded.stored (h : t.Decoded raw) : ∀ c ∈ t.components, c.Stored := by
  intro c hc
  obtain ⟨slot, -, hslot⟩ := exists_of_forall₂ h.components hc
  exact hslot.stored

theorem Decoded.componentIds_eq (h : t.Decoded raw) :
    componentIds (Walk.template raw) = t.components.map (·.id) := by
  rw [componentIds_template]
  refine filterMap_eq_map_of_forall₂ h.components fun c slot hslot => ?_
  simp [idOf?, hslot.agrees.2.1, hslot.id]

/-- The walk through a value comes across the page numbers of the template that is decoded from it.
-/
theorem Decoded.pageNumbers_eq (h : t.Decoded raw) :
    pageNumbers (Walk.template raw) = (t.pages.map (·.pageNumber)).map UInt32.toNat := by
  rw [pageNumbers_template, List.map_map]
  refine filterMap_eq_map_of_forall₂ h.pages fun p v hp => ?_
  rw [numberOf?, hp.number, Rule.counter_ofNat, if_pos hp.numbered]
  rfl

/-- **A template that was accepted has all its invariants.** -/
theorem Decoded.isValid (h : t.Decoded raw) (hfits : raw.Fits)
    (hfindings : findings (Walk.template raw) = []) : t.Valid := by
  obtain ⟨-, hids, hnumbers⟩ := findings_eq_nil_iff.mp hfindings
  rw [h.componentIds_eq] at hids
  rw [h.pageNumbers_eq] at hnumbers
  refine ⟨⟨h.toFieldsValid, h.nonempty, fun p hp => ?_, fun p hp => ?_, hnumbers.of_map _⟩, ?_,
    hids⟩
  · obtain ⟨v, -, hv⟩ := exists_of_forall₂ h.pages hp
    exact hv.id
  · obtain ⟨v, -, hv⟩ := exists_of_forall₂ h.pages hp
    exact hv.numbered
  · intro c hc
    obtain ⟨slot, hmem, hslot⟩ := exists_of_forall₂ h.components hc
    exact hslot.valid (fits_of_mem_slots hfits hmem)

/-- A value that is accepted has no findings, and its template was decoded from it. -/
theorem decoded_of_ofValue (hraw : raw.IsNormal) (h : (ofValue raw).outcome = .ok t) :
    findings (Walk.template raw) = [] ∧ t.Decoded raw := by
  by_cases hfindings : findings (Walk.template raw) = []
  · obtain ⟨t', -, ht', hdecoded⟩ := outcome_ofValue_of_isNormal hraw hfindings
    rw [ht', Except.ok.injEq] at h
    exact ⟨hfindings, h ▸ hdecoded⟩
  · rw [outcome_ofValue_of_findings hfindings] at h
    cases h

/-- A valid template whose components are as they are kept is taken from its value again. -/
theorem outcome_ofValue_encoded (h : t.Valid) (hstored : ∀ c ∈ t.components, c.Stored) :
    (ofValue t.toJson.normalize).outcome = .ok t := by
  have hvalidate := (t.validate_iff_valid fun c hc => (hstored c hc).1).mpr h
  exact outcome_ofValue_of_decoded (validate_iff_findings.mp hvalidate)
    (ofJson?_encoded h.components hstored)

/-- What is accepted once is valid and accepted again. -/
theorem outcome_ofValue_again (hraw : raw.IsNormal) (hfits : raw.Fits)
    (h : (ofValue raw).outcome = .ok t) :
    (ofValue t.toJson.normalize).outcome = .ok t ∧ t.validate.outcome = .ok () := by
  obtain ⟨hfindings, hdecoded⟩ := decoded_of_ofValue hraw h
  have hvalid := hdecoded.isValid hfits hfindings
  refine ⟨outcome_ofValue_encoded hvalid hdecoded.stored, ?_⟩
  exact (t.validate_iff_valid fun c hc => (hdecoded.stored c hc).1).mpr hvalid

/-- A template that is read from a text is taken from its value. -/
theorem exists_of_ofText {text : String} (h : (ofText text).outcome = .ok t) :
    ∃ raw, Json.ofText text = .ok raw ∧ (ofValue raw).outcome = .ok t := by
  rw [ofText, Run.outcome_bind, Run.outcome_ofExcept] at h
  obtain ⟨raw, hread, h⟩ := exists_of_bind_eq_ok h
  rw [Run.outcome_mapError] at h
  exact ⟨raw, mapError_eq_ok.mp hread, mapError_eq_ok.mp h⟩

/-- A template that was read is valid. -/
theorem validate_of_ofText {text : String} (h : (ofText text).outcome = .ok t) :
    t.validate.outcome = .ok () := by
  obtain ⟨raw, hread, hvalue⟩ := exists_of_ofText h
  obtain ⟨hnormal, hfits⟩ := of_ofText hread
  exact (outcome_ofValue_again hnormal hfits hvalue).2

end Template

/-! ## Statements -/

namespace Statement

variable {s s' : Statement}

/-- A statement is read as its template. -/
theorem ofText_template {text : String} (h : (ofText text).outcome = .ok s) :
    (Template.ofText text).outcome = .ok s.template := by
  rw [ofText, Run.outcome_bind] at h
  obtain ⟨t, ht, h⟩ := exists_of_bind_eq_ok h
  cases h
  exact ht

/-- New settings leave the template as it is. -/
theorem template_of_setConfig {text : String} (h : s.setConfig text = .ok s') :
    s'.template = s.template := by
  obtain ⟨config, -, h⟩ := exists_of_bind_eq_ok h
  cases h
  rfl

/-- However often the settings are replaced, the template stays. -/
theorem template_of_setConfigs {texts : List String} (h : texts.foldlM setConfig s = .ok s') :
    s'.template = s.template := by
  induction texts generalizing s with
  | nil =>
    cases h
    rfl
  | cons text texts ih =>
    rw [List.foldlM_cons] at h
    obtain ⟨s₁, hset, h⟩ := exists_of_bind_eq_ok h
    rw [ih h, template_of_setConfig hset]

end Statement

/-! ## Stability -/

/-- **What was accepted stays accepted.**  The value of a template that was taken from a value is
taken as the same template, and the template is valid.  A template that was read from a text is not
rejected by any compiling, and neither is that of a statement after any changes of its settings. -/
theorem validation_stable :
    (∀ (raw : Json) (t : Template), raw.IsNormal → raw.Fits →
      (Template.ofValue raw).outcome = .ok t →
        (Template.ofValue t.toJson.normalize).outcome = .ok t ∧ t.validate.outcome = .ok () ∧
          ∀ (config : CompilerConfig) payloadText r,
            (config.compile t payloadText).outcome ≠ .error (.invalid r)) ∧
    (∀ (text : String) (t : Template), (Template.ofText text).outcome = .ok t →
      ∀ (config : CompilerConfig) payloadText r,
        (config.compile t payloadText).outcome ≠ .error (.invalid r)) ∧
    (∀ (text : String) (s s' : Statement) (configTexts : List String),
      (Statement.ofText text).outcome = .ok s → configTexts.foldlM Statement.setConfig s = .ok s' →
        ∀ payloadText r, (s'.compile payloadText).outcome ≠ .error (.invalid r)) := by
  refine ⟨fun raw t hraw hfits h => ?_, fun text t h config payloadText r => ?_,
    fun text s s' configTexts h hconfigs payloadText r => ?_⟩
  · obtain ⟨hagain, hvalid⟩ := Template.outcome_ofValue_again hraw hfits h
    exact ⟨hagain, hvalid, fun config _ r => CompilerConfig.outcome_compile_ne_invalid hvalid r⟩
  · exact CompilerConfig.outcome_compile_ne_invalid (Template.validate_of_ofText h) r
  · refine CompilerConfig.outcome_compile_ne_invalid ?_ r
    rw [Statement.template_of_setConfigs hconfigs]
    exact Template.validate_of_ofText (Statement.ofText_template h)

/-- A text with a component of a known kind, whose value changes when it is written again, and one
of an unknown kind with a nested field. -/
def looseStatement : String :=
  "\x7b\"schemaVersion\":\"1.0\",\"tenantId\":\"a\",\"templateId\":\"b\",\"name\":\"n\"," ++
  "\"status\":\"draft\",\"version\":1,\"createdBy\":\"c\",\"updatedBy\":\"c\",\"pages\":[\x7b" ++
  "\"id\":\"p\",\"pageNumber\":1,\"size\":\"A4\",\"header\":\x7b\x7d,\"footer\":\x7b\x7d," ++
  "\"body\":\x7b\"components\":[\x7b\"type\":\"text\",\"id\":\"t\",\"hint\":1,\"content\":null," ++
  "\"binding\":\x7b\"path\":\"/Case\"\x7d,\"style\":\x7b\x7d," ++
  "\"position\":\x7b\"x\":0,\"y\":0,\"width\":1,\"height\":1\x7d\x7d," ++
  "\x7b\"type\":\"seal\",\"id\":\"s\",\"wax\":[\x7b\"hue\":\"red\"\x7d,null]\x7d]\x7d\x7d]\x7d"

/-- Settings with a margin of their own. -/
def narrowMargin : String := "\x7b\"margin\":\"5mm\"\x7d"

theorem validation_stable_on_looseStatement : ∃ raw t s s',
    Json.ofText looseStatement = .ok raw ∧ raw.IsNormal ∧ raw.Fits ∧
      (Template.ofValue raw).outcome = .ok t ∧
        (Template.ofValue t.toJson.normalize).outcome = .ok t ∧
          (Statement.ofText looseStatement).outcome = .ok s ∧
            [narrowMargin].foldlM Statement.setConfig s = .ok s' ∧
              ∀ payloadText r, (s'.compile payloadText).outcome ≠ .error (.invalid r) := by
  obtain ⟨s, hs⟩ : ∃ s, (Statement.ofText looseStatement).outcome = .ok s :=
    exists_of_isOk (by decide +kernel)
  obtain ⟨config, hconfig⟩ : ∃ config, readText CompilerConfig.reader narrowMargin = .ok config :=
    exists_of_isOk (by decide +kernel)
  obtain ⟨raw, hraw, hvalue⟩ := Template.exists_of_ofText (Statement.ofText_template hs)
  obtain ⟨hnormal, hfits⟩ := of_ofText hraw
  have hset : [narrowMargin].foldlM Statement.setConfig s = .ok { s with config } := by
    rw [List.foldlM_cons, Statement.setConfig, hconfig]
    rfl
  obtain ⟨hvalues, -, hstatements⟩ := validation_stable
  exact ⟨raw, s.template, s, _, hraw, hnormal, hfits, hvalue,
    (hvalues raw _ hnormal hfits hvalue).1, hs, hset, hstatements _ s _ _ hs hset⟩

end StatementPress
