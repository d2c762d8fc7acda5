import StatementPress.Proofs.Agreement
import StatementPress.Proofs.Template.Invariants
import StatementPress.Proofs.Walk.Names

/-!
# Templates that are checked

A template that was put together in memory is checked over its JSON value.  What the walk over that
value comes across is what the template holds: its own fields, its pages, and its components in the
order of `Template.components`.  So whether the check finds anything comes down to the fields
outside the components (`OuterValid`), to each component by itself (`Component.Passes`), and to the
identifiers of all components together (`validate_iff`).
-/

namespace StatementPress

open Json Walk

/-! ## The value of a template -/

@[simp] theorem Json.normalize_string (s : String) : (Json.string s).normalize = .string s := rfl

@[simp] theorem Json.normalize_ofNat (n : Nat) : (Json.ofNat n).normalize = .ofNat n := rfl

@[simp] theorem Json.normalize_array_map {α : Type} (f : α → Json) (xs : List α) :
    (Json.array (xs.map f)).normalize = .array (xs.map fun x => (f x).normalize) := by
  rw [normalize, normalizeItems_eq_map, List.map_map]
  rfl

/-- Under a key of an encoded object stands the last member that was written there. -/
theorem Json.get?_encoded {v : Json} {key : String} {w : Option Json}
    (h : (v.members?.bind (·.reverse.lookup key)).map normalize = w) :
    v.normalize.get? key = w := by
  cases v with
  | object members =>
    rw [members?, Option.bind_some] at h
    rw [normalize, get?, lookup_normalize, h]
  | _ => exact h

/-- The walk into an encoded object is the walk over its members. -/
theorem Walk.object_normalize (members : List (String × Json)) (path : String)
    (inside : Json → List Event) :
    object (some (Json.object members).normalize) path inside =
      inside (Json.object members).normalize := by
  rw [Json.normalize]
  rfl

theorem Region.get?_components (r : Region) : r.toJson.normalize.get? "components" =
    some (.array (r.components.map (·.toJson.normalize))) :=
  get?_encoded (congrArg some (normalize_array_map _ _))

theorem Page.get?_region (p : Page) (k : RegionKind) :
    p.toJson.normalize.get? k.name = some (p.region k).toJson.normalize := by
  cases k <;> exact get?_encoded rfl

theorem Page.get?_pageNumber (p : Page) :
    p.toJson.normalize.get? "pageNumber" = some (.ofNat p.pageNumber.toNat) := get?_encoded rfl

/-- What stands in the value of a page. -/
theorem Page.get?_fields (p : Page) :
    p.toJson.normalize.get? "id" = some (.string p.id) ∧
    p.toJson.normalize.get? "pageNumber" = some (.ofNat p.pageNumber.toNat) ∧
    p.toJson.normalize.get? "size" = some (.string p.size.name) ∧
    p.toJson.normalize.get? "header" = some p.header.toJson.normalize ∧
    p.toJson.normalize.get? "body" = some p.body.toJson.normalize ∧
    p.toJson.normalize.get? "footer" = some p.footer.toJson.normalize :=
  ⟨get?_encoded rfl, p.get?_pageNumber, get?_encoded rfl, p.get?_region .header,
    p.get?_region .body, p.get?_region .footer⟩

theorem Template.get?_pages (t : Template) : t.toJson.normalize.get? "pages" =
    some (.array (t.pages.map (·.toJson.normalize))) :=
  get?_encoded (congrArg some (normalize_array_map _ _))

/-- What stands in the value of a template beside its pages. -/
theorem Template.get?_fields (t : Template) :
    t.toJson.normalize.get? "schemaVersion" = some (.string t.schemaVersion) ∧
    t.toJson.normalize.get? "tenantId" = some (.string t.tenantId) ∧
    t.toJson.normalize.get? "templateId" = some (.string t.templateId) ∧
    t.toJson.normalize.get? "name" = some (.string t.name) ∧
    t.toJson.normalize.get? "description" = some (.string t.description) ∧
    t.toJson.normalize.get? "status" = some (.string t.status.name) ∧
    t.toJson.normalize.get? "version" = some (.ofNat t.version.toNat) ∧
    t.toJson.normalize.get? "createdBy" = some (.string t.createdBy) ∧
    t.toJson.normalize.get? "updatedBy" = some (.string t.updatedBy) :=
  ⟨get?_encoded rfl, get?_encoded rfl, get?_encoded rfl, get?_encoded rfl, get?_encoded rfl,
    get?_encoded rfl, get?_encoded rfl, get?_encoded rfl, get?_encoded rfl⟩

/-! ## The walk over the value of a template -/

/-- A number that a template holds is fine as a counter exactly if it is at least one. -/
theorem Rule.counter_ofNat (n : UInt32) :
    Rule.counter (some (.ofNat n.toNat)) =
      if 1 ≤ n then .ok n.toNat else .error "must be at least 1" := by
  by_cases h : 1 ≤ n
  · rw [if_pos h, counter_eq_ok]
    exact ⟨rfl, UInt32.le_iff_toNat_le.mp h, n.toNat_lt⟩
  · rw [UInt32.le_iff_toNat_le, not_le] at h
    rw [if_neg (by simpa [UInt32.le_iff_toNat_le] using h), Json.ofNat, Json.ofInt, Rule.counter,
      if_pos (by exact_mod_cast h)]

/-- A counter passes exactly from one on. -/
theorem Walk.counterRule_ofNat (n : UInt32) :
    counterRule (some (.ofNat n.toNat)) = none ↔ 1 ≤ n := by
  rw [counterRule, Rule.counter_ofNat]
  by_cases h : 1 ≤ n <;> simp [h]

theorem Rule.name_string (s : String) : Rule.name (some (.string s)) = none ↔ s ≠ "" := by
  simp [name_eq_none]

theorem Rule.version_string (s : String) : Rule.version (some (.string s)) = none ↔ s = "1.0" := by
  simp [version_eq_none, schemaVersion]

/-- The name of a status passes its rule. -/
theorem TemplateStatus.rule_name (s : TemplateStatus) :
    Rule.oneOf ["draft", "published"] (some (.string s.name)) = none := by
  cases s <;> rfl

theorem PageSize.rule_name (s : PageSize) : Rule.oneOf ["A4"] (some (.string s.name)) = none := by
  cases s
  rfl

/-- Whether the walk over a component finds nothing. -/
def Component.Passes (c : Component) : Prop := Clean (Walk.component c.toJson.normalize "")

/-- The identifier under which a component comes up when its template is checked. -/
def Component.checkedId? (c : Component) : Option String := idOf? c.toJson.normalize

/-- Nothing is found in a region exactly if its components pass. -/
theorem Region.clean_iff {r : Region} {path : String} :
    Clean (Walk.region (some r.toJson.normalize) path) ↔ ∀ c ∈ r.components, c.Passes := by
  rw [Walk.region, toJson, object_normalize, ← toJson, r.get?_components]
  dsimp only
  rw [clean_items_iff clean_component_iff, List.forall_mem_map]
  rfl

/-- Nothing is found in a page exactly if it has an identifier and a number and its components pass.
-/
theorem Page.clean_iff {p : Page} {path : String} :
    Clean (Walk.page p.toJson.normalize path) ↔
      (p.id ≠ "" ∧ 1 ≤ p.pageNumber) ∧ ∀ c ∈ p.regions.flatMap (·.2.components), c.Passes := by
  obtain ⟨hid, -, hsize, hheader, hbody, hfooter⟩ := p.get?_fields
  have hnumber : Clean (Walk.number p.toJson.normalize path) ↔ 1 ≤ p.pageNumber := by
    rw [Walk.number, p.get?_pageNumber, Rule.counter_ofNat]
    by_cases h : 1 ≤ p.pageNumber
    · simp [h, Clean]
    · simp [h]
  rw [Walk.page, toJson, object_normalize, ← toJson]
  simp only [clean_append, clean_field, hnumber, hid, hsize, hheader, hbody, hfooter,
    Rule.name_string, p.size.rule_name, Region.clean_iff, regions, List.flatMap_cons,
    List.flatMap_nil, List.append_nil, List.forall_mem_append, and_true, and_assoc]

namespace Template

variable {t : Template}

/-- Nothing is found in the pages exactly if there are pages and nothing is found in each. -/
theorem clean_pages_iff {path : String} :
    Clean (Walk.pages (some (.array (t.pages.map (·.toJson.normalize)))) path) ↔
      t.pages ≠ [] ∧ (∀ p ∈ t.pages, p.id ≠ "" ∧ 1 ≤ p.pageNumber) ∧
        ∀ c ∈ t.components, c.Passes := by
  rw [components]
  cases hpages : t.pages with
  | nil => simp [Walk.pages]
  | cons p rest =>
    have hitems : Walk.pages (some (.array ((p :: rest).map (·.toJson.normalize)))) path =
        Walk.items Walk.page path 0 ((p :: rest).map (·.toJson.normalize)) := rfl
    rw [hitems, clean_items_iff clean_page_iff, List.forall_mem_map]
    simp only [Page.clean_iff, forall_and, List.forall_mem_flatMap]
    simp

/-- **Nothing is found in the value of a template exactly if its fields, its pages and its
components pass.** -/
theorem clean_iff : Clean (Walk.template t.toJson.normalize) ↔
    t.FieldsValid ∧ t.pages ≠ [] ∧ (∀ p ∈ t.pages, p.id ≠ "" ∧ 1 ≤ p.pageNumber) ∧
      ∀ c ∈ t.components, c.Passes := by
  obtain ⟨hschema, htenant, htemplate, hname, hdescription, hstatus, hversion, hcreated,
    hupdated⟩ := t.get?_fields
  rw [Walk.template, toJson, object_normalize, ← toJson]
  simp only [clean_append, clean_field, clean_pages_iff, t.get?_pages, hschema, htenant, htemplate,
    hname, hdescription, hstatus, hversion, hcreated, hupdated, Rule.version_string,
    Rule.name_string, t.status.rule_name, Rule.optionalString, counterRule_ofNat, fieldsValid_iff,
    and_true, and_assoc]

/-! ## Names that come up -/

/-- The slots that the walk over the value of a template comes across are its components. -/
theorem slots_toJson (t : Template) :
    slots t.toJson.normalize = t.components.map (·.toJson.normalize) := by
  have hregion : ∀ r : Region,
      regionSlots (some r.toJson.normalize) = r.components.map (·.toJson.normalize) := by
    intro r
    rw [regionSlots, Option.bind_some, r.get?_components, itemsOf]
  have hpage : ∀ p : Page, pageSlots p.toJson.normalize =
      (p.regions.flatMap (·.2.components)).map (·.toJson.normalize) := by
    intro p
    obtain ⟨-, -, -, hheader, hbody, hfooter⟩ := p.get?_fields
    simp [pageSlots, hheader, hbody, hfooter, hregion, Page.regions]
  simp only [slots, t.get?_pages, itemsOf, List.flatMap_map, hpage, components, List.map_flatMap]

/-- The walk comes across the page numbers of the template, in order. -/
theorem pageNumbers_toJson (h : ∀ p ∈ t.pages, 1 ≤ p.pageNumber) :
    Walk.pageNumbers (Walk.template t.toJson.normalize) =
      (t.pages.map (·.pageNumber)).map UInt32.toNat := by
  have hnumber : ∀ p ∈ t.pages, numberOf? p.toJson.normalize = some p.pageNumber.toNat := by
    intro p hp
    rw [numberOf?, p.get?_pageNumber, Rule.counter_ofNat, if_pos (h p hp)]
    rfl
  rw [pageNumbers_template, t.get?_pages, itemsOf, List.filterMap_map, List.map_map]
  exact List.filterMap_eq_map_iff_forall_eq_some.mpr hnumber

/-- Checking a template fails with findings or not at all: its value can always be decoded. -/
theorem validate_iff_findings :
    t.validate.outcome = .ok () ↔ findings (Walk.template t.toJson.normalize) = [] := by
  rw [validate, Run.outcome_bind]
  by_cases h : findings (Walk.template t.toJson.normalize) = []
  · obtain ⟨t', -, ht', -⟩ := outcome_ofValue_of_isNormal (isNormal_normalize _) h
    rw [ht']
    simp [h]
  · rw [outcome_ofValue_of_findings h]
    simp [h]

/-- **A template is valid exactly if its own fields are, each of its components is, and no two
components have one identifier.** -/
theorem validate_iff : t.validate.outcome = .ok () ↔
    t.OuterValid ∧ (∀ c ∈ t.components, c.Passes) ∧
      (t.components.filterMap Component.checkedId?).Nodup := by
  rw [validate_iff_findings, findings_eq_nil_iff, clean_iff, componentIds_template, slots_toJson,
    List.filterMap_map]
  constructor
  · rintro ⟨⟨hfields, hpages, hnumbers, hcomponents⟩, hids, hdistinct⟩
    rw [pageNumbers_toJson fun p hp => (hnumbers p hp).2] at hdistinct
    refine ⟨⟨hfields, hpages, ?_, ?_, hdistinct.of_map UInt32.toNat⟩, hcomponents, hids⟩
    · exact fun p hp => (hnumbers p hp).1
    · exact fun p hp => (hnumbers p hp).2
  · rintro ⟨houter, hcomponents, hids⟩
    have hinjective : Function.Injective UInt32.toNat := fun _ _ => UInt32.toNat_inj.mp
    refine ⟨⟨houter.toFieldsValid, houter.pages, ?_, hcomponents⟩, hids, ?_⟩
    · exact fun p hp => ⟨houter.pageIds p hp, houter.pageNumbers p hp⟩
    · rw [pageNumbers_toJson houter.pageNumbers]
      exact houter.distinctNumbers.map hinjective

/-- A template that is checked without a finding has no finding in any component. -/
theorem clean_of_validate (h : t.validate.outcome = .ok ()) {c : Component}
    (hc : c ∈ t.components) : ∃ path, Clean (Walk.component c.toJson.normalize path) :=
  ⟨"", (validate_iff.mp h).2.1 c hc⟩

/-- No two pages of a template that is checked without a finding have one number. -/
theorem nodup_pageNumbers_of_validate (h : t.validate.outcome = .ok ()) :
    (t.pages.map (·.pageNumber)).Nodup := (validate_iff.mp h).1.distinctNumbers

/-- **A valid template stays valid with some of its pages**, in any order. -/
theorem validate_of_subperm (h : t.validate.outcome = .ok ()) {pages : List Page}
    (hne : pages ≠ []) (hsub : pages.Subperm t.pages) :
    { t with pages := pages }.validate.outcome = .ok () := by
  obtain ⟨houter, hcomponents, hids⟩ := validate_iff.mp h
  have hmem : ∀ p ∈ pages, p ∈ t.pages := fun p hp => hsub.subset hp
  obtain ⟨kept, hperm, hkept⟩ := hsub
  refine validate_iff.mpr ⟨?_, ?_, ?_⟩
  · refine ⟨⟨houter.schemaVersion, houter.tenantId, houter.templateId, houter.name, houter.version,
      houter.createdBy, houter.updatedBy⟩, hne, fun p hp => houter.pageIds p (hmem p hp),
      fun p hp => houter.pageNumbers p (hmem p hp), ?_⟩
    exact (hperm.map _).nodup_iff.mp (houter.distinctNumbers.sublist (hkept.map _))
  · intro c hc
    obtain ⟨p, hp, hc⟩ := List.mem_flatMap.mp hc
    exact hcomponents c (List.mem_flatMap.mpr ⟨p, hmem p hp, hc⟩)
  · have hcomponents := ((hperm.flatMap_right fun p : Page => p.regions.flatMap fun r =>
      r.2.components).filterMap Component.checkedId?).nodup_iff
    exact hcomponents.mp (hids.sublist ((hkept.flatMap _).filterMap _))

end Template

end StatementPress
