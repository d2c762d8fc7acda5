import StatementPress.Proofs.Template.Checked

/-!
# What checking a template decides

A template that was put together in memory is checked by way of its JSON value: numbers that are not
finite have become `null`, absent fields are left out, and the walk over the value knows nothing of
templates.  All the same it decides the invariants of the template (`validate_iff_valid`), part by
part: the walk over an encoded part is clean exactly if the part is valid.
-/

namespace StatementPress

open Json Walk

/-! ## Numbers and colours -/

@[simp] theorem Json.normalize_ofBinary64 (x : Binary64) :
    (ofBinary64 x).normalize = ofBinary64 x := by
  unfold ofBinary64
  split <;> rfl

/-- What is not finite is encoded as `null`, which is no number. -/
theorem Rule.number_ofBinary64 (bound : Rule.Bound) (x : Binary64) :
    Rule.number bound (some (ofBinary64 x)) = none ↔ Holds bound x := by
  rw [number_eq_none, holds_iff, ofBinary64]
  by_cases h : x.isFinite = true
  · simp [h, Number.toBinary64]
  · simp [h]

/-- A number passes its rule exactly if it keeps to the bound. -/
theorem Rule.optionalNumber_ofBinary64 (bound : Rule.Bound) (x : Binary64) :
    Rule.optionalNumber bound (some (ofBinary64 x)) = none ↔ Holds bound x :=
  Rule.number_ofBinary64 bound x

/-- A string passes the rule for colours exactly if it is one. -/
theorem Rule.optionalColor_string (s : String) :
    Rule.optionalColor (some (.string s)) = none ↔ IsColor s := by
  simp [optionalColor_eq_none]

/-! ## Parts of components -/

/-- Nothing is found in a binding exactly if it is valid. -/
theorem Binding.clean_iff {b : Binding} {path : String} :
    Clean (Walk.binding (some b.toJson.normalize) path) ↔ b.Valid := by
  have hpath : b.toJson.normalize.get? "path" = some (.string b.path) := get?_encoded rfl
  have hfallback : b.toJson.normalize.get? "fallback" = some (.string b.fallback) :=
    get?_encoded rfl
  rw [Walk.binding, toJson, object_normalize, ← toJson]
  simp only [clean_append, clean_field, hpath, hfallback, Rule.name_string, Rule.optionalString,
    and_true, Valid]

/-- Nothing is found in a position exactly if it is valid. -/
theorem Position.clean_iff {p : Position} {path : String} :
    Clean (Walk.position (some p.toJson.normalize) path) ↔ p.Valid := by
  have hx : p.toJson.normalize.get? "x" = some (ofBinary64 p.x) :=
    get?_encoded (congrArg some (normalize_ofBinary64 _))
  have hy : p.toJson.normalize.get? "y" = some (ofBinary64 p.y) :=
    get?_encoded (congrArg some (normalize_ofBinary64 _))
  have hwidth : p.toJson.normalize.get? "width" = some (ofBinary64 p.width) :=
    get?_encoded (congrArg some (normalize_ofBinary64 _))
  have hheight : p.toJson.normalize.get? "height" = some (ofBinary64 p.height) :=
    get?_encoded (congrArg some (normalize_ofBinary64 _))
  rw [Walk.position, toJson, object_normalize, ← toJson]
  simp only [clean_append, clean_field, hx, hy, hwidth, hheight, Rule.number_ofBinary64, Holds,
    valid_iff, and_assoc]

/-- Nothing is found in a style exactly if it is valid. -/
theorem TextStyle.clean_iff {s : TextStyle} {path : String} :
    Clean (Walk.style (some s.toJson.normalize) path) ↔ s.Valid := by
  have hfamily : s.toJson.normalize.get? "fontFamily" = some (.string s.fontFamily) :=
    get?_encoded rfl
  have hsize : s.toJson.normalize.get? "fontSize" = some (ofBinary64 s.fontSize) :=
    get?_encoded (congrArg some (normalize_ofBinary64 _))
  have hweight : s.toJson.normalize.get? "fontWeight" = some (.string s.fontWeight.name) :=
    get?_encoded rfl
  have hcolor : s.toJson.normalize.get? "color" = some (.string s.color) := get?_encoded rfl
  have halign : s.toJson.normalize.get? "align" = some (.string s.align.name) := get?_encoded rfl
  have hweightRule : Rule.optionalOneOf ["normal", "bold"] (some (.string s.fontWeight.name)) =
      none := by cases s.fontWeight <;> rfl
  have halignRule : Rule.optionalOneOf ["left", "center", "right"] (some (.string s.align.name)) =
      none := by cases s.align <;> rfl
  have hfamilyRule : Walk.fontFamily (some (.string s.fontFamily)) = none ↔ s.fontFamily ≠ "" := by
    simp [fontFamily_eq_none]
  rw [Walk.style, toJson, object_normalize, ← toJson]
  simp only [clean_append, clean_field, hfamily, hsize, hweight, hcolor, halign, hweightRule,
    halignRule, hfamilyRule, Rule.optionalNumber_ofBinary64, Rule.optionalColor_string, Holds,
    valid_iff, and_true, and_assoc]

/-- Nothing is found in a column exactly if it is valid. -/
theorem TableColumn.clean_iff {c : TableColumn} {path : String} :
    Clean (Walk.column c.toJson.normalize path) ↔ c.Valid := by
  have hid : c.toJson.normalize.get? "id" = some (.string c.id) := get?_encoded rfl
  have hheader : c.toJson.normalize.get? "header" = some (.string c.header) := get?_encoded rfl
  have hwidth : c.toJson.normalize.get? "width" = some (ofBinary64 c.width) :=
    get?_encoded (congrArg some (normalize_ofBinary64 _))
  have hbinding : c.toJson.normalize.get? "binding" = some c.binding.toJson.normalize :=
    get?_encoded rfl
  rw [Walk.column, toJson, object_normalize, ← toJson]
  simp only [clean_append, clean_field, hid, hheader, hwidth, hbinding, Rule.name_string,
    Rule.number_ofBinary64, Binding.clean_iff, Holds, valid_iff, and_assoc]

theorem Walk.clean_columns_iff {columns : List TableColumn} {path : String} :
    Clean (Walk.columns (some (.array (columns.map (·.toJson.normalize)))) path) ↔
      columns ≠ [] ∧ ∀ c ∈ columns, c.Valid := by
  cases columns with
  | nil => simp [Walk.columns]
  | cons c rest =>
    have hitems : Walk.columns (some (.array ((c :: rest).map (·.toJson.normalize)))) path =
        Walk.items Walk.column path 0 ((c :: rest).map (·.toJson.normalize)) := rfl
    rw [hitems, clean_items_iff clean_column_iff, List.forall_mem_map]
    simp only [TableColumn.clean_iff]
    simp

theorem Walk.present_of_ne_null {obj : Json} {key : String} (h : obj.get? key ≠ some .null) :
    present obj key = obj.get? key := by
  unfold present
  split
  · contradiction
  · rfl

/-! ## Components -/

namespace Component

variable {c : Component}

/-- The members of an unknown component come after its kind and identifier and do not hide them. -/
theorem get?_unknown {u : UnknownComponent} (h : (Component.unknown u).Plain) :
    (Component.unknown u).toJson.normalize.get? "type" = some (.string u.kind) ∧
      (Component.unknown u).toJson.normalize.get? "id" = some (.string u.id) := by
  have hnone : ∀ key, key = "type" ∨ key = "id" → u.fields.reverse.lookup key = none := by
    intro key hkey
    rw [List.lookup_eq_none_iff]
    intro m hm
    obtain ⟨htype, hid⟩ := (h u rfl).2 m (List.mem_reverse.mp hm)
    rw [bne_iff_ne]
    rcases hkey with rfl | rfl
    · exact htype.symm
    · exact hid.symm
  constructor <;> refine get?_encoded ?_
  · simp [toJson, members?, UnknownComponent.toMembers, List.lookup_append, List.lookup_cons, hnone]
  · simp [toJson, members?, UnknownComponent.toMembers, List.lookup_append, hnone]

theorem get?_kind (h : c.Plain) : c.toJson.normalize.get? "type" = some (.string c.kind) := by
  cases c with
  | unknown u => exact (get?_unknown h).1
  | text c =>
    obtain ⟨frame, content, binding, style⟩ := c
    cases content <;> cases binding <;> exact get?_encoded rfl
  | _ => exact get?_encoded rfl

theorem get?_id (h : c.Plain) : c.toJson.normalize.get? "id" = some (.string c.id) := by
  cases c with
  | unknown u => exact (get?_unknown h).2
  | text c =>
    obtain ⟨frame, content, binding, style⟩ := c
    cases content <;> cases binding <;> exact get?_encoded rfl
  | _ => exact get?_encoded rfl

theorem get?_position {p : Position} (h : c.position? = some p) :
    c.toJson.normalize.get? "position" = some p.toJson.normalize := by
  cases c with
  | unknown u => cases h
  | text c =>
    obtain ⟨frame, content, binding, style⟩ := c
    cases h
    cases content <;> cases binding <;> exact get?_encoded rfl
  | _ =>
    cases h
    exact get?_encoded rfl

/-! ## Components of known kinds -/

/-- An absent content or binding is left out. -/
theorem get?_text (c : TextComponent) :
    (Component.text c).toJson.normalize.get? "content" = c.content.map .string ∧
      (Component.text c).toJson.normalize.get? "binding" = c.binding.map (·.toJson.normalize) ∧
        (Component.text c).toJson.normalize.get? "style" = some c.style.toJson.normalize := by
  obtain ⟨frame, content, binding, style⟩ := c
  cases content <;> cases binding <;>
    exact ⟨get?_encoded rfl, get?_encoded rfl, get?_encoded rfl⟩

/-- What is there is not `null`. -/
theorem present_text (c : TextComponent) :
    present (Component.text c).toJson.normalize "content" = c.content.map .string ∧
      present (Component.text c).toJson.normalize "binding" = c.binding.map (·.toJson.normalize) ∧
        (Component.text c).toJson.normalize.get? "style" = some c.style.toJson.normalize := by
  obtain ⟨hcontent, hbinding, hstyle⟩ := get?_text c
  refine ⟨?_, ?_, hstyle⟩
  · rw [present_of_ne_null, hcontent]
    rw [hcontent]
    cases c.content <;> simp
  · rw [present_of_ne_null, hbinding]
    rw [hbinding]
    cases c.binding <;> simp [Binding.toJson, Json.normalize]

theorem clean_text_iff {c : TextComponent} {path : String} :
    Clean (Walk.kindFields "text" (Component.text c).toJson.normalize path) ↔
      (Component.text c).FieldsValid := by
  obtain ⟨hcontent, hbinding, hstyle⟩ := present_text c
  change Clean (Walk.text _ _) ↔ _
  rw [Walk.text, hcontent, hbinding, hstyle]
  simp only [clean_append, clean_report, TextStyle.clean_iff, fieldsValid_iff, bindings,
    ContentValid]
  cases c.content <;> cases c.binding
  · simp [Rule.optionalString, isFilled]
  · simp [Rule.optionalString, isFilled, Binding.clean_iff]
  · rename_i s
    by_cases hs : s = ""
    · simp [Rule.optionalString, isFilled, hs]
    · simp [Rule.optionalString, isFilled, hs]
  · simp [Rule.optionalString, isFilled, Binding.clean_iff]

theorem clean_image_iff {c : ImageComponent} {path : String} :
    Clean (Walk.kindFields "image" (Component.image c).toJson.normalize path) ↔
      (Component.image c).FieldsValid := by
  have hasset : (Component.image c).toJson.normalize.get? "assetId" = some (.string c.assetId) :=
    get?_encoded rfl
  have hdescription : (Component.image c).toJson.normalize.get? "description" =
      some (.string c.description) := get?_encoded rfl
  simp [Walk.kindFields, hasset, hdescription, Rule.name_string, Rule.optionalString,
    fieldsValid_iff, bindings, ContentValid]

theorem clean_divider_iff {c : DividerComponent} {path : String} :
    Clean (Walk.kindFields "divider" (Component.divider c).toJson.normalize path) ↔
      (Component.divider c).FieldsValid := by
  have hwidth : (Component.divider c).toJson.normalize.get? "strokeWidth" =
      some (ofBinary64 c.strokeWidth) := get?_encoded (congrArg some (normalize_ofBinary64 _))
  have hcolor : (Component.divider c).toJson.normalize.get? "color" = some (.string c.color) :=
    get?_encoded rfl
  simp [Walk.kindFields, hwidth, hcolor, Rule.optionalNumber_ofBinary64, Holds,
    Rule.optionalColor_string, fieldsValid_iff, bindings, ContentValid]

theorem clean_table_iff {c : TableComponent} {path : String} :
    Clean (Walk.kindFields "table" (Component.table c).toJson.normalize path) ↔
      (Component.table c).FieldsValid := by
  have hrow : (Component.table c).toJson.normalize.get? "rowBinding" =
      some c.rowBinding.toJson.normalize := get?_encoded rfl
  have hcolumns : (Component.table c).toJson.normalize.get? "columns" =
      some (.array (c.columns.map (·.toJson.normalize))) :=
    get?_encoded (congrArg some (normalize_array_map _ _))
  change Clean (Walk.table _ _) ↔ _
  rw [Walk.table, hrow, hcolumns, clean_append, Binding.clean_iff, clean_columns_iff,
    fieldsValid_iff]
  -- the bindings of columns are valid with the columns
  constructor
  · rintro ⟨hrow, hne, hvalid⟩
    refine ⟨List.forall_mem_cons.mpr ⟨hrow, ?_⟩, hne, hvalid⟩
    exact List.forall_mem_map.mpr fun column hcolumn => (hvalid column hcolumn).binding
  · rintro ⟨hbindings, hne, hvalid⟩
    exact ⟨hbindings _ List.mem_cons_self, hne, hvalid⟩

theorem clean_totals_iff {c : TotalsComponent} {path : String} :
    Clean (Walk.kindFields "totals" (Component.totals c).toJson.normalize path) ↔
      (Component.totals c).FieldsValid := by
  have hlabel : (Component.totals c).toJson.normalize.get? "label" = some (.string c.label) :=
    get?_encoded rfl
  have hamount : (Component.totals c).toJson.normalize.get? "amountBinding" =
      some c.amountBinding.toJson.normalize := get?_encoded rfl
  simp [Walk.kindFields, hlabel, hamount, Rule.optionalString, Binding.clean_iff,
    fieldsValid_iff, bindings, ContentValid]

theorem clean_payment_iff {c : PaymentComponent} {path : String} :
    Clean (Walk.kindFields "payment" (Component.payment c).toJson.normalize path) ↔
      (Component.payment c).FieldsValid := by
  have hinstruction : (Component.payment c).toJson.normalize.get? "instruction" =
      some (.string c.instruction) := get?_encoded rfl
  have haccount : (Component.payment c).toJson.normalize.get? "accountBinding" =
      some c.accountBinding.toJson.normalize := get?_encoded rfl
  simp [Walk.kindFields, hinstruction, haccount, Rule.name_string, Binding.clean_iff,
    fieldsValid_iff, bindings, ContentValid, and_comm]

theorem clean_callout_iff {c : CalloutComponent} {path : String} :
    Clean (Walk.kindFields "callout" (Component.callout c).toJson.normalize path) ↔
      (Component.callout c).FieldsValid := by
  have htitle : (Component.callout c).toJson.normalize.get? "title" = some (.string c.title) :=
    get?_encoded rfl
  have hbody : (Component.callout c).toJson.normalize.get? "body" = some (.string c.body) :=
    get?_encoded rfl
  simp [Walk.kindFields, htitle, hbody, Rule.name_string, fieldsValid_iff, bindings, ContentValid]

/-- **Nothing is found in the fields of a known kind exactly if they are valid.** -/
theorem clean_kindFields_iff (h : ∀ u, c ≠ .unknown u) {path : String} :
    Clean (Walk.kindFields c.kind c.toJson.normalize path) ↔ c.FieldsValid := by
  cases c with
  | text c => exact clean_text_iff
  | image c => exact clean_image_iff
  | divider c => exact clean_divider_iff
  | table c => exact clean_table_iff
  | totals c => exact clean_totals_iff
  | payment c => exact clean_payment_iff
  | callout c => exact clean_callout_iff
  | unknown u => cases h u rfl

/-- What the walk makes of a component by its kind. -/
theorem clean_kind_iff (h : c.Plain) {path : String} :
    Clean (Walk.kind c.toJson.normalize path) ↔
      c.FieldsValid ∧ ∀ p, c.position? = some p → p.Valid := by
  unfold Walk.kind
  rw [get?_kind h]
  dsimp only
  cases hframe : c.frame? with
  | none =>
    obtain ⟨u, rfl⟩ : ∃ u, c = .unknown u := by
      cases c with
      | unknown u => exact ⟨u, rfl⟩
      | _ => cases hframe
    have hunknown : ¬ componentKinds.contains u.kind = true :=
      List.contains_iff_mem.not.mpr (h u rfl).1
    rw [kind, if_neg hunknown]
    simp [Clean, fieldsValid_iff, bindings, ContentValid, position?, frame?]
  | some frame =>
    have hknown := ne_unknown_of_frame? hframe
    have hkind : componentKinds.contains c.kind = true := by
      cases c with
      | unknown u => cases hframe
      | _ => rfl
    have hposition : c.position? = some frame.position := by rw [position?, hframe, Option.map_some]
    rw [if_pos hkind, clean_append, get?_position hposition, Position.clean_iff,
      clean_kindFields_iff hknown, hposition, and_comm]
    simp

/-- **The walk over an encoded component is clean exactly if the component is valid.** -/
theorem passes_iff (h : c.Plain) : c.Passes ↔ c.Valid := by
  have hobject : ∃ members, c.toJson = .object members := by cases c <;> exact ⟨_, rfl⟩
  obtain ⟨members, hmembers⟩ := hobject
  have hid : Clean (Walk.identifier c.toJson.normalize "") ↔ c.id ≠ "" := by
    simp [clean_identifier, get?_id h]
  rw [Passes, Walk.component, hmembers, object_normalize, ← hmembers, clean_append, hid,
    clean_kind_iff h]
  constructor
  · rintro ⟨hid, hfields, hposition⟩
    exact ⟨hfields, hid, hposition⟩
  · rintro ⟨hfields, hid, hposition⟩
    exact ⟨hid, hfields, hposition⟩

/-- A component that cannot be taken for another one is checked under its own identifier. -/
theorem checkedId?_eq_some (h : c.Plain) (hid : c.id ≠ "") : c.checkedId? = some c.id := by
  rw [checkedId?, idOf?, get?_id h]
  simp [hid]

end Component

/-! ## Templates -/

/-- **Checking a template finds nothing exactly if its invariants hold**, as long as no component
could be taken for another. -/
theorem Template.validate_iff_valid (t : Template) (h : t.Plain) :
    t.validate.outcome = .ok () ↔ t.Valid := by
  have hcomponents : (∀ c ∈ t.components, c.Passes) ↔ ∀ c ∈ t.components, c.Valid :=
    forall₂_congr fun c hc => Component.passes_iff (h c hc)
  have hids : (∀ c ∈ t.components, c.Valid) →
      t.components.filterMap Component.checkedId? = t.components.map (·.id) := fun hvalid =>
    List.filterMap_eq_map_iff_forall_eq_some.mpr fun c hc =>
      Component.checkedId?_eq_some (h c hc) (hvalid c hc).id
  rw [validate_iff, hcomponents]
  constructor
  · rintro ⟨houter, hvalid, hdistinct⟩
    exact ⟨houter, hvalid, hids hvalid ▸ hdistinct⟩
  · intro hvalid
    exact ⟨hvalid.toOuterValid, hvalid.components, hids hvalid.components ▸ hvalid.distinctIds⟩

/-- A template with a component of every kind, known and unknown. -/
def everyKind : Template where
  schemaVersion := schemaVersion
  tenantId := "tenant"
  templateId := "template"
  name := "Every kind"
  status := .published
  version := 3
  pages := [
    { id := "second", pageNumber := 2
      body := { components := [
        .table
          { id := "table", position := ⟨0, 20, 400, 100⟩, rowBinding := { path := "/Case/Debt" }
            columns := [{ id := "sum", header := "Sum", width := 50
                          binding := { path := "/Case/Debt/Sum" } }] },
        .totals
          { id := "totals", position := ⟨0, 120, 400, 20⟩
            amountBinding := { path := "/Case/Total" } }] } },
    { id := "first", pageNumber := 1
      header := { components := [
        .text
          { id := "text", position := ⟨0, 0, 1, 1⟩, content := some "Dear debtor", style := {} },
        .image { id := "logo", position := ⟨0, 0, 1, 1⟩, assetId := "logo" },
        .divider { id := "rule", position := ⟨0, 0, 1, 1⟩ }] }
      footer := { components := [
        .payment
          { id := "pay", position := ⟨0, 0, 1, 1⟩, instruction := "Pay now"
            accountBinding := { path := "/Case/Account" } },
        .callout { id := "note", position := ⟨0, 0, 1, 1⟩, title := "Note", body := "Thank you" },
        .unknown { kind := "seal", id := "seal", fields := [("wax", .string "red")] }] } }]
  createdBy := "author"
  updatedBy := "author"

theorem everyKind_valid : everyKind.Plain ∧ everyKind.Valid := by
  have hplain : everyKind.Plain := by
    intro c hc u hu
    subst hu
    have hseal : u = { kind := "seal", id := "seal", fields := [("wax", .string "red")] } := by
      simpa [everyKind, Template.components, Page.regions] using hc
    subst hseal
    exact ⟨by decide, by simp⟩
  exact ⟨hplain, (everyKind.validate_iff_valid hplain).mp rfl⟩

end StatementPress
