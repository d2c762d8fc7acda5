import StatementPress.Proofs.Json.Doubles
import StatementPress.Proofs.Template.RoundTrip

/-!
# The doubles of templates

A template with its doubles replaced and nothing else: coordinates, sizes, widths, and those in the
fields that unknown components came with.  Its value is the value of the template with the doubles
replaced there (`Template.toJson_mapDoubles`).  So when only the doubles of the value of a template
are read as others, what is read is the template with these doubles.
-/

namespace StatementPress

open Json

/-! ## Replacing doubles -/

/-- A box with its numbers replaced. -/
def Position.mapDoubles (f : Binary64 → Binary64) (p : Position) : Position where
  x := f p.x
  y := f p.y
  width := f p.width
  height := f p.height

/-- A text style with its font size replaced. -/
def TextStyle.mapDoubles (f : Binary64 → Binary64) (s : TextStyle) : TextStyle :=
  { s with fontSize := f s.fontSize }

/-- A column with its width replaced. -/
def TableColumn.mapDoubles (f : Binary64 → Binary64) (c : TableColumn) : TableColumn :=
  { c with width := f c.width }

/-- A component with its doubles replaced. -/
def Component.mapDoubles (f : Binary64 → Binary64) : Component → Component
  | .text c => .text { c with
      position := c.position.mapDoubles f
      style := c.style.mapDoubles f }
  | .image c => .image { c with position := c.position.mapDoubles f }
  | .divider c => .divider { c with
      position := c.position.mapDoubles f
      strokeWidth := f c.strokeWidth }
  | .table c => .table { c with
      position := c.position.mapDoubles f
      columns := c.columns.map (·.mapDoubles f) }
  | .totals c => .totals { c with position := c.position.mapDoubles f }
  | .payment c => .payment { c with position := c.position.mapDoubles f }
  | .callout c => .callout { c with position := c.position.mapDoubles f }
  | .unknown u => .unknown { u with fields := mapMembers f u.fields }

/-- A region with the doubles of its components replaced. -/
def Region.mapDoubles (f : Binary64 → Binary64) (r : Region) : Region where
  components := r.components.map (·.mapDoubles f)

/-- A page with the doubles in its regions replaced. -/
def Page.mapDoubles (f : Binary64 → Binary64) (p : Page) : Page :=
  { p with
    header := p.header.mapDoubles f
    body := p.body.mapDoubles f
    footer := p.footer.mapDoubles f }

/-- **A template with its doubles replaced.** -/
def Template.mapDoubles (f : Binary64 → Binary64) (t : Template) : Template :=
  { t with pages := t.pages.map (·.mapDoubles f) }

variable {f : Binary64 → Binary64}

/-! ## Values -/

/-- Encoding a double and changing it may be swapped. -/
theorem Json.mapDoubles_ofBinary64 {x : Binary64} (h : x.isFinite = true) :
    (ofBinary64 x).mapDoubles f = ofBinary64 (f x) := by
  rw [ofBinary64, dif_pos h, Json.mapDoubles]

theorem Position.toJson_mapDoubles {p : Position} (h : p.Valid) :
    (p.mapDoubles f).toJson = p.toJson.mapDoubles f := by
  simp [toJson, mapDoubles, Json.mapDoubles, mapMembers, mapDoubles_ofBinary64 h.x.1,
    mapDoubles_ofBinary64 h.y.1, mapDoubles_ofBinary64 h.width.1, mapDoubles_ofBinary64 h.height.1]

theorem TextStyle.toJson_mapDoubles {s : TextStyle} (h : s.Valid) :
    (s.mapDoubles f).toJson = s.toJson.mapDoubles f := by
  simp [toJson, mapDoubles, Json.mapDoubles, mapMembers, mapDoubles_ofBinary64 h.fontSize.1]

theorem TableColumn.toJson_mapDoubles {c : TableColumn} (h : c.Valid) :
    (c.mapDoubles f).toJson = c.toJson.mapDoubles f := by
  simp [toJson, mapDoubles, Json.mapDoubles, mapMembers, Binding.toJson,
    mapDoubles_ofBinary64 h.width.1]

/-- Lists of parts are replaced part by part. -/
theorem Json.mapItems_map {α : Type} {encode : α → Json} {g : α → α} {as : List α}
    (h : ∀ a ∈ as, encode (g a) = (encode a).mapDoubles f) :
    mapItems f (as.map encode) = (as.map g).map encode := by
  rw [mapItems_eq, List.map_map, List.map_map]
  exact List.map_congr_left fun a ha => (h a ha).symm

/-- Changing the doubles of a component changes those of its value in the same way. -/
theorem Component.toJson_mapDoubles {c : Component} (h : c.Valid) :
    (c.mapDoubles f).toJson = c.toJson.mapDoubles f := by
  have hbox : ∀ p, c.position? = some p → (p.mapDoubles f).toJson = p.toJson.mapDoubles f :=
    fun p hp => Position.toJson_mapDoubles (h.position p hp)
  cases c with
  | text c =>
    have hposition := hbox c.position rfl
    have hstyle := TextStyle.toJson_mapDoubles (f := f) h.content.2
    obtain ⟨frame, content, binding, style⟩ := c
    cases content <;> cases binding <;>
      simp [mapDoubles, toJson, TextComponent.toMembers, Frame.toMembers, memberOf, Json.mapDoubles,
        mapMembers, Binding.toJson, hposition, hstyle]
  | image c =>
    have hposition := hbox c.position rfl
    simp [mapDoubles, toJson, ImageComponent.toMembers, Frame.toMembers, Json.mapDoubles,
      mapMembers, hposition]
  | divider c =>
    have hposition := hbox c.position rfl
    simp [mapDoubles, toJson, DividerComponent.toMembers, Frame.toMembers, Json.mapDoubles,
      mapMembers, hposition, mapDoubles_ofBinary64 h.content.1.1]
  | table c =>
    have hposition := hbox c.position rfl
    have hcolumns := mapItems_map (f := f) fun column hcolumn =>
      TableColumn.toJson_mapDoubles (h.content.2 column hcolumn)
    simp [mapDoubles, toJson, TableComponent.toMembers, Frame.toMembers, Json.mapDoubles,
      mapMembers, hposition, hcolumns, Binding.toJson]
  | totals c =>
    have hposition := hbox c.position rfl
    simp [mapDoubles, toJson, TotalsComponent.toMembers, Frame.toMembers, Json.mapDoubles,
      mapMembers, hposition, Binding.toJson]
  | payment c =>
    have hposition := hbox c.position rfl
    simp [mapDoubles, toJson, PaymentComponent.toMembers, Frame.toMembers, Json.mapDoubles,
      mapMembers, hposition, Binding.toJson]
  | callout c =>
    have hposition := hbox c.position rfl
    simp [mapDoubles, toJson, CalloutComponent.toMembers, Frame.toMembers, Json.mapDoubles,
      mapMembers, hposition]
  | unknown u => rfl

theorem Region.toJson_mapDoubles {r : Region} (h : ∀ c ∈ r.components, c.Valid) :
    (r.mapDoubles f).toJson = r.toJson.mapDoubles f := by
  have hcomponents := mapItems_map (f := f) fun c hc =>
    Component.toJson_mapDoubles (h c hc)
  simp [toJson, mapDoubles, Json.mapDoubles, mapMembers, hcomponents]

/-- Changing the doubles of a page changes those of its value in the same way. -/
theorem Page.toJson_mapDoubles {p : Page} (h : ∀ c ∈ p.regions.flatMap (·.2.components), c.Valid) :
    (p.mapDoubles f).toJson = p.toJson.mapDoubles f := by
  have hregion : ∀ part ∈ p.regions, (part.2.mapDoubles f).toJson = part.2.toJson.mapDoubles f :=
    fun part hpart => Region.toJson_mapDoubles fun c hc =>
      h c (List.mem_flatMap.mpr ⟨part, hpart, hc⟩)
  simp only [regions, List.forall_mem_cons] at hregion
  obtain ⟨hheader, hbody, hfooter, -⟩ := hregion
  simp [toJson, mapDoubles, Json.mapDoubles, mapMembers, hheader, hbody, hfooter, ofNat, ofInt]

/-- **The value of a template with its doubles replaced** is that of the template, with them
replaced. -/
theorem Template.toJson_mapDoubles {t : Template} (h : ∀ c ∈ t.components, c.Valid) :
    (t.mapDoubles f).toJson = t.toJson.mapDoubles f := by
  have hpages := mapItems_map (f := f) fun p hp => Page.toJson_mapDoubles fun c hc =>
    h c (List.mem_flatMap.mpr ⟨p, hp, hc⟩)
  simp [toJson, mapDoubles, Json.mapDoubles, mapMembers, hpages, ofNat, ofInt]

/-! ## Components -/

theorem Page.components_mapDoubles (p : Page) :
    (p.mapDoubles f).regions.flatMap (·.2.components) =
      (p.regions.flatMap (·.2.components)).map (·.mapDoubles f) := by
  simp [regions, mapDoubles, Region.mapDoubles]

/-- Changing doubles changes the components one by one. -/
theorem Template.components_mapDoubles (t : Template) :
    (t.mapDoubles f).components = t.components.map (·.mapDoubles f) := by
  simp only [components, mapDoubles, List.flatMap_map, List.map_flatMap,
    Page.components_mapDoubles]

theorem Component.stored_mapDoubles {c : Component} (h : c.Stored) : (c.mapDoubles f).Stored := by
  cases c with
  | unknown u =>
    obtain ⟨hplain, hnormal⟩ := h
    obtain ⟨hkind, hkeys⟩ := hplain u rfl
    constructor
    · rintro _ ⟨⟩
      refine ⟨hkind, fun m hm => ?_⟩
      dsimp only at hm
      rw [mapMembers_eq] at hm
      obtain ⟨m', hm', rfl⟩ := List.mem_map.mp hm
      exact hkeys m' hm'
    · rintro _ ⟨⟩
      exact isNormal_mapDoubles (hnormal u rfl)
  | _ => exact ⟨fun _ hu => (nomatch hu), fun _ hu => nomatch hu⟩

/-! ## Invariants -/

/-- A component stays valid if numbers at zero or above stay there, and those above zero too. -/
theorem Component.valid_mapDoubles (hnonneg : ∀ x : Binary64, x.IsNonNegative → (f x).IsNonNegative)
    (hpos : ∀ x : Binary64, x.IsPositive → (f x).IsPositive) {c : Component} (h : c.Valid) :
    (c.mapDoubles f).Valid := by
  have hbox : ∀ {p : Position}, c.position? = some p → (p.mapDoubles f).Valid := fun hp =>
    have hp := h.position _ hp
    ⟨hnonneg _ hp.x, hnonneg _ hp.y, hpos _ hp.width, hpos _ hp.height⟩
  have hposition : ∀ {c' : Component} {p : Position}, c.position? = some p →
      c'.position? = some (p.mapDoubles f) → ∀ p', c'.position? = some p' → p'.Valid := by
    intro c' p hp hp' p' hp''
    rw [hp', Option.some.injEq] at hp''
    exact hp'' ▸ hbox hp
  cases c with
  | text c =>
    obtain ⟨hcontent, hstyle⟩ := h.content
    have hstyle' : (c.style.mapDoubles f).Valid :=
      ⟨hstyle.fontFamily, hpos _ hstyle.fontSize, hstyle.color⟩
    exact ⟨⟨h.bindings, hcontent, hstyle'⟩, h.id, hposition rfl rfl⟩
  | image c => exact ⟨⟨h.bindings, h.content⟩, h.id, hposition rfl rfl⟩
  | divider c =>
    exact ⟨⟨h.bindings, hpos _ h.content.1, h.content.2⟩, h.id, hposition rfl rfl⟩
  | table c =>
    obtain ⟨hne, hcolumns⟩ := h.content
    refine ⟨⟨?_, ?_, ?_⟩, h.id, hposition rfl rfl⟩
    · have hbindings := h.bindings
      simpa [mapDoubles, bindings, TableColumn.mapDoubles] using hbindings
    · simpa using hne
    · intro column hcolumn
      obtain ⟨column', hcolumn', rfl⟩ := List.mem_map.mp hcolumn
      have hvalid := hcolumns column' hcolumn'
      exact ⟨hvalid.id, hvalid.header, hpos _ hvalid.width, hvalid.binding⟩
  | totals c => exact ⟨⟨h.bindings, h.content⟩, h.id, hposition rfl rfl⟩
  | payment c => exact ⟨⟨h.bindings, h.content⟩, h.id, hposition rfl rfl⟩
  | callout c => exact ⟨⟨h.bindings, h.content⟩, h.id, hposition rfl rfl⟩
  | unknown u =>
    refine ⟨⟨?_, trivial⟩, h.id, ?_⟩
    · intro b hb
      cases hb
    · intro p hp
      cases hp

theorem Component.id_mapDoubles (c : Component) : (c.mapDoubles f).id = c.id := by
  cases c <;> rfl

/-- **A template stays valid** if numbers at zero or above stay there, and those above zero too. -/
theorem Template.valid_mapDoubles (hnonneg : ∀ x : Binary64, x.IsNonNegative → (f x).IsNonNegative)
    (hpos : ∀ x : Binary64, x.IsPositive → (f x).IsPositive) {t : Template} (h : t.Valid) :
    (t.mapDoubles f).Valid := by
  have hpages : (t.mapDoubles f).pages.map (·.pageNumber) = t.pages.map (·.pageNumber) := by
    rw [mapDoubles, List.map_map]
    rfl
  refine ⟨⟨⟨h.schemaVersion, h.tenantId, h.templateId, h.name, h.version, h.createdBy,
    h.updatedBy⟩, ?_, ?_, ?_, hpages ▸ h.distinctNumbers⟩, ?_, ?_⟩
  · simpa [mapDoubles] using h.pages
  · simpa [mapDoubles, Page.mapDoubles] using h.pageIds
  · simpa [mapDoubles, Page.mapDoubles] using h.pageNumbers
  · rw [components_mapDoubles]
    exact List.forall_mem_map.mpr fun c hc =>
      Component.valid_mapDoubles hnonneg hpos (h.components c hc)
  · rw [components_mapDoubles, List.map_map]
    simpa [Function.comp_def, Component.id_mapDoubles] using h.distinctIds

/-- Components that are kept stay so with other doubles. -/
theorem Template.stored_mapDoubles {t : Template} (h : ∀ c ∈ t.components, c.Stored) :
    ∀ c ∈ (t.mapDoubles f).components, c.Stored := by
  rw [components_mapDoubles]
  exact List.forall_mem_map.mpr fun c hc => Component.stored_mapDoubles (h c hc)

/-- **A template is as it was exactly if the doubles in its value are.** -/
theorem Template.mapDoubles_eq_self_iff {t : Template} (h : ∀ c ∈ t.components, c.Valid)
    (hstored : ∀ c ∈ t.components, c.Stored) (hmap : ∀ c ∈ (t.mapDoubles f).components, c.Valid) :
    t.mapDoubles f = t ↔ ∀ x ∈ t.toJson.doubles, f x = x := by
  rw [← Json.mapDoubles_eq_self_iff, ← toJson_mapDoubles h]
  constructor
  · exact congrArg toJson
  · intro hvalue
    have hread := ofJson?_encoded hmap (stored_mapDoubles hstored)
    rw [hvalue, ofJson?_encoded h hstored] at hread
    exact (Option.some.inj hread).symm

end StatementPress
