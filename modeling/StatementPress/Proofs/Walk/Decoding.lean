import Mathlib.Data.List.Forall2
import StatementPress.Proofs.Json.Normal
import StatementPress.Proofs.Json.Fits
import StatementPress.Proofs.Walk.Events
import StatementPress.Proofs.Walk.Rules

/-!
# What passes the walk can be decoded

The walk and the decoder describe templates independently of each other.  Each statement below takes
one part: if the walk over it is clean and the value is normal, decoding it succeeds.  For
components, regions, pages and templates the result also has the parts of the value, in its order.
-/

namespace StatementPress

open Json Walk
open Finding (join)

/-! ## Single fields -/

section Fields
variable {v : Option Json}

/-- A name that passes is decoded, and is not empty. -/
theorem Walk.required_string (h : Rule.name v = none) :
    ∃ s, required v string? = some s ∧ s ≠ "" := by
  obtain ⟨s, rfl, hs⟩ := name_eq_none.mp h
  exact ⟨s, rfl, hs⟩

/-- A string that may be left out is decoded if it passes. -/
theorem Walk.optional_string (h : Rule.optionalString v = none) (default : String) :
    ∃ s, optional v default string? = some s := by
  rcases optionalString_eq_none.mp h with rfl | ⟨s, rfl⟩
  · exact ⟨default, rfl⟩
  · exact ⟨s, rfl⟩

theorem Walk.optional_color (h : Rule.optionalColor v = none) (default : String)
    (hdefault : Rule.isColor default = true) :
    ∃ s, optional v default string? = some s ∧ IsColor s := by
  rcases optionalColor_eq_none.mp h with rfl | ⟨s, rfl, hs⟩
  · exact ⟨default, rfl, isColor_iff.mp hdefault⟩
  · exact ⟨s, rfl, hs⟩

theorem Walk.optional_fontFamily (h : fontFamily v = none) (default : String)
    (hdefault : default ≠ "") : ∃ s, optional v default string? = some s ∧ s ≠ "" := by
  rcases fontFamily_eq_none.mp h with rfl | ⟨s, rfl, hs⟩
  · exact ⟨default, rfl, hdefault⟩
  · exact ⟨s, rfl, hs⟩

/-- What passes a bound is a number within it, provided it is finite. -/
theorem Walk.required_double {bound : Rule.Bound} (h : Rule.number bound v = none) :
    ∃ x, required v double? = some x ∧ ((∀ w, v = some w → w.Fits) → Holds bound x) := by
  obtain ⟨n, rfl, hn⟩ := number_eq_none.mp h
  exact ⟨_, rfl, fun hfits => holds_iff.mpr ⟨isFinite_of_fits (hfits _ rfl), hn⟩⟩

/-- A number that passes is decoded to a double that keeps to the bound. -/
theorem Walk.optional_double {bound : Rule.Bound} (h : Rule.optionalNumber bound v = none)
    (default : Binary64) (hdefault : default.isFinite = true ∧ bound.fault default = none) :
    ∃ x, optional v default double? = some x ∧ ((∀ w, v = some w → w.Fits) → Holds bound x) := by
  rcases optionalNumber_eq_none.mp h with rfl | ⟨n, rfl, hn⟩
  · exact ⟨default, rfl, fun _ => holds_iff.mpr hdefault⟩
  · exact ⟨_, rfl, fun hfits => holds_iff.mpr ⟨isFinite_of_fits (hfits _ rfl), hn⟩⟩

variable {α : Type}

theorem Walk.exists_lookup {choices : List (String × α)} {s : String}
    (h : s ∈ choices.map (·.1)) : ∃ a, choices.lookup s = some a := by
  induction choices with
  | nil => cases h
  | cons c rest ih =>
    rw [List.lookup_cons]
    by_cases hs : s = c.1
    · rw [hs, beq_self_eq_true]
      exact ⟨_, rfl⟩
    · rw [beq_eq_false_iff_ne.mpr hs]
      exact ih ((List.mem_cons.mp h).resolve_left hs)

/-- A name that passes is decoded to its choice. -/
theorem Walk.optional_choice (choices : List (String × α))
    (h : Rule.optionalOneOf (choices.map (·.1)) v = none) (default : α) :
    ∃ a, optional v default (choice? choices) = some a := by
  rcases optionalOneOf_eq_none.mp h with rfl | ⟨s, hs, rfl⟩
  · exact ⟨default, rfl⟩
  · exact exists_lookup hs

theorem Walk.required_choice (choices : List (String × α))
    (h : Rule.oneOf (choices.map (·.1)) v = none) :
    ∃ a, required v (choice? choices) = some a := by
  obtain ⟨s, hs, rfl⟩ := oneOf_eq_none.mp h
  exact exists_lookup hs

theorem Walk.natural?_ofNat {n limit : Nat} (h : n < limit) :
    natural? limit (.ofNat n) = some n := by
  rw [Json.ofNat, Json.ofInt, natural?, if_pos ⟨by omega, by omega⟩]
  rfl

/-- A counter that passes is decoded, and is not zero. -/
theorem Walk.required_natural (h : counterRule v = none) :
    ∃ n : UInt32, v = some (.ofNat n.toNat) ∧ 1 ≤ n ∧
      required v (natural? UInt32.size) = some n.toNat := by
  obtain ⟨n, rfl, hlow, hhigh⟩ := counterRule_eq_none.mp h
  have hn : n.toUInt32.toNat = n := UInt32.toNat_ofNat_of_lt' hhigh
  refine ⟨n.toUInt32, by rw [hn], ?_, ?_⟩
  · rw [UInt32.le_iff_toNat_le, hn]
    exact hlow
  · rw [required, Option.bind_some, hn, natural?_ofNat hhigh]

/-- Nothing is found in an identifier exactly if it is a string with characters. -/
theorem Walk.clean_identifier {obj : Json} {path : String} : Clean (identifier obj path) ↔
    ∃ s, obj.get? "id" = some (.string s) ∧ s ≠ "" := by
  have hname : Clean (identifier obj path) ↔ Rule.name (obj.get? "id") = none := by
    unfold identifier
    split
    · rename_i s hs
      by_cases hempty : s = ""
      · simp [hs, hempty, Rule.name]
      · simp [hs, hempty, Rule.name, Clean]
    · exact clean_report
  rw [hname, name_eq_none]

end Fields

/-! ## Parts of components -/

section Parts
variable {v : Option Json} {path : String}

/-- A binding without findings decodes to a valid one. -/
theorem Walk.required_binding (h : Clean (binding v path)) (hn : ∀ w, v = some w → w.IsNormal) :
    ∃ b, required v Binding.ofJson? = some b ∧ b.Valid := by
  rw [binding, clean_object] at h
  obtain ⟨members, rfl, h⟩ := h
  rw [clean_append, clean_field, clean_field] at h
  obtain ⟨hpath, hfallback⟩ := h
  obtain ⟨s, hs, hne⟩ := required_string hpath
  obtain ⟨fallback, hf⟩ := optional_string hfallback ""
  refine ⟨⟨s, fallback⟩, ?_, hne⟩
  rw [required, Option.bind_some, Binding.ofJson?, fields?_of_isNormal (hn _ rfl)]
  simp [hs, hf]

/-- A position without findings decodes to a valid one. -/
theorem Walk.required_position (h : Clean (position v path)) (hn : ∀ w, v = some w → w.IsNormal) :
    ∃ p, required v Position.ofJson? = some p ∧ ((∀ w, v = some w → w.Fits) → p.Valid) := by
  rw [position, clean_object] at h
  obtain ⟨members, rfl, h⟩ := h
  simp only [clean_append, clean_field] at h
  obtain ⟨⟨⟨hx, hy⟩, hwidth⟩, hheight⟩ := h
  obtain ⟨x, hx, hxValid⟩ := required_double hx
  obtain ⟨y, hy, hyValid⟩ := required_double hy
  obtain ⟨width, hwidth, hwidthValid⟩ := required_double hwidth
  obtain ⟨height, hheight, hheightValid⟩ := required_double hheight
  refine ⟨⟨x, y, width, height⟩, ?_, fun hfits => ?_⟩
  · rw [required, Option.bind_some, Position.ofJson?, fields?_of_isNormal (hn _ rfl)]
    simp [hx, hy, hwidth, hheight]
  · have hfits : ∀ {key} w, (Json.object members).get? key = some w → w.Fits :=
      fun _ => fits_of_get? (hfits _ rfl)
    exact ⟨hxValid hfits, hyValid hfits, hwidthValid hfits, hheightValid hfits⟩

/-- A style without findings decodes to a valid one. -/
theorem Walk.required_style (h : Clean (style v path)) (hn : ∀ w, v = some w → w.IsNormal) :
    ∃ s, required v TextStyle.ofJson? = some s ∧ ((∀ w, v = some w → w.Fits) → s.Valid) := by
  rw [style, clean_object] at h
  obtain ⟨members, rfl, h⟩ := h
  simp only [clean_append, clean_field] at h
  obtain ⟨⟨⟨⟨hfamily, hsize⟩, hweight⟩, hcolor⟩, halign⟩ := h
  obtain ⟨family, hfamily, hfamilyValid⟩ :=
    optional_fontFamily hfamily TextStyle.plain.fontFamily (by decide)
  obtain ⟨size, hsize, hsizeValid⟩ :=
    optional_double hsize TextStyle.plain.fontSize (by decide)
  obtain ⟨weight, hweight⟩ := optional_choice FontWeight.choices hweight TextStyle.plain.fontWeight
  obtain ⟨color, hcolor, hcolorValid⟩ :=
    optional_color hcolor TextStyle.plain.color (by decide)
  obtain ⟨align, halign⟩ := optional_choice Align.choices halign TextStyle.plain.align
  refine ⟨⟨family, size, weight, color, align⟩, ?_, fun hfits => ?_⟩
  · rw [required, Option.bind_some, TextStyle.ofJson?, fields?_of_isNormal (hn _ rfl)]
    simp [hfamily, hsize, hweight, hcolor, halign]
  · exact ⟨hfamilyValid, hsizeValid fun _ => fits_of_get? (hfits _ rfl), hcolorValid⟩

/-- A column without findings decodes to a valid one. -/
theorem Walk.decodes_column {w : Json} (h : Clean (column w path)) (hn : w.IsNormal) :
    ∃ c, TableColumn.ofJson? w = some c ∧ (w.Fits → c.Valid) := by
  rw [column, clean_object] at h
  obtain ⟨members, hw, h⟩ := h
  cases hw
  simp only [clean_append, clean_field] at h
  obtain ⟨⟨⟨hid, hheader⟩, hwidth⟩, hbinding⟩ := h
  obtain ⟨id, hid, hidValid⟩ := required_string hid
  obtain ⟨header, hheader, hheaderValid⟩ := required_string hheader
  obtain ⟨width, hwidth, hwidthValid⟩ := required_double hwidth
  obtain ⟨binding, hbinding, hbindingValid⟩ :=
    required_binding hbinding fun _ => isNormal_of_get? hn
  refine ⟨⟨id, header, width, binding⟩, ?_, fun hfits => ?_⟩
  · rw [TableColumn.ofJson?, fields?_of_isNormal hn]
    simp [hid, hheader, hwidth, hbinding]
  · exact ⟨hidValid, hheaderValid, hwidthValid fun _ => fits_of_get? hfits, hbindingValid⟩

/-- Items that can all be decoded are decoded in order. -/
theorem Walk.mapM_of_forall {α : Type} {decode : Json → Option α} {R : α → Json → Prop}
    {values : List Json} (h : ∀ w ∈ values, ∃ a, decode w = some a ∧ R a w) :
    ∃ as, values.mapM decode = some as ∧ List.Forall₂ R as values := by
  induction values with
  | nil => exact ⟨[], rfl, .nil⟩
  | cons w rest ih =>
    obtain ⟨a, ha, hR⟩ := h w List.mem_cons_self
    obtain ⟨as, has, hRs⟩ := ih fun x hx => h x (List.mem_cons_of_mem w hx)
    refine ⟨a :: as, ?_, .cons hR hRs⟩
    rw [List.mapM_cons, ha, Option.bind_eq_bind, Option.bind_some, has]
    rfl

/-- What stands in one of two matching lists has a partner in the other. -/
theorem exists_of_forall₂ {α β : Type} {R : α → β → Prop} {as : List α} {bs : List β}
    (h : List.Forall₂ R as bs) {a : α} (ha : a ∈ as) : ∃ b ∈ bs, R a b := by
  induction h with
  | nil => cases ha
  | cons hab _ ih =>
    rcases List.mem_cons.mp ha with rfl | ha
    · exact ⟨_, List.mem_cons_self, hab⟩
    · obtain ⟨b, hb, hR⟩ := ih ha
      exact ⟨b, List.mem_cons_of_mem _ hb, hR⟩

/-- Columns without findings decode to valid ones, and there is one at least. -/
theorem Walk.required_columns (h : Clean (columns v path)) (hn : ∀ w, v = some w → w.IsNormal) :
    ∃ cs, required v (list? TableColumn.ofJson?) = some cs ∧
      ((∀ w, v = some w → w.Fits) → cs ≠ [] ∧ ∀ c ∈ cs, c.Valid) := by
  obtain ⟨values, rfl, hne, hclean⟩ := clean_columns h
  have hcolumns : ∀ w ∈ values, ∃ c, TableColumn.ofJson? w = some c ∧ (w.Fits → c.Valid) := by
    intro w hw
    obtain ⟨p, hp⟩ := hclean w hw
    exact decodes_column hp (isNormal_of_mem_array (hn _ rfl) hw)
  obtain ⟨cs, hcs, hvalid⟩ := mapM_of_forall hcolumns
  refine ⟨cs, hcs, fun hfits => ⟨?_, fun c hc => ?_⟩⟩
  · rintro rfl
    exact hne (List.forall₂_nil_left_iff.mp hvalid)
  · obtain ⟨w, hw, hcValid⟩ := exists_of_forall₂ hvalid hc
    exact hcValid (fits_of_mem_array (hfits _ rfl) hw)

/-- An absent content or binding may also be `null`. -/
theorem Walk.optional_present {α : Type} {decode : Json → Option α} {obj : Json} {key : String}
    (h : present obj key = none ∨ ∃ a, required (present obj key) decode = some a) :
    optional (obj.get? key) none (nullable? decode) =
      some (required (present obj key) decode) := by
  unfold present at h ⊢
  cases hget : obj.get? key with
  | none => rfl
  | some w =>
    cases w with
    | null => rfl
    | _ =>
      simp only [hget] at h
      rcases h with h | ⟨a, h⟩
      · cases h
      · rw [required, Option.bind_some] at h
        simp [Json.optional, nullable?, required, h]

end Parts

/-! ## Components of known kinds -/

section Kinds
variable {members : List (String × Json)} {path : String} {frame : Frame}

/-- A binding of a text is decoded, unless there is none. -/
theorem Walk.present_binding (hn : (Json.object members).IsNormal)
    (h : Clean (if (present (.object members) "binding").isSome then
      binding (present (.object members) "binding") path else [])) :
    present (.object members) "binding" = none ∨
      ∃ b, required (present (.object members) "binding") Binding.ofJson? = some b ∧ b.Valid := by
  cases hb : present (.object members) "binding" with
  | none => exact .inl rfl
  | some v =>
    have hget : (Json.object members).get? "binding" = some v := by
      unfold present at hb
      split at hb
      · cases hb
      · exact hb
    rw [hb, Option.isSome_some, if_pos rfl] at h
    refine .inr (required_binding h fun w hw => ?_)
    cases hw
    exact isNormal_of_get? hn hget

/-- A text without findings decodes to a valid one, with the frame that was decoded before. -/
theorem Walk.decodes_text (hn : (Json.object members).IsNormal)
    (hframe : Frame.ofFields? (fun name => (Json.object members).get? name) = some frame)
    (h : Clean (text (.object members) path)) :
    ∃ c, TextComponent.ofJson? (.object members) = some c ∧ c.toFrame = frame ∧
      ((Json.object members).Fits → (Component.text c).FieldsValid) := by
  simp only [text, clean_append, clean_report] at h
  obtain ⟨⟨⟨hcontent, hbinding⟩, heither⟩, hstyle⟩ := h
  obtain ⟨style, hstyle, hstyleValid⟩ := required_style hstyle fun _ => isNormal_of_get? hn
  rw [optionalString_eq_none] at hcontent
  have hbinding := present_binding hn hbinding
  have hcontentOf : optional _ none (nullable? string?) = some _ := optional_present <|
    hcontent.imp_right (Exists.imp fun s hs => by rw [hs]; rfl)
  have hbindingOf : optional _ none (nullable? Binding.ofJson?) = some _ :=
    optional_present (hbinding.imp_right (Exists.imp fun _ hb => hb.1))
  refine ⟨⟨frame, required (present (.object members) "content") string?,
    required (present (.object members) "binding") Binding.ofJson?, style⟩, ?_, rfl,
    fun hfits => ⟨?_, ?_, hstyleValid fun _ => fits_of_get? hfits⟩⟩
  · rw [TextComponent.ofJson?, fields?_of_isNormal hn]
    simp [hframe, hcontentOf, hbindingOf, hstyle]
  · rcases hbinding with hnone | ⟨b, hb, hvalid⟩
    · simp [Component.bindings, hnone, required]
    · simpa [Component.bindings, hb] using hvalid
  · rcases hbinding with hnone | ⟨b, hb, -⟩
    -- without a binding the fixed text is there and not empty
    · rcases hcontent with hc | ⟨s, hc⟩
      · simp [hnone, hc, isFilled] at heither
      · refine .inl ⟨s, by rw [hc]; rfl, ?_⟩
        rintro rfl
        simp [hnone, hc, isFilled] at heither
    · exact .inr ⟨b, hb⟩

theorem Walk.decodes_image (hn : (Json.object members).IsNormal)
    (hframe : Frame.ofFields? (fun name => (Json.object members).get? name) = some frame)
    (h : Clean (kindFields "image" (.object members) path)) :
    ∃ c, ImageComponent.ofJson? (.object members) = some c ∧ c.toFrame = frame ∧
      (Component.image c).FieldsValid := by
  simp only [kindFields, clean_append, clean_field] at h
  obtain ⟨hasset, hdescription⟩ := h
  obtain ⟨assetId, hasset, hassetValid⟩ := required_string hasset
  obtain ⟨description, hdescription⟩ := optional_string hdescription ""
  refine ⟨⟨frame, assetId, description⟩, ?_, rfl, List.forall_mem_nil _, hassetValid⟩
  rw [ImageComponent.ofJson?, fields?_of_isNormal hn]
  simp [hframe, hasset, hdescription]

theorem Walk.decodes_divider (hn : (Json.object members).IsNormal)
    (hframe : Frame.ofFields? (fun name => (Json.object members).get? name) = some frame)
    (h : Clean (kindFields "divider" (.object members) path)) :
    ∃ c, DividerComponent.ofJson? (.object members) = some c ∧ c.toFrame = frame ∧
      ((Json.object members).Fits → (Component.divider c).FieldsValid) := by
  simp only [kindFields, clean_append, clean_field] at h
  obtain ⟨hwidth, hcolor⟩ := h
  obtain ⟨strokeWidth, hwidth, hwidthValid⟩ := optional_double hwidth 1 (by decide)
  obtain ⟨color, hcolor, hcolorValid⟩ := optional_color hcolor black (by decide)
  refine ⟨⟨frame, strokeWidth, color⟩, ?_, rfl, fun hfits => ?_⟩
  · rw [DividerComponent.ofJson?, fields?_of_isNormal hn]
    simp [hframe, hwidth, hcolor]
  · exact ⟨List.forall_mem_nil _, hwidthValid fun _ => fits_of_get? hfits, hcolorValid⟩

/-- A table without findings decodes to a valid one, with the frame that was decoded before. -/
theorem Walk.decodes_table (hn : (Json.object members).IsNormal)
    (hframe : Frame.ofFields? (fun name => (Json.object members).get? name) = some frame)
    (h : Clean (table (.object members) path)) :
    ∃ c, TableComponent.ofJson? (.object members) = some c ∧ c.toFrame = frame ∧
      ((Json.object members).Fits → (Component.table c).FieldsValid) := by
  rw [table, clean_append] at h
  obtain ⟨hrow, hcolumns⟩ := h
  obtain ⟨rowBinding, hrow, hrowValid⟩ := required_binding hrow fun _ => isNormal_of_get? hn
  obtain ⟨columns, hcolumns, hcolumnsValid⟩ :=
    required_columns hcolumns fun _ => isNormal_of_get? hn
  refine ⟨⟨frame, rowBinding, columns⟩, ?_, rfl, fun hfits => ?_⟩
  · rw [TableComponent.ofJson?, fields?_of_isNormal hn]
    simp [hframe, hrow, hcolumns]
  · obtain ⟨hne, hvalid⟩ := hcolumnsValid fun _ => fits_of_get? hfits
    refine ⟨List.forall_mem_cons.mpr ⟨hrowValid, ?_⟩, hne, hvalid⟩
    exact List.forall_mem_map.mpr fun c hc => (hvalid c hc).binding

theorem Walk.decodes_totals (hn : (Json.object members).IsNormal)
    (hframe : Frame.ofFields? (fun name => (Json.object members).get? name) = some frame)
    (h : Clean (kindFields "totals" (.object members) path)) :
    ∃ c, TotalsComponent.ofJson? (.object members) = some c ∧ c.toFrame = frame ∧
      (Component.totals c).FieldsValid := by
  simp only [kindFields, clean_append, clean_field] at h
  obtain ⟨hlabel, hamount⟩ := h
  obtain ⟨label, hlabel⟩ := optional_string hlabel "Total"
  obtain ⟨amount, hamount, hamountValid⟩ := required_binding hamount fun _ => isNormal_of_get? hn
  refine ⟨⟨frame, label, amount⟩, ?_, rfl, List.forall_mem_singleton.mpr hamountValid, trivial⟩
  rw [TotalsComponent.ofJson?, fields?_of_isNormal hn]
  simp [hframe, hlabel, hamount]

theorem Walk.decodes_payment (hn : (Json.object members).IsNormal)
    (hframe : Frame.ofFields? (fun name => (Json.object members).get? name) = some frame)
    (h : Clean (kindFields "payment" (.object members) path)) :
    ∃ c, PaymentComponent.ofJson? (.object members) = some c ∧ c.toFrame = frame ∧
      (Component.payment c).FieldsValid := by
  simp only [kindFields, clean_append, clean_field] at h
  obtain ⟨hinstruction, haccount⟩ := h
  obtain ⟨instruction, hinstruction, hinstructionValid⟩ := required_string hinstruction
  obtain ⟨account, haccount, haccountValid⟩ :=
    required_binding haccount fun _ => isNormal_of_get? hn
  refine ⟨⟨frame, instruction, account⟩, ?_, rfl, List.forall_mem_singleton.mpr haccountValid,
    hinstructionValid⟩
  rw [PaymentComponent.ofJson?, fields?_of_isNormal hn]
  simp [hframe, hinstruction, haccount]

theorem Walk.decodes_callout (hn : (Json.object members).IsNormal)
    (hframe : Frame.ofFields? (fun name => (Json.object members).get? name) = some frame)
    (h : Clean (kindFields "callout" (.object members) path)) :
    ∃ c, CalloutComponent.ofJson? (.object members) = some c ∧ c.toFrame = frame ∧
      (Component.callout c).FieldsValid := by
  simp only [kindFields, clean_append, clean_field] at h
  obtain ⟨htitle, hbody⟩ := h
  obtain ⟨title, htitle, htitleValid⟩ := required_string htitle
  obtain ⟨body, hbody, hbodyValid⟩ := required_string hbody
  refine ⟨⟨frame, title, body⟩, ?_, rfl, List.forall_mem_nil _, htitleValid, hbodyValid⟩
  rw [CalloutComponent.ofJson?, fields?_of_isNormal hn]
  simp [hframe, htitle, hbody]

end Kinds

/-! ## Components -/

section Components
variable {members : List (String × Json)} {path : String}

/-- The members of an object that are not its kind. -/
def Json.withoutKind (members : List (String × Json)) : List (String × Json) :=
  members.filter (·.1 != "type")

theorem Json.isNormal_withoutKind (hn : (Json.object members).IsNormal) :
    (Json.object (withoutKind members)).IsNormal := by
  obtain ⟨hsorted, hmembers⟩ := isNormal_object_iff.mp hn
  exact isNormal_object_iff.mpr
    ⟨hsorted.filter _, fun m hm => hmembers m (List.mem_filter.mp hm).1⟩

theorem Json.fits_withoutKind (hfits : (Json.object members).Fits) :
    (Json.object (withoutKind members)).Fits :=
  fitsMembers_iff.mpr fun m hm => fitsMembers_iff.mp hfits m (List.mem_filter.mp hm).1

theorem Json.get?_withoutKind {key : String} (h : key ≠ "type") (members : List (String × Json)) :
    (Json.object (withoutKind members)).get? key = (Json.object members).get? key := by
  rw [get?, get?, withoutKind, lookup_filter (· != "type"), if_pos (bne_iff_ne.mpr h)]

/-- A member that occurs once is all there is under its key. -/
theorem Json.filter_eq_of_lookup {key : String} {v : Json}
    (hcount : members.countP (·.1 == key) ≤ 1) (h : members.lookup key = some v) :
    members.filter (·.1 == key) = [(key, v)] := by
  have hmem : (key, v) ∈ members.filter (·.1 == key) :=
    List.mem_filter.mpr ⟨mem_of_lookup h, by simp⟩
  rw [List.countP_eq_length_filter] at hcount
  have hpos := List.length_pos_of_mem hmem
  obtain ⟨m, hm⟩ := List.length_eq_one_iff.mp (by omega : (members.filter (·.1 == key)).length = 1)
  rw [hm, List.mem_singleton] at hmem
  rw [hm, hmem]

/-- In a normal form the tag is the only member under its key. -/
theorem Component.tagged?_of_isNormal {tag : Json} (hn : (Json.object members).IsNormal)
    (h : (Json.object members).get? "type" = some tag) :
    tagged? (.object members) = some (tag, .object (withoutKind members)) := by
  have hcount : members.countP (·.1 == "type") ≤ 1 := count_le_one_of_isNormal hn "type"
  rw [tagged?, filter_eq_of_lookup hcount h]
  rfl

/-- A walk over the fields of a kind does not look at the kind again. -/
theorem Walk.kindFields_withoutKind (kind : String) (members : List (String × Json))
    (path : String) : kindFields kind (.object (withoutKind members)) path =
      kindFields kind (.object members) path := by
  have hget : ∀ key, key ≠ "type" →
      (Json.object (withoutKind members)).get? key = (Json.object members).get? key :=
    fun key h => get?_withoutKind h members
  have hpresent : ∀ key, key ≠ "type" →
      present (.object (withoutKind members)) key = present (.object members) key := by
    intro key h
    rw [present, hget key h, present]
  unfold kindFields
  split <;> simp [text, table, field, hpresent, hget]

/-- Whether a component has the kind and the identifier of a value, and is unknown exactly if its
kind is. -/
def Component.Matches (c : Component) (v : Json) : Prop :=
  v.get? "type" = some (.string c.kind) ∧ v.get? "id" = some (.string c.id) ∧
    ((∃ u, c = .unknown u) ↔ c.kind ∉ componentKinds)

/-- Whether the fields of an unknown component are as they are kept: in order, each key once,
without kind and identifier. -/
def Component.Stored (c : Component) : Prop :=
  c.Plain ∧ ∀ u, c = .unknown u → (Json.object u.fields).IsNormal

/-- What is known of a component that was decoded from a value that passes the walk. -/
structure Component.Decoded (c : Component) (v : Json) : Prop where
  agrees : c.Matches v
  stored : c.Stored
  id : c.id ≠ ""
  valid : v.Fits → c.Valid

/-- **A component of a known kind without findings decodes to one of that kind.** -/
theorem Component.decodes_known {k : String} {frame : Frame} (hk : k ∈ componentKinds)
    (hn : (Json.object members).IsNormal)
    (hkind : (Json.object members).get? "type" = some (.string k))
    (hframe : Frame.ofFields? (fun name => (Json.object (withoutKind members)).get? name) =
      some frame) (h : Clean (kindFields k (.object members) path)) :
    ∃ c, ofKnown? (.object members) = some c ∧ c.kind = k ∧ c.frame? = some frame ∧
      ((Json.object members).Fits → c.FieldsValid) := by
  have hrest := isNormal_withoutKind hn
  have hfits : (Json.object members).Fits → (Json.object (withoutKind members)).Fits :=
    fits_withoutKind
  rw [← kindFields_withoutKind] at h
  rw [ofKnown?, tagged?_of_isNormal hn hkind]
  simp only [componentKinds, List.mem_cons, List.not_mem_nil, or_false] at hk
  rcases hk with rfl | rfl | rfl | rfl | rfl | rfl | rfl
  · obtain ⟨c, hc, rfl, hvalid⟩ := decodes_text hrest hframe h
    exact ⟨.text c, by simp [knownKind?, componentKinds, hc], rfl, rfl, hvalid ∘ hfits⟩
  · obtain ⟨c, hc, rfl, hvalid⟩ := decodes_image hrest hframe h
    exact ⟨.image c, by simp [knownKind?, componentKinds, hc], rfl, rfl, fun _ => hvalid⟩
  · obtain ⟨c, hc, rfl, hvalid⟩ := decodes_divider hrest hframe h
    exact ⟨.divider c, by simp [knownKind?, componentKinds, hc], rfl, rfl, hvalid ∘ hfits⟩
  · obtain ⟨c, hc, rfl, hvalid⟩ := decodes_table hrest hframe h
    exact ⟨.table c, by simp [knownKind?, componentKinds, hc], rfl, rfl, hvalid ∘ hfits⟩
  · obtain ⟨c, hc, rfl, hvalid⟩ := decodes_totals hrest hframe h
    exact ⟨.totals c, by simp [knownKind?, componentKinds, hc], rfl, rfl, fun _ => hvalid⟩
  · obtain ⟨c, hc, rfl, hvalid⟩ := decodes_payment hrest hframe h
    exact ⟨.payment c, by simp [knownKind?, componentKinds, hc], rfl, rfl, fun _ => hvalid⟩
  · obtain ⟨c, hc, rfl, hvalid⟩ := decodes_callout hrest hframe h
    exact ⟨.callout c, by simp [knownKind?, componentKinds, hc], rfl, rfl, fun _ => hvalid⟩

/-- An unknown component keeps all fields of a value but kind and identifier. -/
theorem Component.decodes_unknown {k id : String} (hk : k ∉ componentKinds)
    (hn : (Json.object members).IsNormal)
    (hkind : (Json.object members).get? "type" = some (.string k))
    (hid : (Json.object members).get? "id" = some (.string id)) :
    ∃ u, Component.ofJson? (.object members) = some (.unknown u) ∧ u.kind = k ∧ u.id = id ∧
      (Component.unknown u).Stored := by
  have hnone : ofKnown? (.object members) = none := by
    rw [ofKnown?, tagged?_of_isNormal hn hkind]
    simp [knownKind?, hk]
  refine ⟨⟨k, id, sortMembers (normalizeMembers
    (members.filter fun m => m.1 != "type" && m.1 != "id"))⟩, ?_, rfl, rfl, ?_, ?_⟩
  · rw [ofJson?, hnone, UnknownComponent.ofJson?, fields?_of_isNormal hn]
    simp [members?, hkind, hid, required, Json.optional, string?]
  · rintro u ⟨⟩
    refine ⟨hk, fun m hm => ?_⟩
    have hm := mem_of_mem_sortMembers hm
    rw [normalizeMembers_eq_map, List.mem_map] at hm
    obtain ⟨m', hm', rfl⟩ := hm
    simpa using (List.mem_filter.mp hm').2
  · rintro u ⟨⟩
    have hnormal := isNormal_normalize
      (.object (members.filter fun m => m.1 != "type" && m.1 != "id"))
    rwa [Json.normalize] at hnormal

/-- A component with a frame is of a known kind. -/
theorem Component.ne_unknown_of_frame? {c : Component} {frame : Frame} (h : c.frame? = some frame) :
    ∀ u, c ≠ .unknown u := by
  rintro u rfl
  cases h

theorem Component.id_of_frame? {c : Component} {frame : Frame} (h : c.frame? = some frame) :
    c.id = frame.id := by
  cases c with
  | unknown u => cases h
  | _ => cases h; rfl

/-- **A component that passes the walk is decoded**, as its kind if that is known. -/
theorem Component.decodes {v : Json} (h : Clean (component v path)) (hn : v.IsNormal) :
    ∃ c, Component.ofJson? v = some c ∧ c.Decoded v := by
  rw [component, clean_object] at h
  obtain ⟨members, hv, h⟩ := h
  cases hv
  rw [clean_append] at h
  obtain ⟨hid, hkind⟩ := h
  obtain ⟨id, hid, hne⟩ := clean_identifier.mp hid
  unfold Walk.kind at hkind
  split at hkind
  · simp at hkind
  · rename_i k hk
    split at hkind
    -- a known kind: its decoder succeeds on the other members
    · rename_i hknown
      rw [clean_append] at hkind
      obtain ⟨hposition, hfields⟩ := hkind
      obtain ⟨p, hp, hpValid⟩ := required_position hposition fun _ => isNormal_of_get? hn
      have hframe : Frame.ofFields? (fun name => (Json.object (withoutKind members)).get? name) =
          some ⟨id, p⟩ := by
        have hrequired : required ((Json.object members).get? "id") string? = some id := by
          rw [hid]
          rfl
        simp [Frame.ofFields?, get?_withoutKind, hrequired, hp]
      obtain ⟨c, hc, rfl, hcframe, hcValid⟩ :=
        decodes_known (List.contains_iff_mem.mp hknown) hn hk hframe hfields
      have hcid : c.id = id := id_of_frame? hcframe
      have hcknown := ne_unknown_of_frame? hcframe
      refine ⟨c, by rw [ofJson?, hc], ⟨hk, by rw [hid, hcid], ?_⟩, ⟨?_, ?_⟩, hcid ▸ hne,
        fun hfits => ⟨hcValid hfits, hcid ▸ hne, ?_⟩⟩
      · simp [hcknown, List.contains_iff_mem.mp hknown]
      · exact fun u hu => absurd hu (hcknown u)
      · exact fun u hu => absurd hu (hcknown u)
      · intro q hq
        rw [position?, hcframe, Option.map_some, Option.some.injEq] at hq
        exact hq ▸ hpValid fun _ => fits_of_get? hfits
    -- any other kind: no known decoder is tried, and the rest is kept
    · rename_i hunknown
      have hunknown := List.contains_iff_mem.not.mp hunknown
      obtain ⟨u, hu, rfl, rfl, hstored⟩ := decodes_unknown hunknown hn hk hid
      refine ⟨.unknown u, hu, ⟨hk, hid, ?_⟩, hstored, hne, fun _ => ⟨⟨?_, trivial⟩, hne, ?_⟩⟩
      · simpa [Component.kind] using hunknown
      · exact List.forall_mem_nil _
      · exact fun _ hq => nomatch hq
  · simp at hkind

end Components

/-! ## Regions, pages, templates -/

section Templates
variable {path : String}

/-- The items of an array; anything else has none. -/
def Json.itemsOf : Option Json → List Json
  | some (.array items) => items
  | _ => []

/-- Whether a region has the components of a value, in their order. -/
def Region.Matches (r : Region) (v : Option Json) : Prop :=
  List.Forall₂ Component.Matches r.components (itemsOf (v.bind (get? "components")))

/-- Whether a page has the components of a value, region by region. -/
def Page.Matches (p : Page) (v : Json) : Prop :=
  p.header.Matches (v.get? "header") ∧ p.body.Matches (v.get? "body") ∧
    p.footer.Matches (v.get? "footer")

/-- Whether a template has the pages and components of a value. -/
def Template.Matches (t : Template) (v : Json) : Prop :=
  List.Forall₂ Page.Matches t.pages (itemsOf (v.get? "pages"))

/-- A region whose components were decoded from a value. -/
def Region.Decoded (r : Region) (v : Option Json) : Prop :=
  List.Forall₂ Component.Decoded r.components (itemsOf (v.bind (get? "components")))

/-- What is known of a page that was decoded from a value that passes the walk. -/
structure Page.Decoded (p : Page) (v : Json) : Prop where
  id : p.id ≠ ""
  number : v.get? "pageNumber" = some (.ofNat p.pageNumber.toNat)
  numbered : 1 ≤ p.pageNumber
  header : p.header.Decoded (v.get? "header")
  body : p.body.Decoded (v.get? "body")
  footer : p.footer.Decoded (v.get? "footer")

/-- What is known of a template that was decoded from a value that passes the walk. -/
structure Template.Decoded (t : Template) (v : Json) : Prop extends FieldsValid t where
  nonempty : t.pages ≠ []
  pages : List.Forall₂ Page.Decoded t.pages (itemsOf (v.get? "pages"))

theorem Region.Decoded.agrees {r : Region} {v : Option Json} (h : r.Decoded v) : r.Matches v :=
  List.Forall₂.imp (fun _ _ hc => hc.agrees) h

/-- What was decoded matches the value that it comes from. -/
theorem Template.Decoded.agrees {t : Template} {v : Json} (h : t.Decoded v) : t.Matches v :=
  h.pages.imp fun _ _ hp => ⟨hp.header.agrees, hp.body.agrees, hp.footer.agrees⟩

/-- A region without findings decodes, component by component. -/
theorem Region.decodes {v : Option Json} (h : Clean (region v path))
    (hn : ∀ w, v = some w → w.IsNormal) :
    ∃ r, required v Region.ofJson? = some r ∧ r.Decoded v := by
  obtain ⟨members, rfl, hclean⟩ := clean_region h
  have hn : (Json.object members).IsNormal := hn _ rfl
  rw [required, Option.bind_some, Region.ofJson?, fields?_of_isNormal hn]
  rcases hclean with hnone | ⟨values, hvalues, hclean⟩
  · refine ⟨⟨[]⟩, by simp [hnone, Json.optional], ?_⟩
    simp [Region.Decoded, hnone, itemsOf]
  · have hcomponents : ∀ w ∈ values, ∃ c, Component.ofJson? w = some c ∧ c.Decoded w := by
      intro w hw
      obtain ⟨p, hp⟩ := hclean w hw
      exact Component.decodes hp (isNormal_of_mem_array (isNormal_of_get? hn hvalues) hw)
    obtain ⟨components, hdecoded, hmatches⟩ := mapM_of_forall hcomponents
    refine ⟨⟨components⟩, by simp [hvalues, Json.optional, list?, hdecoded], ?_⟩
    simpa [Region.Decoded, hvalues, itemsOf] using hmatches

/-- A page without findings decodes, region by region. -/
theorem Page.decodes {v : Json} (h : Clean (page v path)) (hn : v.IsNormal) :
    ∃ p, Page.ofJson? v = some p ∧ p.Decoded v := by
  rw [page, clean_object] at h
  obtain ⟨members, hv, h⟩ := h
  cases hv
  simp only [clean_append, clean_field] at h
  obtain ⟨⟨⟨⟨⟨hid, hnumber⟩, hsize⟩, hheader⟩, hbody⟩, hfooter⟩ := h
  have hcounter : counterRule ((Json.object members).get? "pageNumber") = none := by
    unfold Walk.number at hnumber
    unfold counterRule
    split at hnumber
    · rfl
    · simp at hnumber
  have hsize : Rule.optionalOneOf (PageSize.choices.map (·.1)) ((Json.object members).get? "size") =
      none := by
    obtain ⟨s, hs, hget⟩ := oneOf_eq_none.mp hsize
    exact optionalOneOf_eq_none.mpr (.inr ⟨s, hs, hget⟩)
  obtain ⟨id, hid, hne⟩ := required_string hid
  obtain ⟨n, hget, hn1, hn'⟩ := required_natural hcounter
  obtain ⟨size, hsize⟩ := optional_choice PageSize.choices hsize .a4
  obtain ⟨header, hheader, hheaderDecoded⟩ := Region.decodes hheader fun _ => isNormal_of_get? hn
  obtain ⟨body, hbody, hbodyDecoded⟩ := Region.decodes hbody fun _ => isNormal_of_get? hn
  obtain ⟨footer, hfooter, hfooterDecoded⟩ := Region.decodes hfooter fun _ => isNormal_of_get? hn
  refine ⟨⟨id, n, size, header, body, footer⟩, ?_, hne, hget, hn1, hheaderDecoded, hbodyDecoded,
    hfooterDecoded⟩
  rw [Page.ofJson?, fields?_of_isNormal hn]
  simp [hid, hn', hsize, hheader, hbody, hfooter]

/-- **A template that passes the walk is decoded**, with its pages and components in order. -/
theorem Template.decodes {v : Json} (h : Clean (Walk.template v)) (hn : v.IsNormal) :
    ∃ t, Template.ofJson? v = some t ∧ t.Decoded v := by
  rw [Walk.template, clean_object] at h
  obtain ⟨members, hv, h⟩ := h
  cases hv
  simp only [clean_append, clean_field] at h
  obtain ⟨⟨⟨⟨⟨⟨⟨⟨⟨hschema, htenant⟩, htemplate⟩, hname⟩, hdescription⟩, hstatus⟩, hversion⟩,
    hcreated⟩, hupdated⟩, hpages⟩ := h
  have hschema : required ((Json.object members).get? "schemaVersion") string? =
      some StatementPress.schemaVersion := by
    rw [version_eq_none.mp hschema]
    rfl
  obtain ⟨tenant, htenant, htenantValid⟩ := required_string htenant
  obtain ⟨template, htemplate, htemplateValid⟩ := required_string htemplate
  obtain ⟨name, hname, hnameValid⟩ := required_string hname
  obtain ⟨description, hdescription⟩ := optional_string hdescription ""
  obtain ⟨status, hstatus⟩ := required_choice TemplateStatus.choices hstatus
  obtain ⟨version, -, hversionValid, hversion⟩ := required_natural hversion
  obtain ⟨created, hcreated, hcreatedValid⟩ := required_string hcreated
  obtain ⟨updated, hupdated, hupdatedValid⟩ := required_string hupdated
  obtain ⟨values, hvalues, hne, hpages⟩ := clean_pages hpages
  have hdecode : ∀ w ∈ values, ∃ p, Page.ofJson? w = some p ∧ p.Decoded w := by
    intro w hw
    obtain ⟨p, hp⟩ := hpages w hw
    exact Page.decodes hp (isNormal_of_mem_array (isNormal_of_get? hn hvalues) hw)
  obtain ⟨pages, hpages, hdecoded⟩ := mapM_of_forall hdecode
  have hpages : required ((Json.object members).get? "pages") (list? Page.ofJson?) =
      some pages := by
    rw [hvalues]
    exact hpages
  refine ⟨⟨StatementPress.schemaVersion, tenant, template, name, description, status, version,
    pages, created, updated⟩, ?_, ?_⟩
  · rw [Template.ofJson?, fields?_of_isNormal hn]
    simp [hschema, htenant, htemplate, hname, hdescription, hstatus, hversion, hpages, hcreated,
      hupdated]
  · refine ⟨⟨rfl, htenantValid, htemplateValid, hnameValid, hversionValid, hcreatedValid,
      hupdatedValid⟩, ?_, ?_⟩
    · rintro rfl
      exact hne (List.forall₂_nil_left_iff.mp hdecoded)
    · rw [hvalues]
      exact hdecoded

end Templates

end StatementPress
