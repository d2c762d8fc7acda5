import StatementPress.Proofs.Template.RepeatedFields
import StatementPress.Proofs.Template.Validity

/-!
# Encoding and decoding again

A valid template is decoded from its JSON value again.  For components of known kinds this is shown
of the value as it is written: it decodes, so it repeats no field, so its normal form decodes as
well.  An unknown component is put together again from its kind, its identifier and the fields it
came with.
-/

namespace StatementPress

open Json

/-! ## Parts of components -/

/-- A finite double is decoded as itself. -/
theorem Json.double?_ofBinary64 {x : Binary64} (h : x.isFinite = true) :
    double? (ofBinary64 x) = some x := by
  rw [ofBinary64, dif_pos h]
  rfl

/-- What is decoded item by item is decoded as a list. -/
theorem Json.mapM_map_of_forall {α : Type} {encode : α → Json} {decode : Json → Option α}
    {as : List α} (h : ∀ a ∈ as, decode (encode a) = some a) :
    (as.map encode).mapM decode = some as := by
  induction as with
  | nil => rfl
  | cons a as ih =>
    rw [List.map_cons, List.mapM_cons, h a List.mem_cons_self,
      ih fun b hb => h b (List.mem_cons_of_mem a hb)]
    rfl

/-- Decoding an object that repeats no field is decoding what stands under its keys. -/
theorem Json.bind_fields?_object {members : List (String × Json)} {names : List String}
    (h : (names.any fun name => decide (1 < members.countP (·.1 == name))) = false) {α : Type}
    (decode : (String → Option Json) → Option α) :
    ((object members).fields? names >>= decode) = decode fun name => members.lookup name := by
  rw [fields?, h]
  rfl

theorem Binding.ofJson?_toJson (b : Binding) : Binding.ofJson? b.toJson = some b := rfl

/-- A valid position is decoded as itself. -/
theorem Position.ofJson?_toJson {p : Position} (h : p.Valid) :
    Position.ofJson? p.toJson = some p := by
  have hx := double?_ofBinary64 h.x.1
  have hy := double?_ofBinary64 h.y.1
  have hwidth := double?_ofBinary64 h.width.1
  have hheight := double?_ofBinary64 h.height.1
  rw [Position.ofJson?, toJson, bind_fields?_object rfl]
  beta_reduce
  simp [List.lookup, required, hx, hy, hwidth, hheight]

/-- A valid style is decoded as itself. -/
theorem TextStyle.ofJson?_toJson {s : TextStyle} (h : s.Valid) :
    TextStyle.ofJson? s.toJson = some s := by
  have hsize := double?_ofBinary64 h.fontSize.1
  have hweight : choice? FontWeight.choices (.string s.fontWeight.name) = some s.fontWeight := by
    cases s.fontWeight <;> rfl
  have halign : choice? Align.choices (.string s.align.name) = some s.align := by
    cases s.align <;> rfl
  rw [TextStyle.ofJson?, toJson, bind_fields?_object rfl]
  beta_reduce
  simp [List.lookup, Json.optional, string?, hsize, hweight, halign]

theorem TableColumn.ofJson?_toJson {c : TableColumn} (h : c.Valid) :
    TableColumn.ofJson? c.toJson = some c := by
  have hwidth := double?_ofBinary64 h.width.1
  have hbinding := Binding.ofJson?_toJson c.binding
  rw [TableColumn.ofJson?, toJson, bind_fields?_object rfl]
  beta_reduce
  simp [List.lookup, required, string?, hwidth, hbinding]

/-! ## Components of known kinds -/

/-- Identifier and box are decoded from the members they are written as, whatever follows. -/
theorem Frame.ofFields?_toMembers {f : Frame} (h : f.position.Valid)
    (others : List (String × Json)) :
    Frame.ofFields? (fun name => (f.toMembers ++ others).lookup name) = some f := by
  have hposition := Position.ofJson?_toJson h
  rw [ofFields?, toMembers]
  simp [List.lookup, required, string?, hposition]

theorem TextComponent.ofJson?_toMembers {c : TextComponent} (h : (Component.text c).Valid) :
    TextComponent.ofJson? (.object c.toMembers) = some c := by
  have hposition := h.position _ rfl
  have hcontent : ∀ s, nullable? string? (.string s) = some (some s) := fun _ => rfl
  have hbinding : ∀ b : Binding, nullable? Binding.ofJson? b.toJson = some (some b) := fun _ => rfl
  have hstyle := TextStyle.ofJson?_toJson h.content.2
  rw [TextComponent.ofJson?, toMembers, List.append_assoc, List.append_assoc]
  obtain ⟨frame, content, binding, style⟩ := c
  cases content <;> cases binding <;>
    (rw [bind_fields?_object rfl, Frame.ofFields?_toMembers hposition]
     beta_reduce
     simp [Frame.toMembers, memberOf, List.lookup, required, Json.optional, hcontent, hbinding,
      hstyle])

theorem ImageComponent.ofJson?_toMembers {c : ImageComponent} (h : (Component.image c).Valid) :
    ImageComponent.ofJson? (.object c.toMembers) = some c := by
  rw [ImageComponent.ofJson?, toMembers, bind_fields?_object rfl,
    Frame.ofFields?_toMembers (h.position _ rfl)]
  beta_reduce
  simp [Frame.toMembers, List.lookup, required, Json.optional, string?]

theorem DividerComponent.ofJson?_toMembers {c : DividerComponent}
    (h : (Component.divider c).Valid) : DividerComponent.ofJson? (.object c.toMembers) = some c := by
  have hwidth := double?_ofBinary64 h.content.1.1
  rw [DividerComponent.ofJson?, toMembers, bind_fields?_object rfl,
    Frame.ofFields?_toMembers (h.position _ rfl)]
  beta_reduce
  simp [Frame.toMembers, List.lookup, Json.optional, string?, hwidth]

theorem TableComponent.ofJson?_toMembers {c : TableComponent} (h : (Component.table c).Valid) :
    TableComponent.ofJson? (.object c.toMembers) = some c := by
  have hrows := Binding.ofJson?_toJson c.rowBinding
  have hcolumns : list? TableColumn.ofJson? (.array (c.columns.map TableColumn.toJson)) =
      some c.columns :=
    mapM_map_of_forall fun column hcolumn => TableColumn.ofJson?_toJson (h.content.2 column hcolumn)
  rw [TableComponent.ofJson?, toMembers, bind_fields?_object rfl,
    Frame.ofFields?_toMembers (h.position _ rfl)]
  beta_reduce
  simp [Frame.toMembers, List.lookup, required, hrows, hcolumns]

theorem TotalsComponent.ofJson?_toMembers {c : TotalsComponent} (h : (Component.totals c).Valid) :
    TotalsComponent.ofJson? (.object c.toMembers) = some c := by
  have hamount := Binding.ofJson?_toJson c.amountBinding
  rw [TotalsComponent.ofJson?, toMembers, bind_fields?_object rfl,
    Frame.ofFields?_toMembers (h.position _ rfl)]
  beta_reduce
  simp [Frame.toMembers, List.lookup, required, Json.optional, string?, hamount]

theorem PaymentComponent.ofJson?_toMembers {c : PaymentComponent}
    (h : (Component.payment c).Valid) : PaymentComponent.ofJson? (.object c.toMembers) = some c := by
  have haccount := Binding.ofJson?_toJson c.accountBinding
  rw [PaymentComponent.ofJson?, toMembers, bind_fields?_object rfl,
    Frame.ofFields?_toMembers (h.position _ rfl)]
  beta_reduce
  simp [Frame.toMembers, List.lookup, required, string?, haccount]

theorem CalloutComponent.ofJson?_toMembers {c : CalloutComponent}
    (h : (Component.callout c).Valid) : CalloutComponent.ofJson? (.object c.toMembers) = some c := by
  rw [CalloutComponent.ofJson?, toMembers, bind_fields?_object rfl,
    Frame.ofFields?_toMembers (h.position _ rfl)]
  beta_reduce
  simp [Frame.toMembers, List.lookup, required, string?]

namespace Component

variable {c : Component}

/-- A component of a known kind is decoded from its value as it is written. -/
theorem ofKnown?_toJson (h : c.Valid) (hc : ∀ u, c ≠ .unknown u) : ofKnown? c.toJson = some c := by
  have hkind : ∀ k ms rest, tagged? (.object ms) = some (.string k, rest) → k ∈ componentKinds →
      ofKnown? (.object ms) = ofKind? rest k := by
    intro k ms rest htagged hk
    rw [ofKnown?_eq htagged, knownKind?, if_pos (List.contains_iff_mem.mpr hk), Option.bind_some]
  cases c with
  | text c =>
    have htagged : tagged? (Component.text c).toJson =
        some (.string "text", .object c.toMembers) := by
      obtain ⟨frame, content, binding, style⟩ := c
      cases content <;> cases binding <;> rfl
    rw [toJson, hkind _ _ _ htagged (by decide), ofKind?, TextComponent.ofJson?_toMembers h]
    rfl
  | image c =>
    rw [toJson, hkind "image" _ (.object c.toMembers) rfl (by decide), ofKind?,
      ImageComponent.ofJson?_toMembers h]
    rfl
  | divider c =>
    rw [toJson, hkind "divider" _ (.object c.toMembers) rfl (by decide), ofKind?,
      DividerComponent.ofJson?_toMembers h]
    rfl
  | table c =>
    rw [toJson, hkind "table" _ (.object c.toMembers) rfl (by decide), ofKind?,
      TableComponent.ofJson?_toMembers h]
    rfl
  | totals c =>
    rw [toJson, hkind "totals" _ (.object c.toMembers) rfl (by decide), ofKind?,
      TotalsComponent.ofJson?_toMembers h]
    rfl
  | payment c =>
    rw [toJson, hkind "payment" _ (.object c.toMembers) rfl (by decide), ofKind?,
      PaymentComponent.ofJson?_toMembers h]
    rfl
  | callout c =>
    rw [toJson, hkind "callout" _ (.object c.toMembers) rfl (by decide), ofKind?,
      CalloutComponent.ofJson?_toMembers h]
    rfl
  | unknown u => cases hc u rfl

/-- A valid component of a known kind is decoded as itself. -/
theorem ofKnown?_encoded (h : c.Valid) (hc : ∀ u, c ≠ .unknown u) :
    ofKnown? c.toJson.normalize = some c := by
  have hwritten := ofKnown?_toJson h hc
  have hrepeats : repeatsField c.toJson = false := by
    by_contra hrepeats
    rw [ofKnown?_of_repeatsField (Bool.not_eq_false _ ▸ hrepeats)] at hwritten
    cases hwritten
  cases htagged : tagged? c.toJson with
  | none =>
    rw [ofKnown?, htagged] at hwritten
    cases hwritten
  | some tagged => rw [ofKnown?_normalize htagged hrepeats, hwritten]

/-! ## Unknown components -/

/-- Sorted members are the fields of an unknown component again, once kind and identifier are
gone. -/
theorem fields_encoded {u : UnknownComponent} (h : (Component.unknown u).Stored) :
    (sortMembers (normalizeMembers u.toMembers)).filter (fun m => m.1 != "type" && m.1 != "id") =
      u.fields := by
  obtain ⟨hplain, hnormal⟩ := h
  have hfields : u.toMembers.filter (fun m => m.1 != "type" && m.1 != "id") = u.fields := by
    rw [UnknownComponent.toMembers, List.filter_cons_of_neg (by simp),
      List.filter_cons_of_neg (by simp), List.filter_eq_self]
    intro m hm
    simpa using (hplain u rfl).2 m hm
  have hfixed := normalize_eq_self (hnormal u rfl)
  rw [Json.normalize, Json.object.injEq] at hfixed
  rw [sortMembers_filter fun key => key != "type" && key != "id", hfields, hfixed]

/-- A component of an unknown kind is decoded as itself if no known kind takes it. -/
theorem ofJson?_unknown {u : UnknownComponent} (h : (Component.unknown u).Stored) :
    Component.ofJson? (Component.unknown u).toJson.normalize = some (.unknown u) := by
  have hnormal := isNormal_normalize (Component.unknown u).toJson
  have hkind := get?_kind h.1
  have hid := get?_id h.1
  have hfixed := normalize_eq_self (h.2 u rfl)
  rw [Json.normalize, Json.object.injEq] at hfixed
  rw [toJson, Json.normalize] at hnormal hkind hid ⊢
  have hnone : ofKnown? (.object (sortMembers (normalizeMembers u.toMembers))) = none := by
    rw [ofKnown?, tagged?_of_isNormal hnormal hkind]
    simp [knownKind?, Component.kind, (h.1 u rfl).1]
  rw [ofJson?, hnone, UnknownComponent.ofJson?, fields?_of_isNormal hnormal]
  simp [members?, hkind, hid, required, Json.optional, string?, fields_encoded h, hfixed,
    Component.kind, Component.id]

/-- **A valid component is decoded from its value again.** -/
theorem ofJson?_encoded (h : c.Valid) (hstored : c.Stored) :
    Component.ofJson? c.toJson.normalize = some c := by
  by_cases hc : ∃ u, c = .unknown u
  · obtain ⟨u, rfl⟩ := hc
    exact ofJson?_unknown hstored
  · rw [ofJson?, ofKnown?_encoded h (not_exists.mp hc)]

end Component

/-! ## Regions, pages, templates -/

/-- Decoding the normal form of an object is decoding what stands under its keys. -/
theorem Json.bind_fields?_encoded (v : Json) {members : List (String × Json)}
    (hv : v = .object members) (names : List String) {α : Type}
    (decode : (String → Option Json) → Option α) :
    (v.normalize.fields? names >>= decode) = decode fun name => v.normalize.get? name := by
  have hnormal := isNormal_normalize v
  subst hv
  rw [Json.normalize] at hnormal ⊢
  rw [fields?_of_isNormal hnormal names]
  rfl

theorem Json.required_ofString (s : String) : required (some (.string s)) string? = some s := rfl

theorem Json.required_ofCounter (n : UInt32) :
    required (some (.ofNat n.toNat)) (natural? UInt32.size) = some n.toNat := by
  rw [required, Option.bind_some, Walk.natural?_ofNat n.toNat_lt_size]

theorem Region.ofJson?_encoded {r : Region} (h : ∀ c ∈ r.components, c.Valid)
    (hstored : ∀ c ∈ r.components, c.Stored) : Region.ofJson? r.toJson.normalize = some r := by
  have hcomponents : list? Component.ofJson? (.array (r.components.map (·.toJson.normalize))) =
      some r.components :=
    mapM_map_of_forall fun c hc => Component.ofJson?_encoded (h c hc) (hstored c hc)
  rw [ofJson?, bind_fields?_encoded r.toJson rfl]
  simp [r.get?_components, Json.optional, hcomponents]

/-- A page of valid components is decoded as itself. -/
theorem Page.ofJson?_encoded {p : Page} (h : ∀ c ∈ p.regions.flatMap (·.2.components), c.Valid)
    (hstored : ∀ c ∈ p.regions.flatMap (·.2.components), c.Stored) :
    Page.ofJson? p.toJson.normalize = some p := by
  have hregion : ∀ part ∈ p.regions,
      required (some part.2.toJson.normalize) Region.ofJson? = some part.2 :=
    fun part hpart => Region.ofJson?_encoded
      (fun c hc => h c (List.mem_flatMap.mpr ⟨part, hpart, hc⟩))
      fun c hc => hstored c (List.mem_flatMap.mpr ⟨part, hpart, hc⟩)
  simp only [regions, List.forall_mem_cons] at hregion
  obtain ⟨hheader', hbody', hfooter', -⟩ := hregion
  obtain ⟨hid, hnumber, hsize, hheader, hbody, hfooter⟩ := p.get?_fields
  have hsize' : Json.optional (some (.string p.size.name)) .a4 (choice? PageSize.choices) =
      some p.size := by
    cases p.size
    rfl
  have hnumber' := required_ofCounter p.pageNumber
  rw [ofJson?, bind_fields?_encoded p.toJson rfl]
  simp only [hid, required_ofString, hnumber, hnumber', hsize, hsize', hheader, hheader', hbody,
    hbody', hfooter, hfooter']
  simp

/-- **A valid template is decoded from its value again.** -/
theorem Template.ofJson?_encoded {t : Template} (h : ∀ c ∈ t.components, c.Valid)
    (hstored : ∀ c ∈ t.components, c.Stored) : Template.ofJson? t.toJson.normalize = some t := by
  have hpages' : required (some (.array (t.pages.map (·.toJson.normalize)))) (list? Page.ofJson?) =
      some t.pages :=
    mapM_map_of_forall fun p hp => Page.ofJson?_encoded
      (fun c hc => h c (List.mem_flatMap.mpr ⟨p, hp, hc⟩))
      fun c hc => hstored c (List.mem_flatMap.mpr ⟨p, hp, hc⟩)
  obtain ⟨hschema, htenant, htemplate, hname, hdescription, hstatus, hversion, hcreated,
    hupdated⟩ := t.get?_fields
  have hdescription' : Json.optional (some (.string t.description)) "" string? =
      some t.description := rfl
  have hstatus' : required (some (.string t.status.name)) (choice? TemplateStatus.choices) =
      some t.status := by
    cases t.status <;> rfl
  have hversion' := required_ofCounter t.version
  rw [ofJson?, bind_fields?_encoded t.toJson rfl]
  simp only [hschema, htenant, htemplate, hname, hcreated, hupdated, required_ofString,
    hdescription, hdescription', hstatus, hstatus', hversion, hversion', t.get?_pages, hpages']
  simp

end StatementPress
