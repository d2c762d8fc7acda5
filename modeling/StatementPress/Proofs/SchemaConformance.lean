import StatementPress.Proofs.Schema.Fields
import StatementPress.Proofs.Stability

/-!
# What is written conforms to the schema

The schema that editors are given and the walk that checks a template are two descriptions of one
format.  Everything that is written conforms to the schema: the value of an accepted template does,
and each of its components does by exactly one of the kinds that the schema lists, known or not.  The
schema is read by the meaning of its keywords, its references in the only way there is; its definitions
are gone through from names up to templates.
-/

namespace StatementPress.Schema

open Json (ofBinary64 get?_encoded normalize_ofBinary64)

variable {refs : String → Json → Bool}

/-! ## Definitions -/

/-- A reference to a definition leads to it. -/
theorem referent?_definition :
    ∀ d ∈ definitions, referent? document ("#/definitions/" ++ d.1) = some d.2 := by
  simp only [definitions, List.forall_mem_cons]
  refine ⟨?_, ?_, ?_, ?_, ?_, ?_, ?_, ?_, List.forall_mem_nil _⟩
  all_goals cbv

/-- Every chain of references ends: from pages by way of regions, components and styles to colours. -/
theorem settles_document : ∀ target ∈ targets document, settles document 5 target = true := by
  have hall : (targets document).all (settles document 5) = true := by cbv
  exact List.all_eq_true.mp hall

/-- **The references of the schema can be read.** -/
theorem resolves_document : Resolves document (readings document 6) :=
  resolves_readings settles_document

/-- **And in one way only.** -/
theorem agreeOn_readings (hrefs : Resolves document refs) :
    AgreeOn refs (readings document 6) (targets document) := by
  intro target htarget v
  have hsettles := settles_document target htarget
  rw [hrefs.eq_readings hsettles, readings_succ hsettles]

/-- A reference accepts what the definition does. -/
theorem accepts_ref_of_lookup (hrefs : Resolves document refs) (name : String) {schema : Json}
    (h : definitions.lookup name = some schema) (more : Keywords) (v : Json) :
    accepts refs (ref name more) v = accepts refs schema v := by
  rw [accepts_ref]
  exact hrefs _ _ (referent?_definition _ (Json.mem_of_lookup h)) v

/-- An item that passes a test at one index only is the only one that passes it. -/
theorem countP_eq_one {α : Type} {p : α → Bool} {l : List α} {i : Nat} {a : α}
    (ha : l[i]? = some a) (hp : p a = true)
    (honly : ∀ j b, l[j]? = some b → p b = true → j = i) : l.countP p = 1 := by
  induction l generalizing i with
  | nil => cases ha
  | cons b l ih =>
    cases i with
    | zero =>
      rw [List.getElem?_cons_zero, Option.some.injEq] at ha
      subst ha
      have hrest : l.countP p = 0 := by
        rw [List.countP_eq_zero]
        intro c hc hpc
        obtain ⟨j, hj⟩ := List.getElem?_of_mem hc
        exact absurd (honly (j + 1) c (by rwa [List.getElem?_cons_succ]) hpc) (by omega)
      rw [List.countP_cons_of_pos hp, hrest]
    | succ i =>
      have hb : ¬ p b = true := fun hpb =>
        absurd (honly 0 b List.getElem?_cons_zero hpb) (by omega)
      rw [List.countP_cons_of_neg hb]
      refine ih (by rwa [List.getElem?_cons_succ] at ha) fun j c hj hpc => ?_
      exact Nat.succ.inj (honly (j + 1) c (by rwa [List.getElem?_cons_succ]) hpc)

/-! ## Which kind accepts -/

section Kinds

variable {v : Json} {named : String}

/-- The last branch accepts exactly what names no known kind. -/
theorem accepts_otherKinds_iff (hnamed : v.get? "type" = some (.string named)) :
    accepts refs (.object [("properties", .object [("type", .object [("not", oneOf componentKinds)])])])
        v = true ↔ named ∉ componentKinds := by
  have hnot : accepts refs (.object [("not", oneOf componentKinds)]) (.string named) = true ↔
      named ∉ componentKinds := by
    rw [accepts_object rfl, acceptsAll_not, acceptsAll_nil, Bool.and_true, Bool.not_eq_true',
      ← Bool.not_eq_true, accepts_oneOf_iff informs_nil]
    simp
  rw [accepts_object rfl, acceptsAll_properties, acceptsAll_nil, Bool.and_true, acceptsMembers_iff,
    List.forall_mem_singleton, ← hnot]
  exact ⟨fun h => h _ hnamed, accepts_field hnamed⟩

/-- **Only the branch for the kind that a value names can accept it.** -/
theorem index_of_accepts (hv : IsObject v) (hnamed : v.get? "type" = some (.string named)) {i : Nat}
    {branch : Json} (hbranch : kinds[i]? = some branch) (h : accepts refs branch v = true) :
    i = componentKinds.idxOf named := by
  have hi : i < 8 := (List.getElem?_eq_some_iff.mp hbranch).1
  rcases (by omega : i = 7 ∨ i < 7) with rfl | hknown
  · cases hbranch
    exact (List.idxOf_eq_length ((accepts_otherKinds_iff hnamed).mp h)).symm
  · interval_cases i
    all_goals
      cases hbranch
      obtain rfl := named_of_accepts hv rfl hnamed h
      rfl

end Kinds

/-! ## Parts of components -/

section Definitions

variable (hrefs : Resolves document refs)
include hrefs

/-- A string with characters is accepted where one is needed. -/
theorem accepts_nonEmpty {s : String} (h : s ≠ "") : accepts refs nonEmpty (.string s) = true := by
  rw [nonEmpty, accepts_ref_of_lookup hrefs "nonEmpty" rfl]
  exact accepts_filled informs_nil h

/-- A colour is accepted by the definition of colours. -/
theorem accepts_color {s : String} (h : IsColor s) (more : Keywords) :
    accepts refs (ref "color" more) (.string s) = true := by
  rw [accepts_ref_of_lookup hrefs "color" rfl, accepts_typed rfl, acceptsAll_pattern,
    matchesPattern_color h, acceptsAll_nil]
  rfl

/-- A valid position is accepted by the definition of positions. -/
theorem accepts_position {p : Position} (h : p.Valid) :
    accepts refs (ref "position") p.toJson.normalize = true := by
  have hx : p.toJson.normalize.get? "x" = some (ofBinary64 p.x) :=
    get?_encoded (congrArg some (normalize_ofBinary64 _))
  have hy : p.toJson.normalize.get? "y" = some (ofBinary64 p.y) :=
    get?_encoded (congrArg some (normalize_ofBinary64 _))
  have hwidth : p.toJson.normalize.get? "width" = some (ofBinary64 p.width) :=
    get?_encoded (congrArg some (normalize_ofBinary64 _))
  have hheight : p.toJson.normalize.get? "height" = some (ofBinary64 p.height) :=
    get?_encoded (congrArg some (normalize_ofBinary64 _))
  have hobject : IsObject p.toJson.normalize := ⟨_, rfl⟩
  rw [accepts_ref_of_lookup hrefs "position" rfl, accepts_object_iff hobject rfl]
  refine ⟨⟨by simp [hx, hy, hwidth, hheight], ?_⟩, acceptsAll_nil⟩
  simp only [List.forall_mem_cons]
  exact ⟨accepts_field hx (accepts_nonNegative h.x), accepts_field hy (accepts_nonNegative h.y),
    accepts_field hwidth (accepts_positive informs_nil h.width),
    accepts_field hheight (accepts_positive informs_nil h.height), List.forall_mem_nil _⟩

theorem accepts_binding {b : Binding} (h : b.Valid) :
    accepts refs (ref "binding") b.toJson.normalize = true := by
  have hpath : b.toJson.normalize.get? "path" = some (.string b.path) := get?_encoded rfl
  have hfallback : b.toJson.normalize.get? "fallback" = some (.string b.fallback) :=
    get?_encoded rfl
  have hobject : IsObject b.toJson.normalize := ⟨_, rfl⟩
  rw [accepts_ref_of_lookup hrefs "binding" rfl, accepts_object_iff hobject rfl]
  refine ⟨⟨by simp [hpath], ?_⟩, acceptsAll_nil⟩
  simp only [List.forall_mem_cons]
  exact ⟨accepts_field hpath (accepts_filled informs_nil h),
    accepts_field hfallback (accepts_optionalString "" _), List.forall_mem_nil _⟩

theorem accepts_style {s : TextStyle} (h : s.Valid) :
    accepts refs (ref "style") s.toJson.normalize = true := by
  have hfamily : s.toJson.normalize.get? "fontFamily" = some (.string s.fontFamily) :=
    get?_encoded rfl
  have hsize : s.toJson.normalize.get? "fontSize" = some (ofBinary64 s.fontSize) :=
    get?_encoded (congrArg some (normalize_ofBinary64 _))
  have hweight : s.toJson.normalize.get? "fontWeight" = some (.string s.fontWeight.name) :=
    get?_encoded rfl
  have hcolor : s.toJson.normalize.get? "color" = some (.string s.color) := get?_encoded rfl
  have halign : s.toJson.normalize.get? "align" = some (.string s.align.name) := get?_encoded rfl
  have hweightName : ∃ name ∈ ["normal", "bold"],
      Json.string s.fontWeight.name = .string name := by
    cases s.fontWeight <;> simp [FontWeight.name]
  have halignName : ∃ name ∈ ["left", "center", "right"],
      Json.string s.align.name = .string name := by
    cases s.align <;> simp [Align.name]
  have hobject : IsObject s.toJson.normalize := ⟨_, rfl⟩
  rw [accepts_ref_of_lookup hrefs "style" rfl, accepts_looseObject_iff hobject]
  refine ⟨List.forall_mem_nil _, ?_⟩
  simp only [List.forall_mem_cons]
  exact ⟨accepts_field hfamily (accepts_filled (informs_default _) h.fontFamily),
    accepts_field hsize (accepts_positive (informs_default _) h.fontSize),
    accepts_field hweight ((accepts_oneOf_iff (informs_default _)).mpr hweightName),
    accepts_field hcolor (accepts_color hrefs h.color _),
    accepts_field halign ((accepts_oneOf_iff (informs_default _)).mpr halignName),
    List.forall_mem_nil _⟩

theorem accepts_columns {cs : List TableColumn} (hne : cs ≠ []) (h : ∀ c ∈ cs, c.Valid) :
    accepts refs columns (.array (cs.map (·.toJson.normalize))) = true := by
  rw [columns, accepts_filledArray_iff, List.forall_mem_map]
  refine ⟨by simpa using hne, fun c hc => ?_⟩
  have hid : c.toJson.normalize.get? "id" = some (.string c.id) := get?_encoded rfl
  have hheader : c.toJson.normalize.get? "header" = some (.string c.header) := get?_encoded rfl
  have hwidth : c.toJson.normalize.get? "width" = some (ofBinary64 c.width) :=
    get?_encoded (congrArg some (normalize_ofBinary64 _))
  have hbinding : c.toJson.normalize.get? "binding" = some c.binding.toJson.normalize :=
    get?_encoded rfl
  have hvalid := h c hc
  have hobject : IsObject c.toJson.normalize := ⟨_, rfl⟩
  rw [accepts_object_iff hobject rfl]
  refine ⟨⟨by simp [hid, hheader, hwidth, hbinding], ?_⟩, acceptsAll_nil⟩
  simp only [List.forall_mem_cons]
  exact ⟨accepts_field hid (accepts_nonEmpty hrefs hvalid.id),
    accepts_field hheader (accepts_nonEmpty hrefs hvalid.header),
    accepts_field hwidth (accepts_positive informs_nil hvalid.width),
    accepts_field hbinding (accepts_binding hrefs hvalid.binding), List.forall_mem_nil _⟩

/-! ## Kinds of component -/

/-- A component with the fields of its kind is accepted by the kind. -/
theorem accepts_kindFields {c : Component} {p : Position} (hvalid : c.Valid) (hplain : c.Plain)
    (hposition : c.position? = some p) {properties more : Keywords} {required : List String}
    (hproperties : ∀ q ∈ properties, ∀ w, c.toJson.normalize.get? q.1 = some w →
      accepts refs q.2 w = true)
    (hrequired : ∀ key ∈ required, (c.toJson.normalize.get? key).isSome = true)
    (hreference : reference? more = none) (hmore : acceptsAll refs more c.toJson.normalize = true) :
    accepts refs (kindFields c.kind properties required more) c.toJson.normalize = true := by
  have hobject : IsObject c.toJson.normalize := by cases c <;> exact ⟨_, rfl⟩
  have hbox := Component.get?_position hposition
  rw [accepts_kindFields_iff hobject hreference]
  refine ⟨⟨List.forall_mem_cons.mpr ⟨by rw [hbox]; rfl, hrequired⟩, ?_⟩, hmore⟩
  exact List.forall_mem_cons.mpr ⟨accepts_field (Component.get?_kind hplain)
      (accepts_const_iff.mpr rfl), List.forall_mem_cons.mpr
    ⟨accepts_field hbox (accepts_position hrefs (hvalid.position p hposition)), hproperties⟩⟩

theorem accepts_text {c : TextComponent} (h : (Component.text c).Valid) :
    ∃ branch, kinds[0]? = some branch ∧
      accepts refs branch (Component.text c).toJson.normalize = true := by
  obtain ⟨hcontent, hbinding, hstyle⟩ := Component.get?_text c
  have hobject : IsObject (Component.text c).toJson.normalize := ⟨_, rfl⟩
  refine ⟨_, rfl, accepts_kindFields hrefs h (fun _ hu => nomatch hu) rfl ?_ ?_ rfl ?_⟩
  · simp only [List.forall_mem_cons]
    refine ⟨fun w hw => ?_, fun w hw => ?_, accepts_field hstyle (accepts_style hrefs h.content.2),
      List.forall_mem_nil _⟩
    · rw [hcontent] at hw
      obtain ⟨s, -, rfl⟩ := Option.map_eq_some_iff.mp hw
      rw [accepts_typed rfl, acceptsAll_nil]
      rfl
    · rw [hbinding] at hw
      obtain ⟨b, hb, rfl⟩ := Option.map_eq_some_iff.mp hw
      exact accepts_binding hrefs (h.bindings b (Option.mem_toList.mpr hb))
  · simp [hstyle]
  · -- there is a content that is not empty, or a binding
    rw [acceptsAll_anyOf, acceptsAll_nil, Bool.and_true, List.any_eq_true]
    rcases h.content.1 with ⟨s, hs, -⟩ | ⟨b, hb⟩
    · refine ⟨_, List.mem_cons_self, (accepts_requires_iff hobject).mpr ?_⟩
      simp [hcontent, hs]
    · refine ⟨_, List.mem_cons_of_mem _ List.mem_cons_self, (accepts_requires_iff hobject).mpr ?_⟩
      simp [hbinding, hb]

theorem accepts_image {c : ImageComponent} (h : (Component.image c).Valid) :
    ∃ branch, kinds[1]? = some branch ∧
      accepts refs branch (Component.image c).toJson.normalize = true := by
  have hasset : (Component.image c).toJson.normalize.get? "assetId" = some (.string c.assetId) :=
    get?_encoded rfl
  have hdescription : (Component.image c).toJson.normalize.get? "description" =
      some (.string c.description) := get?_encoded rfl
  refine ⟨_, rfl, accepts_kindFields hrefs h (fun _ hu => nomatch hu) rfl ?_ (by simp [hasset]) rfl
    acceptsAll_nil⟩
  simp only [List.forall_mem_cons]
  exact ⟨accepts_field hasset (accepts_nonEmpty hrefs h.content),
    accepts_field hdescription (accepts_optionalString "" _), List.forall_mem_nil _⟩

theorem accepts_divider {c : DividerComponent} (h : (Component.divider c).Valid) :
    ∃ branch, kinds[2]? = some branch ∧
      accepts refs branch (Component.divider c).toJson.normalize = true := by
  have hwidth : (Component.divider c).toJson.normalize.get? "strokeWidth" =
      some (ofBinary64 c.strokeWidth) := get?_encoded (congrArg some (normalize_ofBinary64 _))
  have hcolor : (Component.divider c).toJson.normalize.get? "color" = some (.string c.color) :=
    get?_encoded rfl
  refine ⟨_, rfl, accepts_kindFields hrefs h (fun _ hu => nomatch hu) rfl ?_
    (List.forall_mem_nil _) rfl acceptsAll_nil⟩
  simp only [List.forall_mem_cons]
  exact ⟨accepts_field hwidth (accepts_positive (informs_default _) h.content.1),
    accepts_field hcolor (accepts_color hrefs h.content.2 _), List.forall_mem_nil _⟩

theorem accepts_table {c : TableComponent} (h : (Component.table c).Valid) :
    ∃ branch, kinds[3]? = some branch ∧
      accepts refs branch (Component.table c).toJson.normalize = true := by
  have hrow : (Component.table c).toJson.normalize.get? "rowBinding" =
      some c.rowBinding.toJson.normalize := get?_encoded rfl
  have hcolumns : (Component.table c).toJson.normalize.get? "columns" =
      some (.array (c.columns.map (·.toJson.normalize))) :=
    get?_encoded (congrArg some (Json.normalize_array_map _ _))
  refine ⟨_, rfl, accepts_kindFields hrefs h (fun _ hu => nomatch hu) rfl ?_
    (by simp [hrow, hcolumns]) rfl acceptsAll_nil⟩
  simp only [List.forall_mem_cons]
  exact ⟨accepts_field hrow (accepts_binding hrefs (h.bindings _ List.mem_cons_self)),
    accepts_field hcolumns (accepts_columns hrefs h.content.1 h.content.2), List.forall_mem_nil _⟩

theorem accepts_totals {c : TotalsComponent} (h : (Component.totals c).Valid) :
    ∃ branch, kinds[4]? = some branch ∧
      accepts refs branch (Component.totals c).toJson.normalize = true := by
  have hlabel : (Component.totals c).toJson.normalize.get? "label" = some (.string c.label) :=
    get?_encoded rfl
  have hamount : (Component.totals c).toJson.normalize.get? "amountBinding" =
      some c.amountBinding.toJson.normalize := get?_encoded rfl
  refine ⟨_, rfl, accepts_kindFields hrefs h (fun _ hu => nomatch hu) rfl ?_ (by simp [hamount]) rfl
    acceptsAll_nil⟩
  simp only [List.forall_mem_cons]
  exact ⟨accepts_field hlabel (accepts_optionalString "Total" _),
    accepts_field hamount (accepts_binding hrefs (h.bindings _ List.mem_cons_self)),
    List.forall_mem_nil _⟩

theorem accepts_payment {c : PaymentComponent} (h : (Component.payment c).Valid) :
    ∃ branch, kinds[5]? = some branch ∧
      accepts refs branch (Component.payment c).toJson.normalize = true := by
  have hinstruction : (Component.payment c).toJson.normalize.get? "instruction" =
      some (.string c.instruction) := get?_encoded rfl
  have haccount : (Component.payment c).toJson.normalize.get? "accountBinding" =
      some c.accountBinding.toJson.normalize := get?_encoded rfl
  refine ⟨_, rfl, accepts_kindFields hrefs h (fun _ hu => nomatch hu) rfl ?_
    (by simp [hinstruction, haccount]) rfl acceptsAll_nil⟩
  simp only [List.forall_mem_cons]
  exact ⟨accepts_field hinstruction (accepts_nonEmpty hrefs h.content),
    accepts_field haccount (accepts_binding hrefs (h.bindings _ List.mem_cons_self)),
    List.forall_mem_nil _⟩

theorem accepts_callout {c : CalloutComponent} (h : (Component.callout c).Valid) :
    ∃ branch, kinds[6]? = some branch ∧
      accepts refs branch (Component.callout c).toJson.normalize = true := by
  have htitle : (Component.callout c).toJson.normalize.get? "title" = some (.string c.title) :=
    get?_encoded rfl
  have hbody : (Component.callout c).toJson.normalize.get? "body" = some (.string c.body) :=
    get?_encoded rfl
  refine ⟨_, rfl, accepts_kindFields hrefs h (fun _ hu => nomatch hu) rfl ?_
    (by simp [htitle, hbody]) rfl acceptsAll_nil⟩
  simp only [List.forall_mem_cons]
  exact ⟨accepts_field htitle (accepts_nonEmpty hrefs h.content.1),
    accepts_field hbody (accepts_nonEmpty hrefs h.content.2), List.forall_mem_nil _⟩

/-- **A component is accepted by the branch for its kind**, which is the last one if its kind is not
known. -/
theorem exists_branch {c : Component} (h : c.Valid) (hplain : c.Plain) :
    ∃ branch, kinds[componentKinds.idxOf c.kind]? = some branch ∧
      accepts refs branch c.toJson.normalize = true := by
  cases c with
  | text c => exact accepts_text hrefs h
  | image c => exact accepts_image hrefs h
  | divider c => exact accepts_divider hrefs h
  | table c => exact accepts_table hrefs h
  | totals c => exact accepts_totals hrefs h
  | payment c => exact accepts_payment hrefs h
  | callout c => exact accepts_callout hrefs h
  | unknown u =>
    have hunknown := (hplain u rfl).1
    rw [Component.kind, List.idxOf_eq_length hunknown]
    exact ⟨_, rfl, (accepts_otherKinds_iff (Component.get?_kind hplain)).mpr hunknown⟩

/-- **A component is accepted by exactly one of the kinds.** -/
theorem countP_kinds {c : Component} (h : c.Valid) (hplain : c.Plain) :
    kinds.countP (fun kind => accepts refs kind c.toJson.normalize) = 1 := by
  have hobject : IsObject c.toJson.normalize := by cases c <;> exact ⟨_, rfl⟩
  obtain ⟨branch, hbranch, haccepts⟩ := exists_branch hrefs h hplain
  exact countP_eq_one hbranch haccepts fun i other hother hotherAccepts =>
    index_of_accepts hobject (Component.get?_kind hplain) hother hotherAccepts

/-! ## Components, pages, templates -/

theorem accepts_component {c : Component} (h : c.Valid) (hplain : c.Plain) :
    accepts refs (ref "component") c.toJson.normalize = true := by
  have hobject : IsObject c.toJson.normalize := by cases c <;> exact ⟨_, rfl⟩
  have hid := Component.get?_id hplain
  have hkind := Component.get?_kind hplain
  rw [accepts_ref_of_lookup hrefs "component" rfl, accepts_object_iff hobject rfl]
  refine ⟨⟨by simp [hid, hkind], ?_⟩, ?_⟩
  · simp only [List.forall_mem_cons]
    refine ⟨accepts_field hid (accepts_nonEmpty hrefs h.id), accepts_field hkind ?_,
      List.forall_mem_nil _⟩
    rw [accepts_typed rfl, acceptsAll_nil]
    rfl
  · rw [acceptsAll_oneOf, acceptsAll_nil, countP_kinds hrefs h hplain]
    rfl

theorem accepts_region {r : Region} (h : ∀ c ∈ r.components, c.Valid)
    (hplain : ∀ c ∈ r.components, c.Plain) :
    accepts refs (ref "region") r.toJson.normalize = true := by
  have hobject : IsObject r.toJson.normalize := ⟨_, rfl⟩
  rw [accepts_ref_of_lookup hrefs "region" rfl, accepts_looseObject_iff hobject]
  refine ⟨List.forall_mem_nil _, List.forall_mem_singleton.mpr ?_⟩
  refine accepts_field r.get?_components ?_
  rw [accepts_array_iff (informs_default _), List.forall_mem_map]
  exact fun c hc => accepts_component hrefs (h c hc) (hplain c hc)

theorem accepts_page {p : Page} (hid : p.id ≠ "") (hnumber : 1 ≤ p.pageNumber)
    (h : ∀ c ∈ p.regions.flatMap (·.2.components), c.Valid)
    (hplain : ∀ c ∈ p.regions.flatMap (·.2.components), c.Plain) :
    accepts refs (ref "page") p.toJson.normalize = true := by
  have hobject : IsObject p.toJson.normalize := ⟨_, rfl⟩
  obtain ⟨hgetId, hgetNumber, hgetSize, hgetHeader, hgetBody, hgetFooter⟩ := p.get?_fields
  have hregion : ∀ part ∈ p.regions, accepts refs (ref "region") part.2.toJson.normalize = true :=
    fun part hpart => accepts_region hrefs
      (fun c hc => h c (List.mem_flatMap.mpr ⟨part, hpart, hc⟩))
      fun c hc => hplain c (List.mem_flatMap.mpr ⟨part, hpart, hc⟩)
  simp only [Page.regions, List.forall_mem_cons] at hregion
  obtain ⟨hheader, hbody, hfooter, -⟩ := hregion
  have hsize : Json.string p.size.name = .string "A4" := by
    cases p.size
    rfl
  have hcount : 1 ≤ p.pageNumber.toNat := UInt32.le_iff_toNat_le.mp hnumber
  rw [accepts_ref_of_lookup hrefs "page" rfl, accepts_object_iff hobject rfl]
  refine ⟨⟨by simp [hgetId, hgetNumber, hgetSize, hgetHeader, hgetBody, hgetFooter], ?_⟩,
    acceptsAll_nil⟩
  simp only [List.forall_mem_cons]
  exact ⟨accepts_field hgetId (accepts_nonEmpty hrefs hid),
    accepts_field hgetNumber (accepts_counter hcount),
    accepts_field hgetSize (accepts_const_iff.mpr hsize), accepts_field hgetHeader hheader,
    accepts_field hgetBody hbody, accepts_field hgetFooter hfooter, List.forall_mem_nil _⟩

/-- The schema accepts a valid template none of whose components can be taken for anything else. -/
theorem accepts_template {t : Template} (h : t.Valid) (hplain : t.Plain) :
    accepts refs document t.toJson.normalize = true := by
  have hobject : IsObject t.toJson.normalize := ⟨_, rfl⟩
  obtain ⟨hgetSchema, hgetTenant, hgetTemplate, hgetName, hgetDescription, hgetStatus, hgetVersion,
    hgetCreated, hgetUpdated⟩ := t.get?_fields
  have hgetPages := t.get?_pages
  have hpages : ∀ p ∈ t.pages, accepts refs (ref "page") p.toJson.normalize = true :=
    fun p hp => accepts_page hrefs (h.pageIds p hp) (h.pageNumbers p hp)
      (fun c hc => h.components c (List.mem_flatMap.mpr ⟨p, hp, hc⟩))
      fun c hc => hplain c (List.mem_flatMap.mpr ⟨p, hp, hc⟩)
  have hstatus : ∃ name ∈ ["draft", "published"], Json.string t.status.name = .string name := by
    cases t.status <;> simp [TemplateStatus.name]
  have hversion : 1 ≤ t.version.toNat := UInt32.le_iff_toNat_le.mp h.version
  rw [document, accepts_object rfl]
  -- three keywords that only inform, the type, the members, and the definitions
  rw [acceptsAll_of_unknown (by decide) rfl, acceptsAll_of_unknown (by decide) rfl,
    acceptsAll_of_unknown (by decide) rfl, acceptsAll_type, types_of_isObject hobject, Bool.true_and,
    acceptsAll_required_properties hobject, acceptsAll_of_unknown (by decide) rfl]
  refine ⟨⟨?_, ?_⟩, acceptsAll_nil⟩
  · simp [hgetSchema, hgetTenant, hgetTemplate, hgetName, hgetStatus, hgetVersion, hgetPages,
      hgetCreated, hgetUpdated]
  · simp only [List.forall_mem_cons]
    refine ⟨accepts_field hgetSchema ?_, accepts_field hgetTenant (accepts_nonEmpty hrefs h.tenantId),
      accepts_field hgetTemplate (accepts_nonEmpty hrefs h.templateId),
      accepts_field hgetName (accepts_nonEmpty hrefs h.name),
      accepts_field hgetDescription (accepts_optionalString "" _),
      accepts_field hgetStatus ((accepts_oneOf_iff informs_nil).mpr hstatus),
      accepts_field hgetVersion (accepts_counter hversion), accepts_field hgetPages ?_,
      accepts_field hgetCreated (accepts_nonEmpty hrefs h.createdBy),
      accepts_field hgetUpdated (accepts_nonEmpty hrefs h.updatedBy), List.forall_mem_nil _⟩
    · rw [accepts_const_iff, h.schemaVersion]
      rfl
    · rw [accepts_filledArray_iff, List.forall_mem_map]
      exact ⟨by simpa using h.pages, hpages⟩

end Definitions

/-- **Everything that is written conforms to the schema.**  The references of the schema can be
read, and in one way only; and as they are read, the schema accepts the value of a template that was
taken from a value, and each of its components is accepted by exactly one of the kinds that the
schema lists. -/
theorem template_conforms {raw : Json} {t : Template} (hraw : raw.IsNormal) (hfits : raw.Fits)
    (h : (Template.ofValue raw).outcome = .ok t) :
    (∃ refs, Resolves document refs ∧
        ∀ other, Resolves document other → AgreeOn other refs (targets document)) ∧
      ∀ refs, Resolves document refs →
        accepts refs document t.toJson.normalize = true ∧
          ∀ c ∈ t.components, kinds.countP (fun kind => accepts refs kind c.toJson.normalize) = 1 := by
  obtain ⟨hfindings, hdecoded⟩ := Template.decoded_of_ofValue hraw h
  have hvalid := hdecoded.isValid hfits hfindings
  have hplain : t.Plain := fun c hc => (hdecoded.stored c hc).1
  refine ⟨⟨_, resolves_document, fun _ => agreeOn_readings⟩, fun refs hrefs => ⟨?_, fun c hc => ?_⟩⟩
  · exact accepts_template hrefs hvalid hplain
  · exact countP_kinds hrefs (hvalid.components c hc) (hplain c hc)

/-- A value with a component of a known kind, most of whose fields have defaults, and one of an unknown
kind. -/
def sealedLetter : Json :=
  .object [("createdBy", .string "c"), ("name", .string "n"),
    ("pages", .array [.object [
      ("body", .object [("components", .array [
        .object [("binding", .object [("path", .string "/Case")]), ("id", .string "t"),
          ("position", .object [("height", .ofNat 1), ("width", .ofNat 1), ("x", .ofNat 0),
            ("y", .ofNat 0)]),
          ("style", .object []), ("type", .string "text")],
        .object [("id", .string "s"), ("type", .string "seal"), ("wax", .array [.null])]])]),
      ("footer", .object []), ("header", .object []), ("id", .string "p"), ("pageNumber", .ofNat 1),
      ("size", .string "A4")]]),
    ("schemaVersion", .string "1.0"), ("status", .string "draft"), ("templateId", .string "b"),
    ("tenantId", .string "a"), ("updatedBy", .string "c"), ("version", .ofNat 1)]

theorem template_conforms_on_sealedLetter : ∃ t, sealedLetter.IsNormal ∧ sealedLetter.Fits ∧
    (Template.ofValue sealedLetter).outcome = .ok t ∧ t.components.map (·.kind) = ["text", "seal"] ∧
      accepts (readings document 6) document t.toJson.normalize = true ∧
        ∀ c ∈ t.components,
          kinds.countP (fun kind => accepts (readings document 6) kind c.toJson.normalize) = 1 := by
  have hsame : sealedLetter.normalize = sealedLetter := by cbv
  have hnormal : sealedLetter.IsNormal := hsame ▸ Json.isNormal_normalize sealedLetter
  have hfits : sealedLetter.Fits := by
    simp [sealedLetter, Json.Fits, Json.FitsMembers, Json.FitsItems, Json.ofNat, Json.ofInt,
      Json.Number.Fits]
  have hkinds : (Template.ofValue sealedLetter).outcome.toOption.map
      (fun t => t.components.map (·.kind)) = some ["text", "seal"] := by decide +kernel
  cases hvalue : (Template.ofValue sealedLetter).outcome with
  | error e =>
    rw [hvalue] at hkinds
    cases hkinds
  | ok t =>
    rw [hvalue] at hkinds
    obtain ⟨haccepts, hcount⟩ := (template_conforms hnormal hfits hvalue).2 _ resolves_document
    exact ⟨t, hnormal, hfits, rfl, Option.some.inj hkinds, haccepts, hcount⟩

/-- The schema does not accept everything. -/
example : accepts (readings document 6) document (.object []) = false := by cbv

end StatementPress.Schema
