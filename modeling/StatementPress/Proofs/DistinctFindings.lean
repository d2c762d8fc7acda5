import Mathlib
import StatementPress.Proofs.Agreement
import StatementPress.Proofs.Walk.Apart

/-!
# One finding for each field

The findings of a rejected value are at different places, with one exception.  A text component has to
have a string for content, if it has content, and it has to have content or a binding; both are
reported at the content.  So content that is no string is reported twice where no binding is there to
make up for it (`LacksText`), and nothing else is (`findings_apart_iff`).
-/

namespace StatementPress

open Finding (join item)

/-- Whether a component is a text whose content is no string, although there is some, and that has no
binding. -/
structure Json.LacksText (slot : Json) : Prop where
  kind : slot.get? "type" = some (.string "text")
  content : ∃ v, slot.get? "content" = some v ∧ v ≠ .null ∧ ∀ s, v ≠ .string s
  unbound : slot.get? "binding" = none ∨ slot.get? "binding" = some .null

theorem Json.exists_of_mem_itemsOf {value : Option Json} {v : Json} (h : v ∈ itemsOf value) :
    ∃ values, value = some (.array values) ∧ v ∈ values := by
  unfold itemsOf at h
  split at h
  · exact ⟨_, rfl, h⟩
  · cases h

/-- The finding that an event is by itself, whatever came before it. -/
def Event.own? : Event → Option Finding
  | .finding f => some f
  | _ => none

namespace Walk

variable {obj : Json} {path : String}

/-! ## Parts of components -/

theorem stays_binding (value : Option Json) (path : String) : Stays path (binding value path) := by
  refine stays_object fun members _ => ?_
  have hfields := @uses_fields (.object members) path
    [("path", Rule.name), ("fallback", Rule.optionalString)] (by decide) (by decide)
  simpa using hfields.stays

theorem stays_position (value : Option Json) (path : String) : Stays path (position value path) := by
  refine stays_object fun members _ => ?_
  have hfields := @uses_fields (.object members) path
    [("x", Rule.number .nonNegative), ("y", Rule.number .nonNegative),
      ("width", Rule.number .positive), ("height", Rule.number .positive)] (by decide) (by decide)
  simpa using hfields.stays

theorem stays_style (value : Option Json) (path : String) : Stays path (style value path) := by
  refine stays_object fun members _ => ?_
  have hfields := @uses_fields (.object members) path
    [("fontFamily", fontFamily), ("fontSize", Rule.optionalNumber .positive),
      ("fontWeight", Rule.optionalOneOf ["normal", "bold"]), ("color", Rule.optionalColor),
      ("align", Rule.optionalOneOf ["left", "center", "right"])] (by decide) (by decide)
  simpa using hfields.stays

/-- All findings about a column lie at the column or below it. -/
theorem stays_column (value : Json) (path : String) : Stays path (column value path) := by
  refine stays_object fun members _ => ?_
  have hfields := @uses_fields (.object members) path
    [("id", Rule.name), ("header", Rule.name), ("width", Rule.number .positive)] (by decide) (by decide)
  have hbinding := (stays_binding ((Json.object members).get? "binding") (join path "binding")).uses
    (by decide)
  simpa using (hfields.append hbinding (by decide)).stays

/-- All findings about columns lie at the columns or below them. -/
theorem stays_columns (value : Option Json) (path : String) : Stays path (columns value path) := by
  unfold columns
  split
  · exact stays_report _ _
  · exact stays_report _ _
  · exact stays_items (fun v _ path => stays_column v path) path 0
  · exact stays_report _ _

/-- The content of a text that is not lacking is reported once at most: as what it is, or as
missing. -/
theorem uses_text (h : present obj "binding" = none →
    Rule.optionalString (present obj "content") = none) :
    Uses path ["content", "binding", "style"] (text obj path) := by
  have hcontent := fun fault => (stays_report (join path "content") fault).uses (by decide)
  have hstyle := (stays_style (obj.get? "style") (join path "style")).uses (by decide)
  unfold text
  cases hbound : present obj "binding" with
  | some bound =>
    have hbinding := (stays_binding (some bound) (join path "binding")).uses (by decide)
    have hparts := (hcontent (Rule.optionalString (present obj "content"))).append hbinding (by decide)
    simpa using hparts.append hstyle (by decide)
  | none =>
    have hlack : Uses path ["content"] (if !isFilled (present obj "content") && true then
        report (join path "content") (some "text component must include content or binding")
      else []) := by
      split
      · exact hcontent _
      · exact hcontent none
    have hbinding := (stays_nil (join path "binding")).uses (by decide)
    have hparts := (hlack.append hbinding (by decide)).append hstyle (by decide)
    simpa [h hbound, report] using hparts

/-- The keys of all fields that components of some kind have beside identifier and box. -/
def kindKeys : List String :=
  ["content", "binding", "style", "assetId", "description", "strokeWidth", "color", "rowBinding",
    "columns", "label", "amountBinding", "instruction", "accountBinding", "title", "body"]

/-- The fields of a kind report at places of their own, unless a text has no binding and a content
that is no string. -/
theorem uses_kindFields {kind : String} (h : kind = "text" → present obj "binding" = none →
    Rule.optionalString (present obj "content") = none) :
    Uses path kindKeys (kindFields kind obj path) := by
  have hfield := fun key rule hkey => @uses_field path key hkey obj rule
  have hbinding := fun key (hkey : IsPlainKey key) =>
    (stays_binding (obj.get? key) (join path key)).uses hkey
  have hplain : ∀ key ∈ kindKeys, IsPlainKey key := by decide
  unfold kindFields
  split
  · exact (uses_text (h rfl)).mono (by decide) hplain
  · exact ((hfield "assetId" _ (by decide)).append (hfield "description" _ (by decide))
      (by decide)).mono (by decide) hplain
  · exact ((hfield "strokeWidth" _ (by decide)).append (hfield "color" _ (by decide))
      (by decide)).mono (by decide) hplain
  · have hcolumns := (stays_columns (obj.get? "columns") (join path "columns")).uses (by decide)
    exact ((hbinding "rowBinding" (by decide)).append hcolumns (by decide)).mono (by decide) hplain
  · exact ((hfield "label" _ (by decide)).append (hbinding "amountBinding" (by decide))
      (by decide)).mono (by decide) hplain
  · exact ((hfield "instruction" _ (by decide)).append (hbinding "accountBinding" (by decide))
      (by decide)).mono (by decide) hplain
  · exact ((hfield "title" _ (by decide)).append (hfield "body" _ (by decide)) (by decide)).mono
      (by decide) hplain
  · exact (uses_of_places_eq_nil path rfl).mono (List.nil_subset _) hplain

/-! ## Components, regions, pages -/

theorem present_eq_none_iff {key : String} :
    present obj key = none ↔ obj.get? key = none ∨ obj.get? key = some .null := by
  unfold present
  split
  · rename_i h
    simp [h]
  · rename_i v hnull
    exact (or_iff_left hnull).symm

/-- Content is at fault exactly if there is some and it is no string. -/
theorem optionalString_present_eq_none_iff : Rule.optionalString (present obj "content") = none ↔
    ¬ ∃ v, obj.get? "content" = some v ∧ v ≠ .null ∧ ∀ s, v ≠ .string s := by
  unfold present
  rcases obj.get? "content" with _ | v
  · simp [Rule.optionalString]
  · cases v <;> simp [Rule.optionalString]

theorem uses_identifier (obj : Json) (path : String) : Uses path ["id"] (identifier obj path) := by
  refine Stays.uses ?_ (by decide)
  unfold identifier
  split
  · split
    · exact stays_report _ _
    · exact stays_singleton rfl
  · exact stays_report _ _

/-- The kind of a component reports at its type, its position and the fields of the kind, unless it
lacks a text. -/
theorem uses_kind (h : ¬ obj.LacksText) :
    Uses path ("type" :: "position" :: kindKeys) (kind obj path) := by
  have hplain : ∀ key ∈ "type" :: "position" :: kindKeys, IsPlainKey key := by decide
  have htype := fun fault => ((stays_report (join path "type") fault).uses (by decide)).mono
    (by decide) hplain
  unfold kind
  split
  · exact htype _
  · rename_i k hkind
    split
    · have hposition := (stays_position (obj.get? "position") (join path "position")).uses (by decide)
      have hfields : Uses path kindKeys (kindFields k obj path) := by
        refine uses_kindFields fun htext hunbound => ?_
        rw [optionalString_present_eq_none_iff]
        intro hcontent
        exact h ⟨by rw [hkind, htext], hcontent, present_eq_none_iff.mp hunbound⟩
      exact (hposition.append hfields (by decide)).mono (List.subset_cons_self _ _) hplain
    · exact (uses_of_places_eq_nil path rfl).mono (List.nil_subset _) hplain
  · exact htype _

/-- A component reports at places of its own, unless it lacks a text. -/
theorem stays_component {slot : Json} (h : ¬ slot.LacksText) (path : String) :
    Stays path (component slot path) := by
  refine stays_object fun members hmembers => ?_
  cases hmembers
  exact ((uses_identifier _ path).append (uses_kind h) (by decide)).stays

/-- A region reports at places of its own, unless one of its components lacks a text. -/
theorem stays_region {value : Option Json} (h : ∀ slot ∈ regionSlots value, ¬ slot.LacksText)
    (path : String) : Stays path (region value path) := by
  refine stays_object fun members hmembers => ?_
  rw [hmembers, regionSlots, Option.bind_some] at h
  cases hcomponents : (Json.object members).get? "components" with
  | none => exact stays_nil path
  | some v =>
    rw [hcomponents] at h
    cases v with
    | array values =>
      exact (stays_items (fun slot hslot path => stays_component (h slot hslot) path) _ 0).mono
        (isBelow_components path)
    | _ => exact (stays_report _ _).mono (isBelow_join path "components")

theorem uses_number (obj : Json) (path : String) : Uses path ["pageNumber"] (number obj path) := by
  refine Stays.uses ?_ (by decide)
  unfold number
  split
  · exact stays_singleton rfl
  · exact stays_report _ _

/-- A page reports at places of its own, unless one of its components lacks a text. -/
theorem stays_page {value : Json} (h : ∀ slot ∈ pageSlots value, ¬ slot.LacksText) (path : String) :
    Stays path (page value path) := by
  refine stays_object fun members hmembers => ?_
  cases hmembers
  rw [pageSlots, List.forall_mem_append, List.forall_mem_append] at h
  obtain ⟨⟨hheader, hbody⟩, hfooter⟩ := h
  have hregion := fun key (hkey : IsPlainKey key) hslots =>
    (@stays_region ((Json.object members).get? key) hslots (join path key)).uses hkey
  have hid := @uses_field path "id" (by decide) (.object members) Rule.name
  have hsize := @uses_field path "size" (by decide) (.object members) (Rule.oneOf ["A4"])
  have hnumber := hid.append (uses_number (.object members) path) (by decide)
  have hfields := hnumber.append hsize (by decide)
  have hfirst := hfields.append (hregion "header" (by decide) hheader) (by decide)
  have hsecond := hfirst.append (hregion "body" (by decide) hbody) (by decide)
  exact (hsecond.append (hregion "footer" (by decide) hfooter) (by decide)).stays

theorem stays_pages {value : Option Json}
    (h : ∀ v ∈ Json.itemsOf value, ∀ slot ∈ pageSlots v, ¬ slot.LacksText) (path : String) :
    Stays path (pages value path) := by
  unfold pages
  split
  · exact stays_report _ _
  · exact stays_report _ _
  · exact stays_items (fun v hv path => stays_page (h v hv) path) path 0
  · exact stays_report _ _

/-- **The places of a walk differ** if no text is lacking. -/
theorem stays_template {raw : Json} (h : ∀ slot ∈ slots raw, ¬ slot.LacksText) :
    Stays "" (template raw) := by
  refine stays_object fun members hmembers => ?_
  cases hmembers
  have hpages := (@stays_pages ((Json.object members).get? "pages") (fun v hv slot hslot =>
    h slot (List.mem_flatMap.mpr ⟨v, hv, hslot⟩)) (join "" "pages")).uses (by decide)
  have hfields := @uses_fields (.object members) ""
    [("schemaVersion", Rule.version), ("tenantId", Rule.name), ("templateId", Rule.name),
      ("name", Rule.name), ("description", Rule.optionalString),
      ("status", Rule.oneOf ["draft", "published"]), ("version", counterRule),
      ("createdBy", Rule.name), ("updatedBy", Rule.name)] (by decide) (by decide)
  simpa [join] using (hfields.append hpages (by decide)).stays

/-! ## Lacking texts -/

/-- What is broken at a place itself is among the findings, in order. -/
theorem own_sublist_findingsAfter (earlier events : List Event) :
    (events.filterMap Event.own?).Sublist (findingsAfter earlier events) := by
  induction events generalizing earlier with
  | nil => exact List.Sublist.refl _
  | cons e rest ih =>
    have hrest := ih (earlier ++ [e])
    cases e with
    | finding f => exact hrest.cons_cons f
    | _ => exact hrest.trans (List.sublist_append_right _ _)

/-- What is reported of a text that is lacking. -/
def lackFindings (path : String) : List Finding :=
  [⟨join path "content", "must be a string"⟩,
    ⟨join path "content", "text component must include content or binding"⟩]

/-- A text that is lacking is reported twice at one place. -/
theorem lackFindings_sublist_text (h : obj.LacksText) (path : String) :
    ((lackFindings path).map Event.finding).Sublist (text obj path) := by
  obtain ⟨v, hv, hnull, hstring⟩ := h.content
  have hunbound : present obj "binding" = none := present_eq_none_iff.mpr h.unbound
  have hcontent : present obj "content" = some v := by
    cases v with
    | null => exact absurd rfl hnull
    | _ => simp [present, hv]
  have hfault : Rule.optionalString (some v) = some "must be a string" := by
    cases v with
    | string s => exact absurd rfl (hstring s)
    | _ => rfl
  have hfilled : isFilled (some v) = false := by
    cases v with
    | string s => exact absurd rfl (hstring s)
    | _ => rfl
  have htext : text obj path = (lackFindings path).map Event.finding ++
      style (obj.get? "style") (join path "style") := by
    simp [text, hcontent, hunbound, hfault, hfilled, report, lackFindings]
  rw [htext]
  exact List.sublist_append_left _ _

theorem lackFindings_sublist_component {slot : Json} (h : slot.LacksText) (path : String) :
    ((lackFindings path).map Event.finding).Sublist (component slot path) := by
  have htext := lackFindings_sublist_text h path
  have hkind := h.kind
  cases slot with
  | object members =>
    have hevents : component (.object members) path = identifier (.object members) path ++
        (position ((Json.object members).get? "position") (join path "position") ++
          text (.object members) path) := by
      rw [component, object, kind, hkind]
      rfl
    rw [hevents]
    exact (htext.trans (List.sublist_append_right _ _)).trans (List.sublist_append_right _ _)
  | _ => cases hkind

/-- What an item reports is among what the items report. -/
theorem exists_sublist_items {visit : Json → String → List Event} {v : Json} {values : List Json}
    (hv : v ∈ values) (path : String) (i : Nat) :
    ∃ q, (visit v q).Sublist (items visit path i values) := by
  induction values generalizing i with
  | nil => cases hv
  | cons w rest ih =>
    rcases List.mem_cons.mp hv with rfl | hv
    · exact ⟨_, List.sublist_append_left _ _⟩
    · obtain ⟨q, hq⟩ := ih hv (i + 1)
      exact ⟨q, hq.trans (List.sublist_append_right _ _)⟩

theorem exists_sublist_region {slot : Json} {value : Option Json} (h : slot ∈ regionSlots value)
    (path : String) : ∃ q, (component slot q).Sublist (region value path) := by
  obtain ⟨values, hcomponents, hslot⟩ := Json.exists_of_mem_itemsOf h
  obtain ⟨v, rfl, hget⟩ := Option.bind_eq_some_iff.mp hcomponents
  cases v with
  | object members =>
    rw [region, object, hget]
    exact exists_sublist_items hslot _ 0
  | _ => cases hget

theorem exists_sublist_page {slot v : Json} (h : slot ∈ pageSlots v) (path : String) :
    ∃ q, (component slot q).Sublist (page v path) := by
  cases v with
  | object members =>
    rw [pageSlots, List.mem_append, List.mem_append] at h
    rw [page, object]
    rcases h with (h | h) | h
    · obtain ⟨q, hq⟩ := exists_sublist_region h (join path "header")
      exact ⟨q, (((hq.trans (List.sublist_append_right _ _)).trans
        (List.sublist_append_left _ _))).trans (List.sublist_append_left _ _)⟩
    · obtain ⟨q, hq⟩ := exists_sublist_region h (join path "body")
      exact ⟨q, (hq.trans (List.sublist_append_right _ _)).trans (List.sublist_append_left _ _)⟩
    · obtain ⟨q, hq⟩ := exists_sublist_region h (join path "footer")
      exact ⟨q, hq.trans (List.sublist_append_right _ _)⟩
  | _ => simp [pageSlots, regionSlots, Json.get?, Json.itemsOf] at h

/-- The walk comes across every component slot. -/
theorem exists_sublist_template {slot raw : Json} (h : slot ∈ slots raw) :
    ∃ q, (component slot q).Sublist (template raw) := by
  obtain ⟨v, hv, hslot⟩ := List.mem_flatMap.mp h
  obtain ⟨values, hpages, hmem⟩ := Json.exists_of_mem_itemsOf hv
  cases raw with
  | object members =>
    obtain ⟨q, hq⟩ := @exists_sublist_items page v values hmem "pages" 0
    obtain ⟨q', hq'⟩ := exists_sublist_page hslot q
    have hevents : pages ((Json.object members).get? "pages") "pages" =
        items page "pages" 0 values := by
      rw [hpages, pages]
      rintro rfl
      cases hmem
    rw [template, object, hevents]
    exact ⟨q', (hq'.trans hq).trans (List.sublist_append_right _ _)⟩
  | _ => cases hpages

/-- **The content of a text that is lacking is reported twice.** -/
theorem not_nodup_of_lacksText {slot raw : Json} (hslot : slot ∈ slots raw) (h : slot.LacksText) :
    ¬ ((findings (template raw)).map (·.path)).Nodup := by
  obtain ⟨q, hq⟩ := exists_sublist_template hslot
  have hevents := (lackFindings_sublist_component h q).trans hq
  have hfindings := (hevents.filterMap Event.own?).trans (own_sublist_findingsAfter [] _)
  have hpaths := hfindings.map (·.path)
  intro hnodup
  have htwice := hnodup.sublist hpaths
  simp [lackFindings, Event.own?] at htwice

end Walk

/-! ## Findings of rejected values -/

open Walk

/-- A value without findings is rejected with one finding, if at all. -/
theorem Template.findings_of_outcome_ofValue {raw : Json} {r : Rejection}
    (hfindings : findings (Walk.template raw) = []) (h : (ofValue raw).outcome = .error r) :
    r.findings = [unfit] := by
  rw [ofValue, Run.outcome_bind, outcome_recordEvents, ok_bind] at h
  dsimp only at h
  rw [hfindings, if_pos List.isEmpty_nil] at h
  cases hdecoded : ofJson? raw with
  | some t =>
    rw [hdecoded] at h
    cases h
  | none =>
    rw [hdecoded] at h
    cases h
    rfl

/-- **The findings of a rejected value are at different places, exactly if none of its component slots
is a text that is lacking.**  It does not matter what else is missing, of the wrong type, out of range
or repeated. -/
theorem findings_apart_iff {raw : Json} {r : Rejection}
    (h : (Template.ofValue raw).outcome = .error r) :
    (r.findings.map (·.path)).Nodup ↔ ∀ slot ∈ slots raw, ¬ slot.LacksText := by
  have hiff : ((findings (Walk.template raw)).map (·.path)).Nodup ↔
      ∀ slot ∈ slots raw, ¬ slot.LacksText := by
    constructor
    · intro hnodup slot hslot hlacks
      exact not_nodup_of_lacksText hslot hlacks hnodup
    · intro hslots
      exact (stays_template hslots).nodup.sublist (paths_sublist_places [] _)
  by_cases hfindings : findings (Walk.template raw) = []
  -- then one finding stands for the whole value
  · rw [hfindings] at hiff
    have hslots := hiff.mp List.nodup_nil
    rw [Template.findings_of_outcome_ofValue hfindings h]
    exact iff_of_true (List.nodup_singleton _) hslots
  · rw [Template.outcome_ofValue_of_findings hfindings] at h
    cases h
    exact hiff

/-- A value with fields missing, of the wrong type and out of range, an identifier that is repeated, and
a text that has neither content nor a binding. -/
def brokenStatement : Json := .object [
  ("pages", .array [.object [("body", .object [("components", .array [
    .object [("content", .null), ("id", .string "a"), ("type", .string "text")],
    .object [("id", .string "a"), ("type", .string "seal")]])]), ("footer", .null),
    ("pageNumber", .ofNat 0)]])]

theorem findings_apart_on_brokenStatement : ∃ r,
    (Template.ofValue brokenStatement).outcome = .error r ∧ r.findings.length = 17 ∧
      (r.findings.map (·.path)).Nodup := by
  have hlength : (findings (Walk.template brokenStatement)).length = 17 := by decide +kernel
  have hne : findings (Walk.template brokenStatement) ≠ [] := by
    intro hnil
    rw [hnil] at hlength
    cases hlength
  have hrejected := Template.outcome_ofValue_of_findings hne
  refine ⟨_, hrejected, hlength, (findings_apart_iff hrejected).mpr ?_⟩
  have hslots : slots brokenStatement = [
      .object [("content", .null), ("id", .string "a"), ("type", .string "text")],
      .object [("id", .string "a"), ("type", .string "seal")]] := rfl
  rw [hslots]
  refine List.forall_mem_cons.mpr ⟨fun hlacks => ?_, List.forall_mem_singleton.mpr fun hlacks => ?_⟩
  · obtain ⟨v, hv, hnull, -⟩ := hlacks.content
    cases hv
    exact hnull rfl
  · have hseal : (Json.object [("id", .string "a"), ("type", .string "seal")]).get? "type" =
        some (.string "seal") := rfl
    exact absurd (hseal.symm.trans hlacks.kind) (by simp)

/-- A value that is fine but for a text component whose content is a number, its keys in order. -/
def numberedContent : Json := .object [
  ("createdBy", .string "author"), ("name", .string "Numbered"),
  ("pages", .array [.object [
    ("body", .object [("components", .array [
      .object [("content", .ofNat 1), ("id", .string "text"),
        ("position", .object [("height", .ofNat 1), ("width", .ofNat 1), ("x", .ofNat 0),
          ("y", .ofNat 0)]), ("style", .object []), ("type", .string "text")]])]),
    ("footer", .object []), ("header", .object []), ("id", .string "page"),
    ("pageNumber", .ofNat 1), ("size", .string "A4")]]),
  ("schemaVersion", .string schemaVersion), ("status", .string "draft"),
  ("templateId", .string "template"), ("tenantId", .string "tenant"),
  ("updatedBy", .string "author"), ("version", .ofNat 1)]

/-- The content is reported twice. -/
theorem not_findings_apart_of_numberedContent : ∃ r,
    (Template.ofValue numberedContent).outcome = .error r ∧
      r.findings = [⟨"pages[0].body.components[0].content", "must be a string"⟩,
        ⟨"pages[0].body.components[0].content", "text component must include content or binding"⟩] ∧
      ¬ (r.findings.map (·.path)).Nodup := by
  have hfindings : findings (Walk.template numberedContent) =
      [⟨"pages[0].body.components[0].content", "must be a string"⟩,
        ⟨"pages[0].body.components[0].content",
          "text component must include content or binding"⟩] := by decide +kernel
  have hrejected := @Template.outcome_ofValue_of_findings numberedContent (by simp [hfindings])
  exact ⟨_, hrejected, hfindings, by simp [hfindings]⟩

end StatementPress
