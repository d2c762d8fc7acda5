import StatementPress.Proofs.CanonicalPayloads
import StatementPress.Proofs.JoinedPaths
import StatementPress.Proofs.LeafPaths

/-!
# Paths that are offered

An author chooses bindings from the leaf paths of a payload.  Every text that a document can show
stands at one of them: texts that a path of element names leads to, and texts that such a path leads
to from any row of a table, not only the first.
-/

namespace StatementPress.Payload

open StatementPress.Path

variable {path : String} {node inner found : Payload}

/-! ## Leaves further down -/

theorem leaves_item_subset {items : List Payload} {item : Payload} (h : item ∈ items) :
    leaves path item ⊆ leaves path (.sequence items) := by
  intro q hq
  rw [← ahead_beside]
  exact List.mem_flatMap.mpr ⟨(path, item), List.mem_map_of_mem h, hq⟩

/-- The leaves of an entry are leaves of the element. -/
theorem leaves_entry_subset {entries : List (String × Payload)} {key : String}
    (h : (key, inner) ∈ entries) (hkey : isAttributeKey key = false) :
    leaves (entryPath path key) inner ⊆ leaves path (.element entries) := by
  intro q hq
  rw [← ahead_visible]
  have hvisible : (entryPath path key, inner) ∈ visible path entries :=
    List.mem_map.mpr ⟨(key, inner), List.mem_filter.mpr ⟨h, by rw [hkey]; rfl⟩, rfl⟩
  exact List.mem_flatMap.mpr ⟨_, hvisible, hq⟩

theorem leaves_first?_subset (h : node.first? = some inner) : leaves path inner ⊆ leaves path node := by
  cases node with
  | sequence items => exact leaves_item_subset (List.mem_of_head? h)
  | _ =>
    cases h
    exact List.Subset.refl _

/-- **The leaves of what names lead to are leaves of the node they start from.** -/
theorem leaves_lookup_subset {names : List String} (hnames : ∀ name ∈ names, IsChildKey name)
    (h : node.lookup names = some found) : leaves (extend path names) found ⊆ leaves path node := by
  induction names generalizing node path with
  | nil =>
    cases h
    exact List.Subset.refl _
  | cons name names ih =>
    obtain ⟨hname, hnames⟩ := List.forall_mem_cons.mp hnames
    obtain ⟨entries, inner, hfirst, hentry, h⟩ := exists_of_lookup_cons h
    have hpath : entryPath path name = path ++ "/" ++ name := if_neg hname.2
    have hinner : leaves (entryPath path name) inner ⊆ leaves path (.element entries) :=
      leaves_entry_subset hentry hname.1
    rw [hpath] at hinner
    exact List.Subset.trans (ih hnames h) (List.Subset.trans hinner (leaves_first?_subset hfirst))

/-- The leaves of a row are leaves of what stands at the row path. -/
theorem leaves_items_subset {row : Payload} (h : row ∈ items (some found)) :
    leaves path row ⊆ leaves path found := by
  cases found with
  | sequence items => exact leaves_item_subset h
  | _ =>
    rw [List.mem_singleton.mp h]
    exact List.Subset.refl _

/-- A node that has a text has a leaf at its own path. -/
theorem mem_leaves_of_text_ne_empty (h : node.text ≠ "") : path ∈ leaves path node := by
  fun_induction text node with
  | case1 s =>
    rw [leaves]
    exact List.mem_cons_self
  | case2 entries s hs =>
    obtain ⟨before, after, rfl, -⟩ := List.lookup_eq_some_iff.mp hs
    have htext : path ∈ leaves (entryPath path textKey) (.scalar s) := by
      rw [entryPath, if_pos rfl, leaves]
      exact List.mem_cons_self
    exact leaves_entry_subset (List.mem_append_right _ List.mem_cons_self) (by decide) htext
  | case3 => exact absurd rfl h
  | case4 => exact absurd rfl h
  | case5 item rest ih => exact leaves_item_subset List.mem_cons_self (ih h)

/-! ## Texts that are shown -/

/-- Where there is a text there is a node. -/
theorem exists_lookup_of_textAt_ne_empty (h : node.textAt path ≠ "") :
    ∃ found, node.lookup (parts path) = some found ∧ found.text ≠ "" := by
  unfold textAt at h
  cases hfound : node.lookup (parts path) with
  | none =>
    rw [hfound] at h
    exact absurd rfl h
  | some found =>
    rw [hfound] at h
    exact ⟨found, rfl, h⟩

/-- A text that a row shows stands at a leaf. -/
theorem mem_leaves_of_row {rowPath : String} {row : Payload}
    (hrowKeys : ∀ name ∈ parts rowPath, IsChildKey name) (hrow : row ∈ node.nodesAt rowPath)
    (hkeys : ∀ name ∈ parts path, IsChildKey name) (htext : row.textAt path ≠ "") :
    extend "" (parts rowPath ++ parts path) ∈ leaves "" node := by
  obtain ⟨shown, hshown, hne⟩ := exists_lookup_of_textAt_ne_empty htext
  obtain ⟨found, hfound, hitems⟩ := exists_lookup_of_mem_nodesAt hrow
  have hleaf : extend (extend "" (parts rowPath)) (parts path) ∈
      leaves (extend "" (parts rowPath)) row :=
    leaves_lookup_subset hkeys hshown (mem_leaves_of_text_ne_empty hne)
  rw [extend_append]
  exact leaves_lookup_subset hrowKeys hfound (leaves_items_subset (hitems ▸ hrow) hleaf)

/-- The payload of a document has no text of its own. -/
theorem text_document {d : Xml.Document} (hnames : d.HasLocalNames) :
    (Payload.element (ofNodes [d.root.toNode])).text = "" := by
  have hroot : IsChildKey d.root.name :=
    isChildKey_of_startsAsName (hnames _ d.root_mem_allElements).name.starts
  rw [ofNodes_toNode, text, List.lookup_cons, beq_eq_false_iff_ne.mpr hroot.2.symm]
  rfl

/-- A text that a row shows stands at a leaf path, if the payload has no text of its own. -/
theorem mem_leafPaths_of_row {entries : List (String × Payload)} {rowPath : String} {row : Payload}
    (hempty : (Payload.element entries).text = "")
    (hrowKeys : ∀ name ∈ parts rowPath, IsChildKey name)
    (hrow : row ∈ (Payload.element entries).nodesAt rowPath)
    (hkeys : ∀ name ∈ parts path, IsChildKey name) (htext : row.textAt path ≠ "") :
    ofSegments (parts rowPath ++ parts path) ∈ (Payload.element entries).leafPaths := by
  have hleaf := mem_leaves_of_row hrowKeys hrow hkeys htext
  by_cases hnil : parts rowPath ++ parts path = []
  · -- no path at all leads to the payload itself
    obtain ⟨hrowNil, hpathNil⟩ := List.append_eq_nil_iff.mp hnil
    rw [nodesAt_eq, hrowNil] at hrow
    rw [textAt, hpathNil, List.mem_singleton.mp hrow] at htext
    exact absurd hempty htext
  · rw [mem_leafPaths_iff, ofSegments_eq_extend hnil]
    refine ⟨fun hpath => ?_, hleaf⟩
    have habsolute := isAbsolute_ofSegments (parts rowPath ++ parts path)
    rw [ofSegments_eq_extend hnil, hpath] at habsolute
    cases habsolute

/-- **Every text that can be shown stands at a path that is offered.**  If a path of element names
leads to a text that is not empty, it is a leaf path of the payload.  So is a row path going on with
such a path, if that leads to a text from any of the rows. -/
theorem shown_texts_at_leafPaths {limits : Limits} {text : String} {payload : Payload}
    (h : (ofText limits text).outcome = .ok payload) :
    (∀ path, IsAbsolute path → (∀ name ∈ parts path, IsChildKey name) →
      payload.resolve path ≠ .ok "" → ofSegments (parts path) ∈ payload.leafPaths) ∧
    ∀ rowPath path rows, IsAbsolute rowPath → (∀ name ∈ parts rowPath, IsChildKey name) →
      IsAbsolute path → (∀ name ∈ parts path, IsChildKey name) →
      payload.resolveAll rowPath = .ok rows → ∀ row ∈ rows, row.resolve path ≠ .ok "" →
        ofSegments (parts rowPath ++ parts path) ∈ payload.leafPaths := by
  obtain ⟨d, hread, rfl, -⟩ := exists_document_of_ofText h
  have hempty := text_document (Xml.Document.hasLocalNames_of_ofText hread)
  have htext : ∀ {node : Payload} {path}, IsAbsolute path → node.resolve path ≠ .ok "" →
      node.textAt path ≠ "" := by
    intro node path habsolute hne hnil
    exact hne (hnil ▸ resolve_of_isAbsolute habsolute node)
  constructor
  · -- the payload is its own row at the path without segments
    intro path habsolute hkeys hne
    have htop : parts "/" = [] := by decide
    have hself : ∀ {entries}, Payload.element entries ∈ (Payload.element entries).nodesAt "/" := by
      intro entries
      rw [nodesAt_eq, htop]
      exact List.mem_cons_self
    have hleaf := mem_leafPaths_of_row hempty (by simp [htop]) hself hkeys (htext habsolute hne)
    rwa [htop] at hleaf
  · intro rowPath path rows hrowAbsolute hrowKeys habsolute hkeys hrows row hrow hne
    rw [resolveAll_of_isAbsolute hrowAbsolute, Except.ok.injEq] at hrows
    rw [← hrows] at hrow
    exact mem_leafPaths_of_row hempty hrowKeys hrow hkeys (htext habsolute hne)

/-- A payload with two rows, the second of which has a text and an element that the first has not. -/
def lateDebt : String :=
  "<Case><Debt><Sum>1</Sum></Debt><Debt> late <Due>May</Due></Debt></Case>"

/-- Its second row. -/
def lateRow : Payload := .element [("Due", .scalar "May"), ("#text", .scalar "late")]

/-- Its nodes. -/
def lateDebtPayload : Payload :=
  .element [("Case", .element [("Debt", .sequence [.element [("Sum", .scalar "1")], lateRow])])]

theorem shown_texts_at_leafPaths_of_lateDebt :
    (ofText {} lateDebt).outcome = .ok lateDebtPayload ∧
      lateDebtPayload.resolve "/Case/Debt/Sum" = .ok "1" ∧
      "/Case/Debt/Sum" ∈ lateDebtPayload.leafPaths ∧
      lateDebtPayload.resolveAll "/Case/Debt" = .ok [.element [("Sum", .scalar "1")], lateRow] ∧
      lateRow.resolve "/Due" = .ok "May" ∧ "/Case/Debt/Due" ∈ lateDebtPayload.leafPaths ∧
      lateRow.resolve "/" = .ok "late" ∧ "/Case/Debt" ∈ lateDebtPayload.leafPaths := by
  have hread : Xml.Document.ofText 1000000 lateDebt = .ok ⟨[], ⟨"Case", [],
      [.element "Debt" [] [.element "Sum" [] [.text "1"]],
        .element "Debt" [] [.text " late ", .element "Due" [] [.text "May"]]]⟩, []⟩ := by cbv
  have hpayload : (ofText {} lateDebt).outcome = .ok lateDebtPayload := by
    rw [@outcome_ofText lateDebt _ {} (by decide +kernel) hread
      (by simp [Xml.Element.toNode, Xml.nesting])]
    cbv
  obtain ⟨hpaths, hrows⟩ := shown_texts_at_leafPaths hpayload
  have hsum : lateDebtPayload.resolve "/Case/Debt/Sum" = .ok "1" := by cbv
  have hall : lateDebtPayload.resolveAll "/Case/Debt" =
      .ok [.element [("Sum", .scalar "1")], lateRow] := by cbv
  have hdue : lateRow.resolve "/Due" = .ok "May" := by cbv
  have hlate : lateRow.resolve "/" = .ok "late" := by cbv
  have hrow : lateRow ∈ [.element [("Sum", .scalar "1")], lateRow] := by simp
  have hsumPath := hpaths "/Case/Debt/Sum" (by decide) (by decide) (by simp [hsum])
  have hduePath := hrows "/Case/Debt" "/Due" _ (by decide) (by decide) (by decide) (by decide) hall
    lateRow hrow (by simp [hdue])
  have hlatePath := hrows "/Case/Debt" "/" _ (by decide) (by decide) (by decide) (by decide) hall
    lateRow hrow (by simp [hlate])
  exact ⟨hpayload, hsum, hsumPath, hall, hdue, hduePath, hlate, hlatePath⟩

end StatementPress.Payload
