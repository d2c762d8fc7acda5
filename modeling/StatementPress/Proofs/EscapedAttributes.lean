import Mathlib
import StatementPress.Proofs.Markup.Escaped
import StatementPress.Proofs.Structure

/-!
# Attributes that hold strings

Four attributes of a document hold strings from outside: the font family of a text, the source and
the role of a picture, and the margin of a page master.  When the document is read again each is the
string without the characters that no document may hold, and with a plain space for each tab and
each line feed.  Carriage returns are kept.
-/

namespace StatementPress

open Markup Compile Payload
open Xml.Scanner (documentOf ofText_documentChars)

/-! ## Boxes -/

/-- **Whether the strings in the attributes of a component are read from its box**, each as `read`
has it. -/
def Component.AttributesRead (read : String → String) (box : Payload) : Component → Prop
  | .text c => box.resolve "/block/@_font-family" = .ok (read c.style.fontFamily)
  | .image c =>
    box.resolve "/external-graphic/@_src" = .ok ("url('asset:" ++ read c.assetId ++ "')") ∧
      (c.description ≠ "" →
        box.resolve "/external-graphic/@_role" = .ok (read c.description))
  | _ => True

/-- An escaped string, read between quotation marks. -/
def Markup.readValue (s : String) : String := flatten (allowedPart s)

/-- The attribute of the only child of an element. -/
theorem Payload.resolve_childAttribute (key name : String) {path mark value text innerText : String}
    {attributes inner : List (String × String)} {kids : List (String × Payload)}
    (habsolute : Path.IsAbsolute path) (hparts : Path.parts path = [key, mark])
    (hmark : attributeMark ++ name = mark) (hkey : isAttributeKey key = false ∧ key ≠ textKey)
    (hvalue : inner.lookup name = some value) :
    (ofParts attributes [(key, ofParts inner kids innerText)] text).resolve path = .ok value := by
  have hget : (ofParts attributes [(key, ofParts inner kids innerText)] text).get? key =
      some (ofParts inner kids innerText) := by
    rw [get?_ofParts_child hkey.1 hkey.2, lookup_group]
    simp [Payload.named, gather]
  rw [resolve_of_isAbsolute habsolute, textAt, hparts, ← hmark,
    lookup_cons_of_isSingle (isSingle_ofParts _ _ _), hget, Option.bind_some,
    lookup_singleton (isSingle_ofParts _ _ _), get?_ofParts_attribute hvalue]
  rfl

theorem Markup.entry_textBlock (as : Attributes) (p : Passage) :
    (textBlock as p).entry = ("block", ofParts as.read (ofNodes []) (textOf [] p)) := by
  rw [textBlock, Markup.Node.entry, Markup.Node.readAll]
  rfl

theorem Markup.entry_leaf (before : Passage) (name : LocalName) (as : Attributes) (spaced : Bool) :
    (Markup.Node.leaf before name as spaced).entry =
      (name.text, ofParts as.read [] (Text.trim (Xml.directText []))) := by
  rw [Markup.Node.entry]

/-- The strings of a component are read from the box that it draws. -/
theorem Component.attributesRead_container (payload : Payload) {c : Component} {p : Position}
    {content : Markup.Node} (h : c.content? payload = some content) :
    c.AttributesRead readValue (container p content).entry.2 := by
  rw [entry_container]
  dsimp only
  cases c with
  | text c =>
    cases h
    rw [AttributesRead, TextComponent.node, entry_textBlock]
    have hparts : Path.parts "/block/@_font-family" = ["block", "@_font-family"] := by decide
    refine resolve_childAttribute "block" "font-family" (by decide) hparts (by decide) (by decide) ?_
    simp [attributes, Attributes.read, Markup.named, valueText_escaped, readValue]
  | image c =>
    cases h
    have hsource : c.source.valueText = "url('asset:" ++ readValue c.assetId ++ "')" :=
      valueText_join_escaped _ _ _ _ _ (by decide)
    rw [AttributesRead, ImageComponent.node, entry_leaf]
    have hparts : Path.parts "/external-graphic/@_src" = ["external-graphic", "@_src"] := by decide
    have hparts' : Path.parts "/external-graphic/@_role" = ["external-graphic", "@_role"] := by
      decide
    refine ⟨resolve_childAttribute "external-graphic" "src" (by decide) hparts (by decide)
      (by decide) ?_, fun hdescription => resolve_childAttribute "external-graphic" "role"
        (by decide) hparts' (by decide) (by decide) ?_⟩
    · split <;> simp [attributes, Attributes.read, Markup.named, hsource]
    · rw [if_neg (by simpa using hdescription)]
      simp [attributes, Attributes.read, Markup.named, List.lookup_cons, valueText_escaped,
        readValue]
  | _ => trivial

/-- Each box of a page has the strings of its component. -/
theorem Payload.attributesRead_boxes (payload : Payload) (p : Page) :
    List.Forall₂ (fun c box => Component.AttributesRead readValue box c)
      (p.components.filter fun c => c.position?.isSome)
      ((p.boxes payload).map fun box => box.entry.2) := by
  rw [Page.boxes]
  induction p.components with
  | nil => exact .nil
  | cons c components ih =>
    have hposition := c.position?_eq_none_iff payload
    rw [List.flatMap_cons, Component.boxes]
    cases hcontent : c.content? payload with
    | none =>
      rw [List.filter_cons_of_neg (by simp [hposition.mpr hcontent])]
      exact ih
    | some content =>
      obtain ⟨place, hplace⟩ := Option.ne_none_iff_exists'.mp fun hnone =>
        Option.some_ne_none content (hcontent ▸ hposition.mp hnone)
      rw [List.filter_cons_of_pos (by simp [hplace]), hplace]
      exact .cons (Component.attributesRead_container payload hcontent) ih

/-! ## Page masters -/

/-- A page master, read again: its name, its size and its margin. -/
theorem Compile.entry_masterNode (margin : String) (size : PageSize) : (masterNode margin size).entry =
    ("simple-page-master", ofParts [("master-name", size.passage.valueText),
      ("page-width", (Passage.fixed (Text.decimal size.millimetres.1 ++ "mm")
        (by cases size; decide)).valueText),
      ("page-height", (Passage.fixed (Text.decimal size.millimetres.2 ++ "mm")
        (by cases size; decide)).valueText),
      ("margin", (Passage.escaped margin).valueText)]
      [(Markup.Node.leaf (.fixed "\n      ") (named "region-body") (attributes []) true).entry]
      (textOf [.leaf (.fixed "\n      ") (named "region-body") (attributes []) true]
        (.fixed "\n    "))) := by
  rw [masterNode, Markup.Node.entry, ofNodes_readAll]
  rfl

/-- The set of page masters, read again. -/
theorem Compile.entry_mastersNode (margin : String) (sizes : List PageSize) :
    (mastersNode margin sizes).entry = ("layout-master-set",
      ofParts [] ((sizes.map (masterNode margin)).map Markup.Node.entry)
        (textOf (sizes.map (masterNode margin)) (.fixed "\n  "))) := by
  rw [mastersNode, Markup.Node.entry, ofNodes_readAll]
  rfl

/-- **The page masters of a document are those of the sizes in use.** -/
theorem Payload.nodesAt_masters (margin : String) (payload : Payload) (pages : List Page) :
    (Payload.element [("root", rootOf (rootNodes margin payload pages))]).nodesAt
        "/root/layout-master-set/simple-page-master" =
      (pages.map (·.size)).eraseDups.map fun size => (masterNode margin size).entry.2 := by
  have hparts : Path.parts "/root/layout-master-set/simple-page-master" =
      ["root", "layout-master-set", "simple-page-master"] := by decide
  have hroot : (rootOf (rootNodes margin payload pages)).IsSingle := isSingle_ofParts _ _ _
  have hnames : ∀ child ∈ ((pages.map (·.size)).eraseDups.map (masterNode margin)).map
      Markup.Node.entry, child.1 = "simple-page-master" := by
    intro child hchild
    obtain ⟨node, hnode, rfl⟩ := List.mem_map.mp hchild
    obtain ⟨size, -, rfl⟩ := List.mem_map.mp hnode
    rw [entry_masterNode]
  -- the set of page masters is the only child of its name, all others are pages
  have hset : named "layout-master-set" ((rootNodes margin payload pages).map Markup.Node.entry) =
      [(mastersNode margin (pages.map (·.size)).eraseDups).entry.2] := by
    have hothers : ((pages.map (Page.node payload (.fixed "\n  "))).map
        Markup.Node.entry).filter (fun child => child.1 == "layout-master-set") = [] := by
      simp [entry_pageNode]
    rw [Payload.named, rootNodes, List.map_cons, List.filter_cons_of_pos, hothers]
    · rfl
    · rw [entry_mastersNode]
      rfl
  have hget : (rootOf (rootNodes margin payload pages)).get? "layout-master-set" =
      some (mastersNode margin (pages.map (·.size)).eraseDups).entry.2 := by
    rw [rootOf, get?_ofParts_child (by decide) (by decide), lookup_group, hset, if_pos]
    · rfl
    · simp [rootNodes, entry_mastersNode]
  rw [nodesAt_eq, hparts]
  change items ((rootOf _).lookup ["layout-master-set", "simple-page-master"]) = _
  rw [lookup_cons_of_isSingle hroot, hget, Option.bind_some,
    lookup_singleton (Markup.Node.isSingle_entry _), entry_mastersNode,
    items_get?_ofParts (by decide) (by decide) fun _ => isSingle_of_mem_map_entry,
    named_of_forall hnames, List.map_map, List.map_map]
  rfl

/-- Each page master has the margin. -/
theorem Payload.resolve_masterNode (margin : String) (size : PageSize) :
    (masterNode margin size).entry.2.resolve "/@_master-name" = .ok size.name ∧
      (masterNode margin size).entry.2.resolve "/@_margin" = .ok (readValue margin) := by
  have hparts : Path.parts "/@_margin" = ["@_margin"] := by decide
  have hparts' : Path.parts "/@_master-name" = ["@_master-name"] := by decide
  have hname : size.passage.valueText = size.name := by
    cases size
    decide
  rw [entry_masterNode]
  dsimp only
  refine ⟨resolve_attribute "master-name" "@_master-name" (by decide) hparts' (by decide) ?_,
    resolve_attribute "margin" "@_margin" (by decide) hparts (by decide) ?_⟩
  · rw [List.lookup_cons, beq_self_eq_true, hname]
  · simp [List.lookup_cons, valueText_escaped, readValue]

/-! ## Documents -/

/-- **A document is read again as its trees**, within ceilings that are high enough. -/
theorem outcome_ofText_document (margin : String) (payload : Payload) (t : Template)
    {limits : Limits}
    (hbytes : Text.byteSize (t.document margin payload).toList ≤ limits.maxBytes.toNat)
    (hnodes : (documentOf (rootNodes margin payload (inOrder t.pages))).size ≤
      limits.maxNodes.toNat) (hmax : 9 ≤ limits.maxDepth.toNat) :
    (Payload.ofText limits (t.document margin payload)).outcome =
      .ok (.element [("root", rootOf (rootNodes margin payload (inOrder t.pages)))]) := by
  have hdepth := depth_documentSkeleton payload (inOrder t.pages)
  rw [← outlines_documentOf margin, ← nesting_eq_depth] at hdepth
  rw [outcome_ofText hbytes (ofText_documentChars String.toList_ofList hnodes) (by omega),
    ofNodes_documentOf]

/-- An escaped string is read back unless it holds a tab or a line feed. -/
theorem Markup.readValue_eq_iff (s : String) :
    readValue s = allowedPart s ↔ ∀ c ∈ s.toList, c ≠ '\t' ∧ c ≠ '\n' := by
  have hallowed : Xml.isAllowed '\t' = true ∧ Xml.isAllowed '\n' = true := by decide
  rw [readValue, flatten_eq_self_iff, allowedPart, String.toList_ofList]
  refine ⟨fun h c hc => ⟨?_, ?_⟩, fun h c hc => h c (List.mem_filter.mp hc).1⟩
  · rintro rfl
    exact (h _ (List.mem_filter.mpr ⟨hc, hallowed.1⟩)).1 rfl
  · rintro rfl
    exact (h _ (List.mem_filter.mpr ⟨hc, hallowed.2⟩)).2 rfl

/-- **The strings in the attributes of a document are read again with plain spaces for their tabs
and line feeds.**  Each page master, one for each size in use, has the margin; in each flow each box
has the strings of its component.  What is read is the string without the characters that no
document may hold exactly if it has neither a tab nor a line feed. -/
theorem attributes_read_back (config : CompilerConfig) (t : Template) (text fo : String)
    (h : (config.compile t text).outcome = .ok fo) :
    ∃ d tree pages masters sequences,
      (∀ limit, d.size ≤ limit → Xml.Document.ofText limit fo = .ok d) ∧
      (∀ limits : Limits, Text.byteSize fo.toList ≤ limits.maxBytes.toNat →
        d.size ≤ limits.maxNodes.toNat → 9 ≤ limits.maxDepth.toNat →
          (Payload.ofText limits fo).outcome = .ok tree) ∧
      pages.Perm t.pages ∧ pages.Pairwise (fun p q => p.pageNumber < q.pageNumber) ∧
      tree.resolveAll "/root/layout-master-set/simple-page-master" = .ok masters ∧
      List.Forall₂ (fun size master => master.resolve "/@_master-name" = .ok (PageSize.name size) ∧
        master.resolve "/@_margin" = .ok (readValue config.margin))
          (pages.map (·.size)).eraseDups masters ∧
      tree.resolveAll "/root/page-sequence" = .ok sequences ∧
      List.Forall₂ (fun page sequence => ∃ boxes,
        sequence.resolveAll "/flow/block-container" = .ok boxes ∧
          List.Forall₂ (fun c box => Component.AttributesRead readValue box c)
            (page.stacked.filter fun c => c.position?.isSome) boxes) pages sequences ∧
      ∀ s, readValue s = allowedPart s ↔ ∀ c ∈ s.toList, c ≠ '\t' ∧ c ≠ '\n' := by
  obtain ⟨hvalid, -, payload, -, rfl⟩ := CompilerConfig.gates_of_compile h
  refine ⟨documentOf (rootNodes config.margin payload (inOrder t.pages)), _, inOrder t.pages, _, _,
    fun limit hlimit => ofText_documentChars String.toList_ofList hlimit,
    fun limits hbytes hnodes hmax => outcome_ofText_document _ payload t hbytes hnodes hmax,
    perm_inOrder t.pages,
    pairwise_inOrder (Template.nodup_pageNumbers_of_validate hvalid),
    resolveAll_of_isAbsolute (by decide) _, ?_, resolveAll_of_isAbsolute (by decide) _, ?_,
    readValue_eq_iff⟩
  · rw [nodesAt_masters, List.forall₂_map_right_iff, List.forall₂_same]
    exact fun size _ => resolve_masterNode config.margin size
  · rw [nodesAt_pages, List.forall₂_map_right_iff, List.forall₂_same]
    intro page _
    refine ⟨_, resolveAll_of_isAbsolute (by decide) _, ?_⟩
    rw [nodesAt_boxes, ← Page.components_eq_stacked]
    exact attributesRead_boxes payload page

/-- A template with a text whose font family holds a tab. -/
def tabInFont : Template where
  schemaVersion := schemaVersion
  tenantId := "a"
  templateId := "b"
  name := "n"
  status := .draft
  version := 1
  pages := [
    { id := "p", pageNumber := 1
      body := { components := [.text
        { id := "t", position := ⟨0, 0, 1, 1⟩, content := some "C",
          style := { fontFamily := "A\tB", fontSize := 1 } }] } }]
  createdBy := "c"
  updatedBy := "c"

/-- The template is valid and has no bindings, so it is compiled with any payload. -/
theorem outcome_compile_tabInFont : (CompilerConfig.compile {} tabInFont "<Case/>").outcome =
    .ok (tabInFont.document "10mm" (.element [("Case", .scalar "")])) :=
  CompilerConfig.outcome_compile_of_readable rfl rfl outcome_ofText_case

theorem inOrder_tabInFont : inOrder tabInFont.pages = tabInFont.pages := List.mergeSort_singleton _

/-- The document is well below the default ceilings. -/
theorem byteSize_document_tabInFont : Text.byteSize
    (tabInFont.document "10mm" (.element [("Case", .scalar "")])).toList ≤ 8388608 := by
  rw [Template.document, inOrder_tabInFont, String.toList_ofList]
  decide +kernel

theorem size_documentOf_tabInFont : (documentOf (rootNodes "10mm" (.element [("Case", .scalar "")])
    (inOrder tabInFont.pages))).size = 17 := by
  rw [inOrder_tabInFont]
  cbv

theorem attributes_read_back_of_tabInFont :
    ∃ fo tree masters sequences,
      (CompilerConfig.compile {} tabInFont "<Case/>").outcome = .ok fo ∧
      (Payload.ofText {} fo).outcome = .ok tree ∧
      tree.resolveAll "/root/layout-master-set/simple-page-master" = .ok masters ∧
      List.Forall₂ (fun size master => master.resolve "/@_master-name" = .ok (PageSize.name size) ∧
        master.resolve "/@_margin" = .ok "10mm") [.a4] masters ∧
      tree.resolveAll "/root/page-sequence" = .ok sequences ∧
      List.Forall₂ (fun _ sequence => ∃ box,
        sequence.resolveAll "/flow/block-container" = .ok [box] ∧
          box.resolve "/block/@_font-family" = .ok "A B") tabInFont.pages sequences := by
  obtain ⟨d, tree, pages, masters, sequences, hd, htree, hpages, -, hmasters, hmargins, hsequences,
    hboxes, -⟩ := attributes_read_back {} tabInFont _ _ outcome_compile_tabInFont
  -- the document that is read is the one whose size is known
  have hsame : d = documentOf (rootNodes "10mm" (.element [("Case", .scalar "")])
      (inOrder tabInFont.pages)) := by
    have hread := hd _ (Nat.le_max_left d.size 17)
    have hbound := size_documentOf_tabInFont.trans_le (Nat.le_max_right d.size 17)
    rw [Template.document, ofText_documentChars String.toList_ofList hbound] at hread
    exact (Except.ok.inj hread).symm
  have hsize : d.size ≤ 1000000 := by
    rw [hsame, size_documentOf_tabInFont]
    decide
  have hpages' : pages = tabInFont.pages := List.perm_singleton.mp hpages
  have hmargin : readValue "10mm" = "10mm" := by decide
  have hfamily : readValue "A\tB" = "A B" := by decide
  subst hpages'
  refine ⟨_, tree, masters, sequences, outcome_compile_tabInFont,
    htree {} byteSize_document_tabInFont hsize (by decide), hmasters, ?_, hsequences, ?_⟩
  · exact hmargins.imp fun size master hmaster => ⟨hmaster.1, hmargin ▸ hmaster.2⟩
  · obtain ⟨sequence, rest, ⟨boxes, hfound, hread⟩, hrest, rfl⟩ :=
      List.forall₂_cons_left_iff.mp hboxes
    rw [← Page.components_eq_stacked] at hread
    obtain ⟨box, others, hbox, hothers, rfl⟩ := List.forall₂_cons_left_iff.mp hread
    cases hrest
    cases hothers
    exact .cons ⟨box, hfound, hfamily ▸ hbox⟩ .nil

/-- A tab in a font family is not read back. -/
theorem not_attributes_read_back_of_tabInFont :
    ∃ fo tree, (CompilerConfig.compile {} tabInFont "<Case/>").outcome = .ok fo ∧
      (Payload.ofText {} fo).outcome = .ok tree ∧
      tree.resolve "/root/page-sequence/flow/block-container/block/@_font-family" = .ok "A B" ∧
      allowedPart "A\tB" ≠ "A B" := by
  have htree : (Payload.ofText {} (tabInFont.document "10mm" _)).outcome = _ :=
    outcome_ofText_document "10mm" _ tabInFont byteSize_document_tabInFont
      (size_documentOf_tabInFont ▸ by decide) (by decide)
  refine ⟨_, _, outcome_compile_tabInFont, htree, ?_, by decide⟩
  rw [inOrder_tabInFont]
  cbv

end StatementPress
