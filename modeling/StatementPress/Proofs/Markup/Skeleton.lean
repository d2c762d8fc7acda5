import StatementPress.Proofs.Markup.Layout

/-!
# The skeleton of a document

What a document looks like when all its strings are left out: which elements stand in which, with
which attributes.  It follows from the kinds of the components, the number of columns of each table,
the number of rows that the payload has for it, and whether a picture is described.  No string of the
template and no text of the payload has a part in it.
-/

namespace StatementPress

open Markup Compile

/-! ## Depth -/

namespace Markup

/-- How deep elements stand inside each other. -/
def depth : List Outline → Nat
  | [] => 0
  | .node _ _ children :: rest => max (1 + depth children) (depth rest)

/-- Elements are nested as deep as their outlines. -/
theorem nesting_eq_depth (nodes : List Xml.Node) : Xml.nesting nodes = depth (outlines nodes) := by
  fun_induction Xml.nesting nodes with
  | case1 => rw [outlines, depth]
  | case2 name attributes children rest ih₁ ih₂ => rw [outlines, depth, ih₁, ih₂]
  | case3 node rest hnode ih =>
    cases node with
    | element name attributes children => exact absurd rfl (hnode name attributes children)
    | text s => rw [ih, outlines]; simp
    | comment => rw [ih, outlines]; simp
    | instruction => rw [ih, outlines]; simp

theorem depth_node (name : String) (attributes : List String) (children : List Outline) :
    depth [.node name attributes children] = 1 + depth children := by
  simp [depth]

theorem depth_cons_le {n : Nat} {o : Outline} {os : List Outline} (ho : depth [o] ≤ n)
    (hos : depth os ≤ n) : depth (o :: os) ≤ n := by
  cases o with
  | node name attributes children =>
    rw [depth_node] at ho
    rw [depth]
    omega

/-- Side by side, elements are as deep as the deepest of them. -/
theorem depth_le_of_forall {n : Nat} {os : List Outline} (h : ∀ o ∈ os, depth [o] ≤ n) :
    depth os ≤ n := by
  induction os with
  | nil => rw [depth]; exact Nat.zero_le n
  | cons o os ih =>
    exact depth_cons_le (h o List.mem_cons_self) (ih fun p hp => h p (List.mem_cons_of_mem o hp))

end Markup

/-! ## Components -/

/-- A row of a table, with a block that has some attributes in each cell. -/
def rowSkeleton (blockAttributes : List String) (columns : Nat) : Outline :=
  .node "table-row" []
    (List.replicate columns (.node "table-cell" ["padding"] [.node "block" blockAttributes []]))

/-- A table: its columns, then the headers, then the rows. -/
def tableSkeleton (columns rows : Nat) : Outline :=
  .node "table" ["table-layout", "width"]
    (List.replicate columns (.node "table-column" ["column-width"] []) ++
      [.node "table-body" [] (rowSkeleton ["font-weight"] columns ::
        List.replicate rows (rowSkeleton [] columns))])

/-- The content of a component, if its kind is known. -/
def Component.contentSkeleton? (payload : Payload) : Component → Option Outline
  | .text _ =>
    some (.node "block" ["font-family", "font-size", "font-weight", "color", "text-align"] [])
  | .image c =>
    some (.node "external-graphic" (["src", "content-width", "content-height"] ++
      if c.description.isEmpty then [] else ["role"]) [])
  | .divider _ => some (.node "block" ["border-bottom"] [])
  | .table c => some (tableSkeleton c.columns.length (payload.nodesAt c.rowBinding.path).length)
  | .totals _ => some (.node "block" ["font-weight"] [])
  | .payment _ => some (.node "block" [] [])
  | .callout _ =>
    some (.node "block" ["border", "padding"]
      [.node "block" ["font-weight"] [], .node "block" [] []])
  | .unknown _ => none

/-- A component: a container around its content, or nothing. -/
def Component.skeleton (payload : Payload) (c : Component) : List Outline :=
  (c.contentSkeleton? payload).toList.map fun content =>
    .node "block-container" ["absolute-position", "left", "top", "width", "height"] [content]

/-! ## Documents -/

/-- The components of a page, header first, footer last. -/
def Page.stacked (p : Page) : List Component :=
  p.header.components ++ p.body.components ++ p.footer.components

/-- A page: one flow, with the components in their order. -/
def Page.skeleton (payload : Payload) (p : Page) : Outline :=
  .node "page-sequence" ["master-reference"]
    [.node "flow" ["flow-name"] (p.stacked.flatMap (Component.skeleton payload))]

/-- The page masters: one for each size in use. -/
def mastersSkeleton (sizes : List PageSize) : Outline :=
  .node "layout-master-set" [] (sizes.eraseDups.map fun _ =>
    .node "simple-page-master" ["master-name", "page-width", "page-height", "margin"]
      [.node "region-body" [] []])

/-- A document of pages in their order. -/
def documentSkeleton (payload : Payload) (pages : List Page) : Outline :=
  .node "root" [] (mastersSkeleton (pages.map (·.size)) :: pages.map (Page.skeleton payload))

/-! ## Trees have the skeleton -/

section
variable (payload : Payload)

/-- A row has a cell for each text, whatever the texts hold. -/
theorem outline_rowNode (as : Attributes) (texts : List String) :
    (rowNode as texts).outline = rowSkeleton (as.entries.map (·.1.text)) texts.length := by
  have hcell : ∀ text, (cellNode as text).outline =
      .node "table-cell" ["padding"] [.node "block" (as.entries.map (·.1.text)) []] := fun _ => rfl
  simp [rowNode, rowSkeleton, Node.outline, Node.outlineAll_eq_map, hcell, List.map_const', named,
    attributes, Function.comp_def]

/-- A table has the skeleton of its columns and rows. -/
theorem TableComponent.outline_node (c : TableComponent) :
    (c.node payload).outline = tableSkeleton c.columns.length (c.rows payload).length := by
  have hcolumn : ∀ column, (columnNode column).outline = .node "table-column" ["column-width"] [] :=
    fun _ => rfl
  have hrow : ∀ texts ∈ c.gridShown payload,
      rowSkeleton [] texts.length = rowSkeleton [] c.columns.length := by
    intro texts htexts
    obtain ⟨row, -, rfl⟩ := List.mem_map.mp htexts
    rw [List.length_map]
  have hrows : (c.gridShown payload).map (fun texts => rowSkeleton [] texts.length) =
      List.replicate (c.rows payload).length (rowSkeleton [] c.columns.length) := by
    rw [List.map_congr_left hrow, List.map_const', gridShown, List.length_map]
  simp [node, bodyNode, tableSkeleton, Node.outline, Node.outlineAll_eq_map, outline_rowNode,
    hcolumn, hrows, List.map_const', named, attributes, boldAttributes, Function.comp_def]

/-- **What a component draws has the skeleton of its kind.** -/
theorem Component.outline_content? (c : Component) :
    (c.content? payload).map Node.outline = c.contentSkeleton? payload := by
  cases c with
  | text c => rfl
  | image c =>
    rw [content?, contentSkeleton?, ImageComponent.node]
    cases c.description.isEmpty <;> rfl
  | divider c => rfl
  | table c => exact congrArg some (TableComponent.outline_node payload c)
  | totals c => rfl
  | payment c => rfl
  | callout c => rfl
  | unknown c => rfl

/-- The components without a place are those that draw nothing. -/
theorem Component.position?_eq_none_iff (c : Component) :
    c.position? = none ↔ c.content? payload = none := by
  cases c <;> simp [position?, frame?, content?]

theorem Component.outlineAll_boxes (c : Component) :
    Node.outlineAll (c.boxes payload) = c.skeleton payload := by
  have hposition := c.position?_eq_none_iff payload
  rw [boxes, skeleton, ← outline_content?]
  cases hcontent : c.content? payload with
  | none => rfl
  | some content =>
    cases hp : c.position? with
    | none => rw [hposition.mp hp] at hcontent; cases hcontent
    | some p => rfl

/-- Components are drawn from the header to the footer, in stored order. -/
theorem Page.components_eq_stacked (p : Page) : p.components = p.stacked := by
  simp [components, stacked, regions]

/-- A page has the skeleton of its components. -/
theorem Page.outline_node (p : Page) (before : Passage) :
    (p.node payload before).outline = p.skeleton payload := by
  have hboxes : Node.outlineAll (p.boxes payload) =
      p.stacked.flatMap (Component.skeleton payload) := by
    rw [boxes, components_eq_stacked, Node.outlineAll_eq_map, List.map_flatMap]
    simp only [← Node.outlineAll_eq_map, Component.outlineAll_boxes]
  simp [node, flow, skeleton, Node.outline, Node.outlineAll, hboxes, named, attributes]

/-- **The trees of a document have its skeleton.** -/
theorem outlineAll_rootNodes (margin : String) (pages : List Page) :
    .node "root" [] (Node.outlineAll (rootNodes margin payload pages)) =
      documentSkeleton payload pages := by
  have hmaster : ∀ size, (masterNode margin size).outline =
      .node "simple-page-master" ["master-name", "page-width", "page-height", "margin"]
        [.node "region-body" [] []] := fun _ => rfl
  simp [rootNodes, documentSkeleton, mastersNode, mastersSkeleton, Node.outline,
    Node.outlineAll_eq_map, Page.outline_node, hmaster, named, attributes, Function.comp_def]

/-! ## The skeleton is flat -/

theorem depth_rowSkeleton (blockAttributes : List String) (columns : Nat) :
    depth [rowSkeleton blockAttributes columns] ≤ 3 := by
  rw [rowSkeleton, depth_node]
  have hcells : depth (List.replicate columns
      (.node "table-cell" ["padding"] [.node "block" blockAttributes []])) ≤ 2 := by
    refine depth_le_of_forall fun o ho => ?_
    rw [List.eq_of_mem_replicate ho]
    simp [depth]
  omega

theorem depth_tableSkeleton (columns rows : Nat) : depth [tableSkeleton columns rows] ≤ 5 := by
  have hrows : depth (rowSkeleton ["font-weight"] columns ::
      List.replicate rows (rowSkeleton [] columns)) ≤ 3 :=
    depth_cons_le (depth_rowSkeleton _ _) (depth_le_of_forall fun o ho => by
      rw [List.eq_of_mem_replicate ho]
      exact depth_rowSkeleton _ _)
  rw [tableSkeleton, depth_node]
  have hchildren : depth (List.replicate columns (.node "table-column" ["column-width"] []) ++
      [.node "table-body" [] (rowSkeleton ["font-weight"] columns ::
        List.replicate rows (rowSkeleton [] columns))]) ≤ 4 := by
    refine depth_le_of_forall fun o ho => ?_
    rcases List.mem_append.mp ho with ho | ho
    · rw [List.eq_of_mem_replicate ho]
      simp [depth]
    · rw [List.mem_singleton.mp ho, depth_node]
      omega
  omega

theorem Component.depth_contentSkeleton? {c : Component} {content : Outline}
    (h : c.contentSkeleton? payload = some content) : depth [content] ≤ 5 := by
  cases c with
  | table c => cases h; exact depth_tableSkeleton _ _
  | unknown c => cases h
  | _ => cases h; simp [depth]

/-- A page is nested eight deep at most: a table in its box in the flow. -/
theorem Page.depth_skeleton (p : Page) : depth [p.skeleton payload] ≤ 8 := by
  have hboxes : depth (p.stacked.flatMap (Component.skeleton payload)) ≤ 6 := by
    refine depth_le_of_forall fun o ho => ?_
    obtain ⟨c, -, ho⟩ := List.mem_flatMap.mp ho
    obtain ⟨content, hcontent, rfl⟩ := List.mem_map.mp ho
    have hdepth := Component.depth_contentSkeleton? payload (Option.mem_toList.mp hcontent)
    rw [depth_node]
    omega
  rw [skeleton, depth_node, depth_node]
  omega

/-- **No document nests elements deeper than nine.** -/
theorem depth_documentSkeleton (pages : List Page) : depth [documentSkeleton payload pages] ≤ 9 := by
  have hmasters : depth [mastersSkeleton (pages.map (·.size))] ≤ 8 := by
    rw [mastersSkeleton, depth_node]
    have hsizes : depth ((pages.map (·.size)).eraseDups.map fun _ => Outline.node
        "simple-page-master" ["master-name", "page-width", "page-height", "margin"]
          [.node "region-body" [] []]) ≤ 2 := by
      refine depth_le_of_forall fun o ho => ?_
      obtain ⟨size, -, rfl⟩ := List.mem_map.mp ho
      simp [depth]
    omega
  rw [documentSkeleton, depth_node]
  have hpages : depth (pages.map (Page.skeleton payload)) ≤ 8 := by
    refine depth_le_of_forall fun o ho => ?_
    obtain ⟨p, -, rfl⟩ := List.mem_map.mp ho
    exact Page.depth_skeleton payload p
  have hchildren := depth_cons_le hmasters hpages
  omega

end

end StatementPress
