import Mathlib.Data.List.Forall2
import StatementPress.Proofs.Payload.Nodes
import StatementPress.Proofs.Xml.Reading

/-!
# Documents as payloads

What a document of trees is as a payload, and what its paths lead to: the pages, the boxes of a page,
and the place of a box.
-/

namespace StatementPress

open Markup Compile Payload
open Xml.Scanner (documentOf rootChildren)

/-! ## Entries of nodes -/

/-- The text of an element with given nodes and a passage in it. -/
def Markup.textOf (children : List Markup.Node) (text : Passage) : String :=
  Text.trim (Xml.directText (Markup.Node.readAll children ++ readPassage text))

/-- The entry of a node in the payload. -/
def Markup.Node.entry : Markup.Node → String × Payload
  | .element _ name as children text =>
    (name.text, ofParts as.read (ofNodes (readAll children)) (textOf children text))
  | .leaf _ name as _ => (name.text, ofParts as.read [] (Text.trim (Xml.directText [])))

@[simp] theorem Payload.ofNodes_readPassage (p : Passage) : ofNodes (readPassage p) = [] := by
  unfold readPassage
  split <;> simp [ofNodes]

theorem Payload.ofNodes_read (node : Markup.Node) : ofNodes node.read = [node.entry] := by
  cases node <;> simp [Markup.Node.read, Markup.Node.entry, textOf, ofNodes_append, ofNodes]

/-- Trees become one entry each. -/
theorem Payload.ofNodes_readAll (nodes : List Markup.Node) :
    ofNodes (Markup.Node.readAll nodes) = nodes.map Markup.Node.entry := by
  induction nodes with
  | nil => rw [Markup.Node.readAll, ofNodes, List.map_nil]
  | cons node nodes ih =>
    rw [Markup.Node.readAll, ofNodes_append, ofNodes_read, ih, List.map_cons, List.singleton_append]

theorem Markup.Node.isSingle_entry (node : Markup.Node) : node.entry.2.IsSingle := by
  cases node <;> exact isSingle_ofParts _ _ _

namespace Payload

/-- The element in which the trees of a document stand. -/
def rootOf (nodes : List Markup.Node) : Payload :=
  ofParts [] (nodes.map Markup.Node.entry) (Text.trim (Xml.directText (rootChildren nodes)))

/-- A document is one element with its trees in it. -/
theorem ofNodes_documentOf (nodes : List Markup.Node) :
    ofNodes [(documentOf nodes).root.toNode] = [("root", rootOf nodes)] := by
  simp [documentOf, Xml.Element.toNode, ofNodes, rootChildren, ofNodes_append, ofNodes_readAll,
    rootOf]

theorem named_of_forall {key : String} {children : List (String × Payload)}
    (h : ∀ child ∈ children, child.1 = key) : named key children = children.map (·.2) := by
  rw [named, List.filter_eq_self.mpr fun child hchild => beq_iff_eq.mpr (h child hchild)]

/-! ## Pages -/

variable (payload : Payload)

/-- A page, read again: its master and its flow. -/
theorem entry_pageNode (before : Passage) (p : Page) :
    (p.node payload before).entry =
      ("page-sequence", ofParts [("master-reference", p.size.passage.valueText)]
        [(p.flow payload).entry] (textOf [p.flow payload] .empty)) := by
  rw [Page.node, Markup.Node.entry, ofNodes_readAll]
  rfl

/-- A flow, read again: its boxes. -/
theorem entry_flow (p : Page) : (p.flow payload).entry =
    ("flow", ofParts [("flow-name", (Passage.fixed "xsl-region-body").valueText)]
      ((p.boxes payload).map Markup.Node.entry) (textOf (p.boxes payload) .empty)) := by
  rw [Page.flow, Markup.Node.entry, ofNodes_readAll]
  rfl

/-- A box, read again: its place and its content. -/
theorem entry_container (p : Position) (content : Markup.Node) :
    (Component.container p content).entry =
      ("block-container", ofParts [("absolute-position", (Passage.fixed "absolute").valueText),
        ("left", points p.x), ("top", points p.y), ("width", points p.width),
        ("height", points p.height)] [content.entry] (textOf [content] .empty)) := by
  rw [Component.container, Markup.Node.entry, ofNodes_readAll]
  simp [attributes, Attributes.read, Markup.named]

theorem isSingle_of_mem_map_entry {nodes : List Markup.Node} {child : String × Payload}
    (h : child ∈ nodes.map Markup.Node.entry) : child.2.IsSingle := by
  obtain ⟨node, -, rfl⟩ := List.mem_map.mp h
  exact node.isSingle_entry

theorem parts_pages : Path.parts "/root/page-sequence" = ["root", "page-sequence"] := by decide

theorem parts_boxes : Path.parts "/flow/block-container" = ["flow", "block-container"] := by decide

theorem lookup_singleton {node : Payload} (h : node.IsSingle) (key : String) :
    node.lookup [key] = node.get? key := by
  rw [lookup_cons_of_isSingle h]
  cases node.get? key <;> rfl

/-- **The page sequences of a document are its pages**, in their order. -/
theorem nodesAt_pages (margin : String) (pages : List Page) :
    (Payload.element [("root", rootOf (rootNodes margin payload pages))]).nodesAt
        "/root/page-sequence" =
      pages.map fun p => (p.node payload (.fixed "\n  ")).entry.2 := by
  have hroot : (rootOf (rootNodes margin payload pages)).IsSingle := isSingle_ofParts _ _ _
  have hnames : ∀ child ∈ (pages.map (Page.node payload (.fixed "\n  "))).map Markup.Node.entry,
      child.1 = "page-sequence" := by
    simp [entry_pageNode]
  have hpages : named "page-sequence" ((rootNodes margin payload pages).map Markup.Node.entry) =
      ((pages.map (Page.node payload (.fixed "\n  "))).map Markup.Node.entry).map (·.2) := by
    rw [← named_of_forall hnames]
    rfl
  rw [nodesAt_eq, parts_pages]
  change items ((rootOf _).lookup ["page-sequence"]) = _
  rw [lookup_singleton hroot, rootOf, items_get?_ofParts (by decide) (by decide)
    fun _ => isSingle_of_mem_map_entry, hpages, List.map_map, List.map_map]
  rfl

/-! ## Boxes -/

/-- A component with a place draws one box there, any other draws none. -/
theorem boxes_cases (c : Component) :
    (c.position? = none ∧ c.boxes payload = []) ∨
      ∃ p content, c.position? = some p ∧ c.boxes payload = [Component.container p content] := by
  cases c with
  | unknown c => exact .inl ⟨rfl, rfl⟩
  | _ => exact .inr ⟨_, _, rfl, rfl⟩

theorem entry_fst_of_mem_boxes {p : Page} {box : Markup.Node} (h : box ∈ p.boxes payload) :
    box.entry.1 = "block-container" := by
  obtain ⟨c, -, hbox⟩ := List.mem_flatMap.mp h
  rcases boxes_cases payload c with ⟨-, hnil⟩ | ⟨p, content, -, hone⟩
  · rw [hnil] at hbox
    cases hbox
  · rw [hone, List.mem_singleton] at hbox
    rw [hbox, entry_container]

/-- **The boxes in the flow of a page are what its components draw**, in their order. -/
theorem nodesAt_boxes (before : Passage) (p : Page) :
    (p.node payload before).entry.2.nodesAt "/flow/block-container" =
      (p.boxes payload).map fun box => box.entry.2 := by
  have hpage : (p.node payload before).entry.2.IsSingle := Markup.Node.isSingle_entry _
  have hflow : (p.flow payload).entry.2.IsSingle := Markup.Node.isSingle_entry _
  have hnames : ∀ child ∈ (p.boxes payload).map Markup.Node.entry, child.1 = "block-container" := by
    intro child hchild
    obtain ⟨box, hbox, rfl⟩ := List.mem_map.mp hchild
    exact entry_fst_of_mem_boxes payload hbox
  -- the only child of a page sequence is its flow
  have hget : (p.node payload before).entry.2.get? "flow" = some (p.flow payload).entry.2 := by
    rw [entry_pageNode, get?_ofParts_child (by decide) (by decide), lookup_group, if_pos]
    · simp [named, entry_flow, gather]
    · simp [entry_flow]
  rw [nodesAt_eq, parts_boxes, lookup_cons_of_isSingle hpage, hget, Option.bind_some,
    lookup_singleton hflow, entry_flow, items_get?_ofParts (by decide) (by decide)
      fun _ => isSingle_of_mem_map_entry, named_of_forall hnames, List.map_map]
  rfl

/-- Whether a box stands at a place: its four attributes are the lengths of the place. -/
def StandsAt (box : Payload) (p : Position) : Prop :=
  box.resolve "/@_left" = .ok (points p.x) ∧ box.resolve "/@_top" = .ok (points p.y) ∧
    box.resolve "/@_width" = .ok (points p.width) ∧ box.resolve "/@_height" = .ok (points p.height)

/-- A path of one segment leads to an attribute. -/
theorem resolve_attribute (name key : String) {path value : String}
    {attributes : List (String × String)} {children : List (String × Payload)} {text : String}
    (habsolute : Path.IsAbsolute path) (hparts : Path.parts path = [key])
    (hkey : attributeMark ++ name = key) (h : attributes.lookup name = some value) :
    (ofParts attributes children text).resolve path = .ok value := by
  rw [resolve_of_isAbsolute habsolute, textAt, hparts, ← hkey,
    lookup_singleton (isSingle_ofParts _ _ _), get?_ofParts_attribute h]
  rfl

/-- A box stands where its four attributes say. -/
theorem standsAt_ofParts {attributes : List (String × String)}
    {children : List (String × Payload)} {text : String} {p : Position}
    (hleft : attributes.lookup "left" = some (points p.x))
    (htop : attributes.lookup "top" = some (points p.y))
    (hwidth : attributes.lookup "width" = some (points p.width))
    (hheight : attributes.lookup "height" = some (points p.height)) :
    (ofParts attributes children text).StandsAt p :=
  ⟨resolve_attribute "left" "@_left" (by decide) (by decide) (by decide) hleft,
    resolve_attribute "top" "@_top" (by decide) (by decide) (by decide) htop,
    resolve_attribute "width" "@_width" (by decide) (by decide) (by decide) hwidth,
    resolve_attribute "height" "@_height" (by decide) (by decide) (by decide) hheight⟩

/-- The box of a component stands at its position. -/
theorem standsAt_container (p : Position) (content : Markup.Node) :
    (Component.container p content).entry.2.StandsAt p := by
  rw [entry_container]
  dsimp only
  refine standsAt_ofParts ?_ ?_ ?_ ?_
  all_goals simp [List.lookup_cons]

/-- **Each box of a page stands at the place of its component**, one box for each component that has
a place. -/
theorem standsAt_boxes (p : Page) :
    List.Forall₂ (fun place box => StandsAt box place) (p.components.filterMap Component.position?)
      ((p.boxes payload).map fun box => box.entry.2) := by
  rw [Page.boxes]
  induction p.components with
  | nil => exact .nil
  | cons c components ih =>
    rcases boxes_cases payload c with ⟨hp, hnil⟩ | ⟨place, content, hp, hone⟩
    · rw [List.filterMap_cons_none hp, List.flatMap_cons, hnil]
      exact ih
    · rw [List.filterMap_cons_some hp, List.flatMap_cons, hone]
      exact .cons (standsAt_container place content) ih

end Payload

end StatementPress
