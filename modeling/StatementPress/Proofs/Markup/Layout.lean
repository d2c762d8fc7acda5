import StatementPress.Compile.Document
import StatementPress.Proofs.Markup.TableDrawing

/-!
# The document as a tree

A component of a known kind draws one box at its place on the page, a component of an unknown kind
draws nothing (`Component.boxes`).  A page is the boxes of its header, body and footer in one flow,
and the document is the page masters followed by the pages.

Where all bindings are absolute, every step of drawing succeeds with the text of the tree.
-/

namespace StatementPress

open Markup StatementPress.Path

/-! ## Components -/

namespace Component

/-- The tree of the content of a component. -/
def content? (payload : Payload) : Component → Option Node
  | .text c => some (c.node payload)
  | .image c => some c.node
  | .divider c => some c.node
  | .table c => some (c.node payload)
  | .totals c => some (c.node payload)
  | .payment c => some (c.node payload)
  | .callout c => some c.node
  | .unknown _ => none

/-- A box on the page with a tree in it. -/
def container (p : Position) (content : Node) : Node :=
  .element .empty (named "block-container")
    (attributes [(named "absolute-position", .fixed "absolute"), (named "left", .length p.x),
      (named "top", .length p.y), (named "width", .length p.width),
      (named "height", .length p.height)])
    [content] .empty

/-- What a component draws: one box, or nothing if its kind is not known. -/
def boxes (payload : Payload) (c : Component) : List Node :=
  match c.content? payload, c.position? with
  | some content, some p => [container p content]
  | _, _ => []

variable {c : Component}

/-- The content of a component is what the tree of its content writes. -/
theorem outcome_markup? (h : ∀ b ∈ c.bindings, IsAbsolute b.path) (payload : Payload) :
    (c.markup? payload).outcome =
      .ok ((c.content? payload).map fun node => String.ofList node.write) := by
  cases c with
  | text c =>
    have hb : ∀ b ∈ c.binding, IsAbsolute b.path := fun b hb =>
      h b (by simpa [bindings] using hb)
    rw [markup?, Run.outcome_map, TextComponent.outcome_markup payload hb]
    rfl
  | image c => rw [markup?, Run.outcome_pure, ImageComponent.markup_eq]; rfl
  | divider c => rw [markup?, Run.outcome_pure, DividerComponent.markup_eq]; rfl
  | table c => rw [markup?, Run.outcome_map, TableComponent.outcome_markup h]; rfl
  | totals c =>
    rw [markup?, Run.outcome_map, TotalsComponent.outcome_markup payload (h _ List.mem_cons_self)]
    rfl
  | payment c =>
    rw [markup?, Run.outcome_map, PaymentComponent.outcome_markup payload (h _ List.mem_cons_self)]
    rfl
  | callout c => rw [markup?, Run.outcome_pure, CalloutComponent.markup_eq]; rfl
  | unknown c => rfl

/-- A box around content is what the tree of the box writes. -/
theorem toList_positioned (p : Position) (content : Node) :
    (positioned p (String.ofList content.write)).toList = (container p content).write := by
  unfold positioned
  simp [container, Node.write, Node.writeAll, attr, writeTag, writeClosing, writeAttribute,
    qualifierChars, named, attributes]

/-- The text of what a component draws. -/
def drawnText (payload : Payload) (c : Component) : String :=
  String.ofList (Node.writeAll (c.boxes payload))

/-- **The fragment of a component is the text of what it draws.** -/
theorem outcome_fragment (h : ∀ b ∈ c.bindings, IsAbsolute b.path) (payload : Payload) :
    (c.fragment payload).outcome = .ok (c.drawnText payload) := by
  rw [fragment, Run.outcome_bind, outcome_markup? h, ok_bind, drawnText, boxes]
  cases c.content? payload with
  | none => rfl
  | some content =>
    cases c.position? with
    | none => rfl
    | some p =>
      rw [Option.map_some, Run.outcome_bind, Run.outcome_record, ok_bind, Run.outcome_pure]
      refine congrArg Except.ok (eq_ofList ?_)
      rw [toList_positioned, Node.writeAll, Node.writeAll, List.append_nil]

end Component

/-! ## Pages -/

/-- The components of a page in drawing order. -/
def Page.components (p : Page) : List Component := p.regions.flatMap (·.2.components)

/-- What a page draws. -/
def Page.boxes (payload : Payload) (p : Page) : List Node :=
  p.components.flatMap (Component.boxes payload)

/-- The page sequence of a page whose components have given fragments. -/
def Page.sequenceText (fragment : Component → String) (p : Page) : String :=
  "<fo:page-sequence" ++ attr "master-reference" p.size.name ++ "><fo:flow" ++
    attr "flow-name" "xsl-region-body" ++ ">" ++ String.join (p.components.map fragment) ++
    "</fo:flow></fo:page-sequence>"

/-- The name of a page size as a passage. -/
def PageSize.passage (s : PageSize) : Passage := .fixed s.name (by cases s; decide)

/-- The flow of a page. -/
def Page.flow (payload : Payload) (p : Page) : Node :=
  .element .empty (named "flow") (attributes [(named "flow-name", .fixed "xsl-region-body")])
    (p.boxes payload) .empty

/-- The tree of a page, after the passage before it. -/
def Page.node (payload : Payload) (before : Passage) (p : Page) : Node :=
  .element before (named "page-sequence") (attributes [(named "master-reference", p.size.passage)])
    [p.flow payload] .empty

/-- Whether every binding in a list of components is absolute. -/
def AllAbsolute (components : List Component) : Prop :=
  ∀ c ∈ components, ∀ b ∈ c.bindings, IsAbsolute b.path

namespace Compile

variable (payload : Payload)

/-- A region draws its components one after the other. -/
theorem outcome_regionMarkup {r : Region} {fragment : Component → String}
    (h : ∀ c ∈ r.components, (c.fragment payload).outcome = .ok (fragment c)) :
    (regionMarkup payload r).outcome = .ok (String.join (r.components.map fragment)) := by
  rw [regionMarkup, Run.outcome_bind, Run.outcome_mapM_of_ok h, ok_bind, Run.outcome_pure]

/-- **The line of a page has one fragment for each component**, in drawing order. -/
theorem outcome_pageSequence {page : Page} {fragment : Component → String}
    (h : ∀ c ∈ page.components, (c.fragment payload).outcome = .ok (fragment c)) :
    (pageSequence payload page).outcome = .ok (page.sequenceText fragment) := by
  have hpart : ∀ part ∈ page.regions, (pagePart payload page part).outcome =
      .ok (String.join (part.2.components.map fragment)) := by
    intro part hpart
    have hregion := outcome_regionMarkup payload fun c hc =>
      h c (List.mem_flatMap.mpr ⟨part, hpart, hc⟩)
    rw [pagePart, Run.outcome_bind, hregion, ok_bind, Run.outcome_bind, Run.outcome_record, ok_bind,
      Run.outcome_pure]
  have hjoin : String.join (page.regions.map fun part =>
      String.join (part.2.components.map fragment)) =
        String.join (page.components.map fragment) := by
    apply String.toList_injective
    simp [Page.components, List.flatMap_map, List.flatMap_assoc]
  rw [pageSequence, Run.outcome_bind, Run.outcome_mapM_of_ok hpart, ok_bind, Run.outcome_pure, hjoin]
  rfl

/-- **The line of a page is the text of its tree.** -/
theorem toList_sequenceText (page : Page) :
    (page.sequenceText (Component.drawnText payload)).toList =
      (page.node payload .empty).write := by
  unfold Page.sequenceText
  simp [Component.drawnText, Page.node, Page.flow, Page.boxes, PageSize.passage, Node.write,
    Node.writeAll, Node.writeAll_eq_flatMap, List.flatMap_map, List.flatMap_assoc, attr, writeTag,
    writeClosing, writeAttribute, qualifierChars, named, attributes]

/-! ## Documents -/

/-- The tree of a page master. -/
def masterNode (margin : String) (size : PageSize) : Node :=
  .element (.fixed "\n    ") (named "simple-page-master")
    (attributes [(named "master-name", size.passage),
      (named "page-width", .fixed (Text.decimal size.millimetres.1 ++ "mm") (by cases size; decide)),
      (named "page-height", .fixed (Text.decimal size.millimetres.2 ++ "mm") (by cases size; decide)),
      (named "margin", .escaped margin)])
    [.leaf (.fixed "\n      ") (named "region-body") (attributes []) true] (.fixed "\n    ")

/-- The tree of the page masters. -/
def mastersNode (margin : String) (sizes : List PageSize) : Node :=
  .element (.fixed "\n  ") (named "layout-master-set") (attributes [])
    (sizes.map (masterNode margin)) (.fixed "\n  ")

/-- The trees in the outermost element: the page masters, then the pages. -/
def rootNodes (margin : String) (payload : Payload) (pages : List Page) : List Node :=
  mastersNode margin (pages.map (·.size)).eraseDups ::
    pages.map (Page.node payload (.fixed "\n  "))

/-- The XML declaration. -/
def declarationText : String := "<?xml version=\"1.0\" encoding=\"UTF-8\"?>"

/-- The start of the outermost element. -/
def rootStart : List Char :=
  '<' :: qualifierChars ++ "root".toList ++ ' ' :: "xmlns:fo".toList ++ '=' :: '"' ::
    namespaceUri.toList ++ ['"', '>']

/-- The text of a document with given trees in its outermost element. -/
def documentChars (nodes : List Node) : List Char :=
  declarationText.toList ++ '\n' :: rootStart ++ Node.writeAll nodes ++
    '\n' :: writeClosing (named "root") ++ ['\n']

/-- Texts that each end a line, after a line feed, are texts that each start a line. -/
theorem flatMap_lines {α : Type} {f g : α → List Char} (h : ∀ a, '\n' :: f a = g a ++ ['\n'])
    (l : List α) (rest : List Char) :
    '\n' :: (l.flatMap f ++ rest) = l.flatMap g ++ '\n' :: rest := by
  induction l with
  | nil => rfl
  | cons a l ih =>
    calc '\n' :: ((a :: l).flatMap f ++ rest)
        = '\n' :: f a ++ (l.flatMap f ++ rest) := by
          rw [List.flatMap_cons, List.append_assoc, List.cons_append]
      _ = g a ++ '\n' :: (l.flatMap f ++ rest) := by rw [h]; simp
      _ = (a :: l).flatMap g ++ '\n' :: rest := by rw [ih, List.flatMap_cons, List.append_assoc]

/-- A page master is what its tree writes. -/
theorem toList_pageMaster (margin : String) (size : PageSize) :
    '\n' :: (pageMaster margin size).toList = (masterNode margin size).write ++ ['\n'] := by
  unfold pageMaster
  simp [masterNode, PageSize.passage, Node.write, Node.writeAll, attr, writeTag, writeClosing,
    writeAttribute, qualifierChars, named, attributes]

/-- The line of a page is what the tree of the page writes. -/
theorem toList_line (page : Page) :
    '\n' :: (line (page.sequenceText (Component.drawnText payload))).toList =
      (page.node payload (.fixed "\n  ")).write ++ ['\n'] := by
  rw [line, String.toList_append, String.toList_append, toList_sequenceText]
  simp [Page.node, Node.write]

/-- **The document is the text of its tree**, whatever stands in it. -/
theorem toList_assemble (margin : String) (pages : List Page) :
    (assemble margin pages
      (pages.map (Page.sequenceText (Component.drawnText payload)))).toList =
      documentChars (rootNodes margin payload pages) := by
  have hmasters := flatMap_lines (toList_pageMaster margin)
  have hpages := flatMap_lines (toList_line payload)
  unfold assemble preamble closing
  simp [documentChars, declarationText, rootStart, rootNodes,
    mastersNode, Node.write, Node.writeAll_eq_flatMap, List.flatMap_map, hmasters,
    hpages, attr, writeTag, writeClosing, qualifierChars, named, attributes]

end Compile

end StatementPress
