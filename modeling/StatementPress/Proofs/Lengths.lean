import Mathlib
import StatementPress.Proofs.Markup.PlainLength
import StatementPress.Proofs.Structure
import StatementPress.Proofs.Template.Validity

/-!
# Lengths in documents

The numbers of a template come to a document as lengths: the place and size of each box, the size of
a font, the width of a rule, of a column and of a picture.  They stand in attributes, one of which
goes on after the length with the look of a border.

`Xml.lengthsIn` reads these attributes off a document, wherever they stand.  What it finds are the
lengths of the numbers of the components (`Component.measures`), page by page in drawing order, and
nothing else.  Checking the template has seen to it that none of these numbers is below zero or not
finite, so each length is plain.
-/

namespace StatementPress

open Markup Compile
open Xml.Scanner (documentOf ofText_documentChars)

namespace Xml

/-! ## Lengths that are read -/

/-- The attributes that hold a length and nothing else, with the elements they stand in. -/
def lengthPlaces : List (String × String) := [
  ("block-container", "left"), ("block-container", "top"), ("block-container", "width"),
  ("block-container", "height"), ("block", "font-size"), ("table-column", "column-width"),
  ("external-graphic", "content-width"), ("external-graphic", "content-height")]

/-- What stands before the first space. -/
def firstWord (s : String) : String := String.ofList (s.toList.takeWhile (· ≠ ' '))

/-- The length in an attribute of an element, if it is the place for one.  A border starts with its
width. -/
def lengthOf? (element : String) (entry : String × String) : Option String :=
  if (element, entry.1) ∈ lengthPlaces then some entry.2
  else if (element, entry.1) = ("block", "border-bottom") then some (firstWord entry.2)
  else none

/-- **The lengths in a document**, in the order in which they stand there. -/
def lengthsIn : List Node → List String
  | [] => []
  | .element name attributes children :: rest =>
    attributes.filterMap (lengthOf? name) ++ lengthsIn children ++ lengthsIn rest
  | _ :: rest => lengthsIn rest

theorem lengthsIn_append (nodes rest : List Node) :
    lengthsIn (nodes ++ rest) = lengthsIn nodes ++ lengthsIn rest := by
  induction nodes with
  | nil => rw [lengthsIn, List.nil_append, List.nil_append]
  | cons node nodes ih => cases node <;> simp [lengthsIn, ih]

@[simp] theorem lengthsIn_readPassage (p : Passage) : lengthsIn (readPassage p) = [] := by
  unfold readPassage
  split <;> simp [lengthsIn]

end Xml

/-! ## Lengths of trees -/

namespace Markup

/-- The lengths in the attributes of a tag. -/
def Attributes.lengths (as : Attributes) (name : LocalName) : List String :=
  as.read.filterMap (Xml.lengthOf? name.text)

/-- The lengths in fixed attributes are found among their names. -/
@[simp] theorem lengths_attributes (entries : List (LocalName × Passage))
    (h : areDistinct (entries.map (·.1.text)) = true) (name : LocalName) :
    (attributes entries h).lengths name =
      entries.filterMap fun entry => Xml.lengthOf? name.text (entry.1.text, entry.2.valueText) :=
  List.filterMap_map

/-- The lengths in what is read of a tree. -/
def Node.lengths (node : Node) : List String := Xml.lengthsIn node.read

/-- The lengths in what is read of trees are those of the trees. -/
theorem Node.lengthsIn_readAll (nodes : List Node) :
    Xml.lengthsIn (Node.readAll nodes) = nodes.flatMap Node.lengths := by
  induction nodes with
  | nil => rw [readAll, Xml.lengthsIn, List.flatMap_nil]
  | cons node nodes ih => rw [readAll, Xml.lengthsIn_append, ih, List.flatMap_cons, lengths]

/-- The lengths of an element are those of its attributes, and then those inside it. -/
theorem Node.lengths_element (before : Passage) (name : LocalName) (as : Attributes)
    (children : List Node) (text : Passage) :
    (Node.element before name as children text).lengths =
      as.lengths name ++ children.flatMap Node.lengths := by
  rw [lengths, read, Xml.lengthsIn_append, Xml.lengthsIn_readPassage, List.nil_append,
    Xml.lengthsIn, Xml.lengthsIn, Xml.lengthsIn_append, Xml.lengthsIn_readPassage, List.append_nil,
    List.append_nil, lengthsIn_readAll, Attributes.lengths]

theorem Node.lengths_leaf (before : Passage) (name : LocalName) (as : Attributes) (spaced : Bool) :
    (Node.leaf before name as spaced).lengths = as.lengths name := by
  rw [lengths, read, Xml.lengthsIn_append, Xml.lengthsIn_readPassage, List.nil_append,
    Xml.lengthsIn, Xml.lengthsIn, List.append_nil, List.append_nil, Attributes.lengths]

/-- A space ends a length, whatever stands behind it. -/
theorem firstWord_points (x : Binary64) (rest : List Char) :
    Xml.firstWord (String.ofList ((points x).toList ++ ' ' :: rest)) = points x := by
  have hword : ∀ c ∈ (points x).toList, (decide (c ≠ ' ')) = true := by
    intro c hc
    have hspace := (isLengthChar_spec (isLengthChar_points hc)).2
    rw [decide_eq_true_eq]
    rintro rfl
    cases hspace
  rw [Xml.firstWord, String.toList_ofList, List.takeWhile_append_of_pos hword,
    List.takeWhile_cons_of_neg (by decide), List.append_nil, String.ofList_toList]

/-- A border starts with its width. -/
theorem firstWord_border (x : Binary64) (color : String) :
    Xml.firstWord (Passage.join [.length x, .fixed " solid ", .escaped color]).valueText =
      points x := by
  have hpieces : (Passage.join [.length x, .fixed " solid ", .escaped color]).pieces =
      (Passage.length x).pieces ++ (.plain ' ' :: ("solid ".toList.map .plain ++
        (Passage.escaped color).pieces)) := by
    simp [Passage.join, Passage.fixed, Passage.plain]
  rw [Passage.valueText, hpieces, Passage.attributeText_length_append]
  exact firstWord_points x _

end Markup

/-! ## Numbers of components -/

/-- The numbers of a place on the page. -/
def Position.measures (p : Position) : List Binary64 := [p.x, p.y, p.width, p.height]

namespace Component

/-- The numbers that the content of a component shows as lengths. -/
def contentMeasures : Component → List Binary64
  | .text c => [c.style.fontSize]
  | .image c => [c.position.width, c.position.height]
  | .divider c => [c.strokeWidth]
  | .table c => c.columns.map (·.width)
  | .totals _ | .payment _ | .callout _ | .unknown _ => []

/-- **The numbers that a component shows as lengths**: those of its box, then those of its content.
A component that is not drawn shows none. -/
def measures (c : Component) : List Binary64 :=
  match c.position? with
  | some p => p.measures ++ c.contentMeasures
  | none => []

variable {c : Component}

/-- The numbers of a valid component are finite and not below zero. -/
theorem Valid.isNonNegative (h : c.Valid) : ∀ x ∈ c.measures, x.IsNonNegative := by
  have hcontent : ∀ x ∈ c.contentMeasures, x.IsPositive := by
    have hvalid := h.content
    cases c with
    | text c => simpa [contentMeasures] using hvalid.2.fontSize
    | image c =>
      have hposition := h.position c.position rfl
      simpa [contentMeasures] using ⟨hposition.width, hposition.height⟩
    | divider c => simpa [contentMeasures] using hvalid.1
    | table c =>
      intro x hx
      obtain ⟨column, hcolumn, rfl⟩ := List.mem_map.mp hx
      exact (hvalid.2 column hcolumn).width
    | _ => intro x hx; cases hx
  intro x hx
  unfold measures at hx
  split at hx
  · rename_i p hp
    obtain ⟨hleft, htop, hwidth, hheight⟩ := h.position p hp
    rcases List.mem_append.mp hx with hx | hx
    · simp only [Position.measures, List.mem_cons, List.not_mem_nil, or_false] at hx
      rcases hx with rfl | rfl | rfl | rfl
      · exact hleft
      · exact htop
      · exact hwidth.isNonNegative
      · exact hheight.isNonNegative
    · exact (hcontent x hx).isNonNegative
  · cases hx

/-- A component that passes the check shows no other numbers, whether it is known or not: one that is
not known shows none. -/
theorem isNonNegative_of_passes (h : c.Passes) : ∀ x ∈ c.measures, x.IsNonNegative := by
  by_cases hknown : ∃ u, c = .unknown u
  · obtain ⟨u, rfl⟩ := hknown
    intro x hx
    cases hx
  · have hplain : c.Plain := fun u hu => absurd ⟨u, hu⟩ hknown
    exact ((passes_iff hplain).mp h).isNonNegative

end Component

/-! ## What is read of components -/

section
variable (payload : Payload)

theorem Markup.lengths_textBlock (as : Attributes) (text : Passage) :
    (textBlock as text).lengths = as.lengths (named "block") := by
  rw [textBlock, Node.lengths_element, List.flatMap_nil, List.append_nil]

/-- There are no lengths in the rows of a table. -/
theorem Markup.lengths_rowNode {as : Attributes} (h : as.lengths (named "block") = [])
    (texts : List String) : (rowNode as texts).lengths = [] := by
  have hcell : ∀ text, (cellNode as text).lengths = [] := by
    intro text
    rw [cellNode, Node.lengths_element, List.flatMap_singleton, lengths_textBlock, h]
    rfl
  have hrow : (attributes []).lengths (named "table-row") = [] := rfl
  rw [rowNode, Node.lengths_element, hrow, List.nil_append, List.flatMap_eq_nil_iff]
  intro node hnode
  obtain ⟨text, -, rfl⟩ := List.mem_map.mp hnode
  exact hcell text

/-- The lengths of a table are the widths of its columns. -/
theorem TableComponent.lengths_node (c : TableComponent) :
    (c.node payload).lengths = (c.columns.map (·.width)).map points := by
  have hcolumn : ∀ column, (columnNode column).lengths = [points column.width] := by
    intro column
    rw [columnNode, Node.lengths_leaf]
    simp [named, Xml.lengthOf?, Xml.lengthPlaces]
  have hbody : (c.bodyNode payload).lengths = [] := by
    have hrows : ∀ node ∈ rowNode boldAttributes (c.columns.map (·.header)) ::
        (c.gridShown payload).map (rowNode (attributes [])), node.lengths = [] := by
      intro node hnode
      rcases List.mem_cons.mp hnode with rfl | hnode
      · exact lengths_rowNode rfl _
      · obtain ⟨texts, -, rfl⟩ := List.mem_map.mp hnode
        exact lengths_rowNode rfl texts
    rw [bodyNode, Node.lengths_element, List.flatMap_eq_nil_iff.mpr hrows]
    rfl
  have htable : (attributes [(named "table-layout", .fixed "fixed"),
      (named "width", .fixed "100%")]).lengths (named "table") = [] := rfl
  rw [node, Node.lengths_element, htable, List.nil_append, List.flatMap_append,
    List.flatMap_singleton, hbody, List.append_nil, List.flatMap_map, List.map_map,
    List.map_eq_flatMap]
  exact congrArg (c.columns.flatMap ·) (funext hcolumn)

/-- The lengths in the content of a component are those of its numbers. -/
theorem Component.lengths_content? {c : Component} {content : Markup.Node}
    (h : c.content? payload = some content) :
    content.lengths = c.contentMeasures.map points := by
  cases c with
  | text c =>
    cases h
    rw [TextComponent.node, lengths_textBlock]
    simp [Markup.named, Xml.lengthOf?, Xml.lengthPlaces, contentMeasures]
  | image c =>
    cases h
    rw [ImageComponent.node, Node.lengths_leaf]
    split <;> simp [Markup.named, Xml.lengthOf?, Xml.lengthPlaces, contentMeasures]
  | divider c =>
    cases h
    rw [DividerComponent.node, Node.lengths_leaf]
    simp [Markup.named, Xml.lengthOf?, Xml.lengthPlaces, contentMeasures, firstWord_border]
  | table c =>
    cases h
    exact TableComponent.lengths_node payload c
  | totals c =>
    cases h
    rw [TotalsComponent.node, lengths_textBlock]
    rfl
  | payment c =>
    cases h
    rw [PaymentComponent.node, lengths_textBlock]
    rfl
  | callout c =>
    cases h
    rw [CalloutComponent.node, Node.lengths_element, List.flatMap_cons, List.flatMap_singleton,
      lengths_textBlock, lengths_textBlock]
    rfl
  | unknown c => cases h

/-- **What a component draws has the lengths of its numbers.** -/
theorem Component.lengths_boxes (c : Component) :
    (c.boxes payload).flatMap Node.lengths = c.measures.map points := by
  have hposition := c.position?_eq_none_iff payload
  rw [boxes, measures]
  cases hcontent : c.content? payload with
  | none => rw [hposition.mpr hcontent, List.flatMap_nil, List.map_nil]
  | some content =>
    cases hp : c.position? with
    | none =>
      rw [hposition.mp hp] at hcontent
      cases hcontent
    | some p =>
      dsimp only
      rw [List.flatMap_singleton, container, Node.lengths_element, List.flatMap_singleton,
        lengths_content? payload hcontent, List.map_append]
      refine congrArg (· ++ c.contentMeasures.map points) ?_
      simp [Markup.named, Xml.lengthOf?, Xml.lengthPlaces, Position.measures]

/-- The numbers that a page shows as lengths, in drawing order. -/
def Page.measures (p : Page) : List Binary64 := p.stacked.flatMap Component.measures

/-- The lengths of a page are those of its components, in drawing order. -/
theorem Page.lengths_node (p : Page) (before : Passage) :
    (p.node payload before).lengths = p.measures.map points := by
  have hpage : (attributes [(Markup.named "master-reference", p.size.passage)]).lengths
      (Markup.named "page-sequence") = [] := rfl
  have hflow : (attributes [(Markup.named "flow-name", .fixed "xsl-region-body")]).lengths
      (Markup.named "flow") = [] := rfl
  rw [node, Node.lengths_element, hpage, List.nil_append, List.flatMap_singleton, flow,
    Node.lengths_element, hflow, List.nil_append, Page.boxes, components_eq_stacked,
    List.flatMap_assoc, measures, List.map_flatMap]
  exact congrArg (p.stacked.flatMap ·) (funext (Component.lengths_boxes payload))

/-- The sizes of pages are fixed, and no numbers of the template. -/
theorem Compile.lengths_mastersNode (margin : String) (sizes : List PageSize) :
    (mastersNode margin sizes).lengths = [] := by
  have hmaster : ∀ node ∈ sizes.map (masterNode margin), node.lengths = [] := by
    intro node hnode
    obtain ⟨size, -, rfl⟩ := List.mem_map.mp hnode
    rw [masterNode, Node.lengths_element, List.flatMap_singleton, Node.lengths_leaf]
    rfl
  have hmasters : (attributes []).lengths (Markup.named "layout-master-set") = [] := rfl
  rw [mastersNode, Node.lengths_element, List.flatMap_eq_nil_iff.mpr hmaster, hmasters,
    List.append_nil]

/-- **The lengths in a document are those of the numbers of its pages.** -/
theorem lengthsIn_documentOf (margin : String) (pages : List Page) :
    Xml.lengthsIn [(documentOf (rootNodes margin payload pages)).root.toNode] =
      (pages.flatMap Page.measures).map points := by
  have hpages : (pages.map (Page.node payload (.fixed "\n  "))).flatMap Node.lengths =
      (pages.flatMap Page.measures).map points := by
    rw [List.flatMap_map, List.map_flatMap]
    exact congrArg (pages.flatMap ·) (funext fun p => Page.lengths_node payload p _)
  rw [documentOf, Xml.Element.toNode, Xml.lengthsIn, Xml.lengthsIn, Xml.Scanner.rootChildren,
    Xml.lengthsIn_append, Xml.lengthsIn_readPassage, Node.lengthsIn_readAll, List.filterMap_nil,
    rootNodes, List.flatMap_cons, lengths_mastersNode, hpages]
  simp

end

/-- **Every length in a document is plain.**  A document that was compiled can be read, and the
lengths in it are those of the numbers of the template: page by page in ascending order and
component by component in drawing order, each length is digits, perhaps with a point and more
digits, and the unit.  No sign, no exponent and no word is in any of them. -/
theorem lengths_plain (config : CompilerConfig) (t : Template) (text fo : String)
    (h : (config.compile t text).outcome = .ok fo) :
    ∃ (d : Xml.Document) (pages : List Page),
      (∀ limit, d.size ≤ limit → Xml.Document.ofText limit fo = .ok d) ∧
      pages.Perm t.pages ∧ pages.Pairwise (fun p q => p.pageNumber < q.pageNumber) ∧
      Xml.lengthsIn [d.root.toNode] = (pages.flatMap Page.measures).map points ∧
      ∀ length ∈ Xml.lengthsIn [d.root.toNode], IsPlainLength length := by
  obtain ⟨hvalid, -, payload, -, rfl⟩ := CompilerConfig.gates_of_compile h
  have hlengths := lengthsIn_documentOf payload config.margin (inOrder t.pages)
  refine ⟨documentOf (rootNodes config.margin payload (inOrder t.pages)), inOrder t.pages,
    fun limit hlimit => ofText_documentChars String.toList_ofList hlimit, perm_inOrder t.pages,
    pairwise_inOrder (Template.nodup_pageNumbers_of_validate hvalid), hlengths, ?_⟩
  intro length hlength
  rw [hlengths] at hlength
  obtain ⟨x, hx, rfl⟩ := List.mem_map.mp hlength
  obtain ⟨page, hpage, hx⟩ := List.mem_flatMap.mp hx
  obtain ⟨c, hc, hx⟩ := List.mem_flatMap.mp hx
  rw [← Page.components_eq_stacked] at hc
  have hcomponent := Template.mem_components (Template.mem_pages_of_mem_inOrder hpage) hc
  have hpasses : c.Passes := (Template.validate_iff.mp hvalid).2.1 c hcomponent
  exact isPlainLength_points_iff.mpr (Component.isNonNegative_of_passes hpasses x hx)

/-- A template with a rule whose box lies at negative zero and at the least double above zero, and is
as wide as a double can be. -/
def endlessRule : Template where
  schemaVersion := schemaVersion
  tenantId := "tenant"
  templateId := "template"
  name := "Endless"
  status := .draft
  version := 1
  pages := [
    { id := "page", pageNumber := 1
      body := { components := [.divider
        { id := "rule", strokeWidth := Binary64.ofRatio false 1 10
          position := ⟨Binary64.zero.withSign true, Binary64.ofMagnitude false 1,
            Binary64.ofMagnitude false (Binary64.infinityMagnitude - 1), 1⟩ }] } }]
  createdBy := "author"
  updatedBy := "author"

theorem lengths_plain_of_endlessRule :
    ∃ fo d, (CompilerConfig.compile {} endlessRule "<Case/>").outcome = .ok fo ∧
      (∀ limit, d.size ≤ limit → Xml.Document.ofText limit fo = .ok d) ∧
      Xml.lengthsIn [d.root.toNode] = ["0pt",
        "0." ++ String.ofList (List.replicate 323 '0') ++ "5pt",
        "17976931348623157" ++ String.ofList (List.replicate 292 '0') ++ "pt", "1pt", "0.1pt"] ∧
      ∀ length ∈ Xml.lengthsIn [d.root.toNode], IsPlainLength length := by
  have hcompile : (CompilerConfig.compile {} endlessRule "<Case/>").outcome = _ :=
    CompilerConfig.outcome_compile_of_readable rfl rfl Payload.outcome_ofText_case
  obtain ⟨d, pages, hd, hpages, -, hlengths, hplain⟩ := lengths_plain {} endlessRule _ _ hcompile
  rw [List.perm_singleton.mp hpages] at hlengths
  refine ⟨_, d, hcompile, hd, hlengths.trans ?_, hplain⟩
  decide +kernel

end StatementPress
