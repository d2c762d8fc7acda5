import StatementPress.Json.Basic

/-!
# Statement templates

A template is a list of pages.  A page has three regions, header, body and footer, and a region is a
list of components in stacking order.  Seven kinds of component are known; each has an identifier
and a box on the page (`Frame`).  A component of any other kind is kept as it came, with all its
fields, and draws nothing.

Components read the payload through bindings: an absolute path and the text to show when nothing
stands there.
-/

namespace StatementPress

/-- The schema version of templates. -/
def schemaVersion : String := "1.0"

/-- Where a template stands in its life. -/
inductive TemplateStatus where
  | draft
  | published
  deriving DecidableEq

/-- A page size. -/
inductive PageSize where
  | a4
  deriving DecidableEq

/-- The name of a page size, for its page master too. -/
def PageSize.name : PageSize → String
  | .a4 => "A4"

/-- Width and height of a page in millimetres. -/
def PageSize.millimetres : PageSize → Nat × Nat
  | .a4 => (210, 297)

/-- A box, in points; `y` counts from the top. -/
structure Position where
  /-- The distance from the left edge. -/
  x : Binary64
  /-- The distance from the top. -/
  y : Binary64
  width : Binary64
  height : Binary64
  deriving DecidableEq

/-- A reference into the payload. -/
structure Binding where
  /-- An absolute path. -/
  path : String
  /-- The text to show when nothing stands there. -/
  fallback : String := ""
  deriving DecidableEq

/-- The weight of a font. -/
inductive FontWeight where
  | normal
  | bold
  deriving DecidableEq

/-- The name of a font weight. -/
def FontWeight.name : FontWeight → String
  | .normal => "normal"
  | .bold => "bold"

/-- How lines are aligned. -/
inductive Align where
  | left
  | center
  | right
  deriving DecidableEq

/-- The name of an alignment. -/
def Align.name : Align → String
  | .left => "left"
  | .center => "center"
  | .right => "right"

/-- The colour of text and rules that name none. -/
def black : String := "#000000"

/-- How a text looks. -/
structure TextStyle where
  fontFamily : String := "Helvetica"
  /-- The font size in points. -/
  fontSize : Binary64 := 10
  fontWeight : FontWeight := .normal
  /-- The colour, six hexadecimal digits after a number sign. -/
  color : String := black
  align : Align := .left
  deriving DecidableEq

/-- What every known component has. -/
structure Frame where
  /-- The identifier, unique in a template. -/
  id : String
  position : Position
  deriving DecidableEq

/-- A text, fixed or bound. -/
structure TextComponent extends Frame where
  /-- The fixed text; unless empty it hides the binding. -/
  content : Option String := none
  /-- Where the text is read from. -/
  binding : Option Binding := none
  style : TextStyle
  deriving DecidableEq

/-- A picture held elsewhere. -/
structure ImageComponent extends Frame where
  assetId : String
  /-- The text that stands for it. -/
  description : String := ""
  deriving DecidableEq

/-- A horizontal rule. -/
structure DividerComponent extends Frame where
  /-- The thickness in points. -/
  strokeWidth : Binary64 := 1
  color : String := black
  deriving DecidableEq

/-- A column of a table. -/
structure TableColumn where
  id : String
  /-- The text over the column. -/
  header : String
  /-- The width in points. -/
  width : Binary64
  /-- The text of a cell; below the row path it is read in each row. -/
  binding : Binding
  deriving DecidableEq

/-- A table with a row for each node at a path. -/
structure TableComponent extends Frame where
  /-- Where the rows are. -/
  rowBinding : Binding
  columns : List TableColumn
  deriving DecidableEq

/-- An amount with a label. -/
structure TotalsComponent extends Frame where
  label : String := "Total"
  amountBinding : Binding
  deriving DecidableEq

/-- An instruction to pay to an account. -/
structure PaymentComponent extends Frame where
  instruction : String
  accountBinding : Binding
  deriving DecidableEq

/-- A box with a title and a text. -/
structure CalloutComponent extends Frame where
  title : String
  body : String
  deriving DecidableEq

/-- A component of a kind that is not known, or whose fields do not fit its kind. -/
structure UnknownComponent where
  /-- The kind it claims. -/
  kind : String
  id : String := ""
  /-- All other fields, in ascending order of keys. -/
  fields : List (String × Json) := []

/-- A component. -/
inductive Component where
  | text (c : TextComponent)
  | image (c : ImageComponent)
  | divider (c : DividerComponent)
  | table (c : TableComponent)
  | totals (c : TotalsComponent)
  | payment (c : PaymentComponent)
  | callout (c : CalloutComponent)
  /-- A component that is kept and not drawn. -/
  | unknown (c : UnknownComponent)

/-- The kinds of component that are known. -/
def componentKinds : List String :=
  ["text", "image", "divider", "table", "totals", "payment", "callout"]

namespace Component

/-- Identifier and box of a component of a known kind. -/
def frame? : Component → Option Frame
  | .text c => some c.toFrame
  | .image c => some c.toFrame
  | .divider c => some c.toFrame
  | .table c => some c.toFrame
  | .totals c => some c.toFrame
  | .payment c => some c.toFrame
  | .callout c => some c.toFrame
  | .unknown _ => none

/-- The identifier. -/
def id : Component → String
  | .text c => c.id
  | .image c => c.id
  | .divider c => c.id
  | .table c => c.id
  | .totals c => c.id
  | .payment c => c.id
  | .callout c => c.id
  | .unknown c => c.id

/-- The kind, as templates name it. -/
def kind : Component → String
  | .text _ => "text"
  | .image _ => "image"
  | .divider _ => "divider"
  | .table _ => "table"
  | .totals _ => "totals"
  | .payment _ => "payment"
  | .callout _ => "callout"
  | .unknown c => c.kind

/-- The box on the page; what is not drawn has none. -/
def position? (c : Component) : Option Position := c.frame?.map (·.position)

/-- The bindings, in the order in which they are read. -/
def bindings : Component → List Binding
  | .text c => c.binding.toList
  | .table c => c.rowBinding :: c.columns.map (·.binding)
  | .totals c => [c.amountBinding]
  | .payment c => [c.accountBinding]
  | .image _ | .divider _ | .callout _ | .unknown _ => []

/-- The same component in another box; what is not drawn has no box to change. -/
def withPosition? (p : Position) : Component → Option Component
  | .text c => some (.text { c with position := p })
  | .image c => some (.image { c with position := p })
  | .divider c => some (.divider { c with position := p })
  | .table c => some (.table { c with position := p })
  | .totals c => some (.totals { c with position := p })
  | .payment c => some (.payment { c with position := p })
  | .callout c => some (.callout { c with position := p })
  | .unknown _ => none

end Component

/-- A list of components in stacking order. -/
structure Region where
  components : List Component := []

/-- The places of the regions of a page, in drawing order. -/
inductive RegionKind where
  | header
  | body
  | footer
  deriving DecidableEq

/-- The name of a region. -/
def RegionKind.name : RegionKind → String
  | .header => "header"
  | .body => "body"
  | .footer => "footer"

/-- A page. -/
structure Page where
  id : String
  /-- The number that puts the page in its order. -/
  pageNumber : UInt32
  size : PageSize := .a4
  header : Region := {}
  body : Region := {}
  footer : Region := {}

/-- A region of a page. -/
def Page.region (p : Page) : RegionKind → Region
  | .header => p.header
  | .body => p.body
  | .footer => p.footer

/-- The regions of a page in drawing order. -/
def Page.regions (p : Page) : List (RegionKind × Region) :=
  [(.header, p.header), (.body, p.body), (.footer, p.footer)]

theorem Page.region_of_mem_regions {p : Page} {part : RegionKind × Region} (h : part ∈ p.regions) :
    part.2 = p.region part.1 := by
  simp only [regions, List.mem_cons, List.not_mem_nil, or_false] at h
  rcases h with rfl | rfl | rfl <;> rfl

/-- A template. -/
structure Template where
  schemaVersion : String
  /-- The owner. -/
  tenantId : String
  /-- The identifier, the same in all versions. -/
  templateId : String
  name : String
  description : String := ""
  status : TemplateStatus
  /-- The version, counted from one. -/
  version : UInt32
  /-- The pages, in any order. -/
  pages : List Page
  createdBy : String
  updatedBy : String

namespace Template

/-- What an editor starts from: one page with empty regions. -/
def starter : Template where
  schemaVersion := StatementPress.schemaVersion
  tenantId := "tenant-demo"
  templateId := "template-demo"
  name := "Statement"
  description := "Example statement template"
  status := .draft
  version := 1
  pages := [{ id := "page-1", pageNumber := 1 }]
  createdBy := "designer"
  updatedBy := "designer"

/-- Every component, by page, region and stacking order. -/
def components (t : Template) : List Component :=
  t.pages.flatMap fun p => p.regions.flatMap fun r => r.2.components

/-- The path of every binding, in the order of the components. -/
def bindingPaths (t : Template) : List String :=
  t.components.flatMap fun c => c.bindings.map (·.path)

end Template

end StatementPress
