import StatementPress.Proofs.Binary64
import StatementPress.Template.Basic

/-!
# Invariants of templates

What has to hold of a template, said of the template itself: nothing here mentions a JSON value, a
rule for a field or the walk that checks them.  A component that is not known only has an identifier
to keep; everything else it came with is its own affair.
-/

namespace StatementPress

/-- A number sign and six hexadecimal digits, in either case. -/
def IsColor (s : String) : Prop :=
  ∃ digits : List Char, s.toList = '#' :: digits ∧ digits.length = 6 ∧
    ∀ d ∈ digits, ('0' ≤ d ∧ d ≤ '9') ∨ ('a' ≤ d ∧ d ≤ 'f') ∨ ('A' ≤ d ∧ d ≤ 'F')

/-- A box on the page, of some size. -/
@[mk_iff] structure Position.Valid (p : Position) : Prop where
  x : p.x.IsNonNegative
  y : p.y.IsNonNegative
  width : p.width.IsPositive
  height : p.height.IsPositive

/-- A binding has a path; that the path is absolute is asked only when a template is compiled. -/
def Binding.Valid (b : Binding) : Prop := b.path ≠ ""

/-- A text style with a font family, a font size and a colour. -/
@[mk_iff] structure TextStyle.Valid (s : TextStyle) : Prop where
  fontFamily : s.fontFamily ≠ ""
  fontSize : s.fontSize.IsPositive
  color : IsColor s.color

/-- A column with an identifier, a header and a width. -/
@[mk_iff] structure TableColumn.Valid (c : TableColumn) : Prop where
  id : c.id ≠ ""
  header : c.header ≠ ""
  width : c.width.IsPositive
  binding : c.binding.Valid

namespace Component

/-- What a component has to hold by its kind, beside identifier, box and bindings. -/
def ContentValid : Component → Prop
  | .text c => ((∃ s, c.content = some s ∧ s ≠ "") ∨ ∃ b, c.binding = some b) ∧ c.style.Valid
  | .image c => c.assetId ≠ ""
  | .divider c => c.strokeWidth.IsPositive ∧ IsColor c.color
  | .table c => c.columns ≠ [] ∧ ∀ column ∈ c.columns, column.Valid
  | .payment c => c.instruction ≠ ""
  | .callout c => c.title ≠ "" ∧ c.body ≠ ""
  | .totals _ | .unknown _ => True

/-- The invariants of a component beside identifier and box. -/
@[mk_iff] structure FieldsValid (c : Component) : Prop where
  bindings : ∀ b ∈ c.bindings, b.Valid
  content : c.ContentValid

/-- The invariants of a component. -/
structure Valid (c : Component) : Prop extends FieldsValid c where
  id : c.id ≠ ""
  position : ∀ p, c.position? = some p → p.Valid

/-- An unknown component that cannot be taken for anything else: its kind is not known, and no field
stands in for kind or identifier. -/
def Plain (c : Component) : Prop :=
  ∀ u, c = .unknown u → u.kind ∉ componentKinds ∧ ∀ m ∈ u.fields, m.1 ≠ "type" ∧ m.1 ≠ "id"

end Component

namespace Template

/-- The invariants of a template's own fields. -/
@[mk_iff] structure FieldsValid (t : Template) : Prop where
  schemaVersion : t.schemaVersion = "1.0"
  tenantId : t.tenantId ≠ ""
  templateId : t.templateId ≠ ""
  name : t.name ≠ ""
  version : 1 ≤ t.version
  createdBy : t.createdBy ≠ ""
  updatedBy : t.updatedBy ≠ ""

/-- The invariants of a template outside its components. -/
structure OuterValid (t : Template) : Prop extends FieldsValid t where
  pages : t.pages ≠ []
  pageIds : ∀ p ∈ t.pages, p.id ≠ ""
  pageNumbers : ∀ p ∈ t.pages, 1 ≤ p.pageNumber
  distinctNumbers : (t.pages.map (·.pageNumber)).Nodup

/-- The invariants of a template. -/
structure Valid (t : Template) : Prop extends OuterValid t where
  components : ∀ c ∈ t.components, c.Valid
  distinctIds : (t.components.map (·.id)).Nodup

/-- No component of a template can be taken for anything else. -/
def Plain (t : Template) : Prop := ∀ c ∈ t.components, c.Plain

end Template

end StatementPress
