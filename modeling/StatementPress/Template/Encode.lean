import StatementPress.Json.Printer
import StatementPress.Template.Basic

/-!
# Templates as JSON

The JSON value of a template and of everything in it: members in the order of the fields, the kind of
a component first, absent content and absent bindings left out.  A number that is not finite has no
JSON number and becomes `null`.
-/

namespace StatementPress

open Json (ofBinary64)

/-- The name of a template status. -/
def TemplateStatus.name : TemplateStatus → String
  | .draft => "draft"
  | .published => "published"

/-- A box as a value. -/
def Position.toJson (p : Position) : Json :=
  .object [("x", ofBinary64 p.x), ("y", ofBinary64 p.y), ("width", ofBinary64 p.width),
    ("height", ofBinary64 p.height)]

/-- A binding as a value. -/
def Binding.toJson (b : Binding) : Json :=
  .object [("path", .string b.path), ("fallback", .string b.fallback)]

/-- A text style as a value. -/
def TextStyle.toJson (s : TextStyle) : Json :=
  .object [("fontFamily", .string s.fontFamily), ("fontSize", ofBinary64 s.fontSize),
    ("fontWeight", .string s.fontWeight.name), ("color", .string s.color),
    ("align", .string s.align.name)]

/-- Identifier and box as members. -/
def Frame.toMembers (f : Frame) : List (String × Json) :=
  [("id", .string f.id), ("position", f.position.toJson)]

/-- A member that is left out if there is no value. -/
def Json.memberOf (key : String) (value : Option Json) : List (String × Json) :=
  match value with
  | some v => [(key, v)]
  | none => []

/-- A text as members. -/
def TextComponent.toMembers (c : TextComponent) : List (String × Json) :=
  c.toFrame.toMembers ++ Json.memberOf "content" (c.content.map .string) ++
    Json.memberOf "binding" (c.binding.map Binding.toJson) ++ [("style", c.style.toJson)]

/-- A picture as members. -/
def ImageComponent.toMembers (c : ImageComponent) : List (String × Json) :=
  c.toFrame.toMembers ++ [("assetId", .string c.assetId), ("description", .string c.description)]

/-- A rule as members. -/
def DividerComponent.toMembers (c : DividerComponent) : List (String × Json) :=
  c.toFrame.toMembers ++ [("strokeWidth", ofBinary64 c.strokeWidth), ("color", .string c.color)]

/-- A column as a value. -/
def TableColumn.toJson (c : TableColumn) : Json :=
  .object [("id", .string c.id), ("header", .string c.header), ("width", ofBinary64 c.width),
    ("binding", c.binding.toJson)]

/-- A table as members. -/
def TableComponent.toMembers (c : TableComponent) : List (String × Json) :=
  c.toFrame.toMembers ++ [("rowBinding", c.rowBinding.toJson),
    ("columns", .array (c.columns.map TableColumn.toJson))]

/-- A labelled amount as members. -/
def TotalsComponent.toMembers (c : TotalsComponent) : List (String × Json) :=
  c.toFrame.toMembers ++ [("label", .string c.label), ("amountBinding", c.amountBinding.toJson)]

/-- A payment instruction as members. -/
def PaymentComponent.toMembers (c : PaymentComponent) : List (String × Json) :=
  c.toFrame.toMembers ++ [("instruction", .string c.instruction),
    ("accountBinding", c.accountBinding.toJson)]

/-- A box of text as members. -/
def CalloutComponent.toMembers (c : CalloutComponent) : List (String × Json) :=
  c.toFrame.toMembers ++ [("title", .string c.title), ("body", .string c.body)]

/-- An unknown component as members: kind, identifier, then the fields it came with. -/
def UnknownComponent.toMembers (c : UnknownComponent) : List (String × Json) :=
  ("type", .string c.kind) :: ("id", .string c.id) :: c.fields

/-- A component as a value. -/
def Component.toJson : Component → Json
  | .text c => .object (("type", .string "text") :: c.toMembers)
  | .image c => .object (("type", .string "image") :: c.toMembers)
  | .divider c => .object (("type", .string "divider") :: c.toMembers)
  | .table c => .object (("type", .string "table") :: c.toMembers)
  | .totals c => .object (("type", .string "totals") :: c.toMembers)
  | .payment c => .object (("type", .string "payment") :: c.toMembers)
  | .callout c => .object (("type", .string "callout") :: c.toMembers)
  | .unknown c => .object c.toMembers

/-- A region as a value. -/
def Region.toJson (r : Region) : Json :=
  .object [("components", .array (r.components.map Component.toJson))]

/-- A page as a value. -/
def Page.toJson (p : Page) : Json :=
  .object [("id", .string p.id), ("pageNumber", .ofNat p.pageNumber.toNat),
    ("size", .string p.size.name), ("header", p.header.toJson), ("body", p.body.toJson),
    ("footer", p.footer.toJson)]

/-- A template as a value. -/
def Template.toJson (t : Template) : Json :=
  .object [("schemaVersion", .string t.schemaVersion), ("tenantId", .string t.tenantId),
    ("templateId", .string t.templateId), ("name", .string t.name),
    ("description", .string t.description), ("status", .string t.status.name),
    ("version", .ofNat t.version.toNat), ("pages", .array (t.pages.map Page.toJson)),
    ("createdBy", .string t.createdBy), ("updatedBy", .string t.updatedBy)]

/-- The JSON text of a template. -/
def Template.jsonText (t : Template) : String := t.toJson.text

end StatementPress
