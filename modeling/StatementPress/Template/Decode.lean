import StatementPress.Json.Decode
import StatementPress.Template.Encode

/-!
# Templates from JSON values

Decoding is the inverse of encoding, with defaults for the fields that may be absent.

A component is decoded by its kind.  If that fails, because the kind is not known or the fields do
not fit it, the component is taken as unknown: an object with a kind and all its other fields.
-/

namespace StatementPress

open Json

/-- The choices of a template status. -/
def TemplateStatus.choices : List (String × TemplateStatus) :=
  [("draft", .draft), ("published", .published)]

/-- The choices of a page size. -/
def PageSize.choices : List (String × PageSize) := [("A4", .a4)]

/-- The choices of a font weight. -/
def FontWeight.choices : List (String × FontWeight) := [("normal", .normal), ("bold", .bold)]

/-- The choices of an alignment. -/
def Align.choices : List (String × Align) :=
  [("left", .left), ("center", .center), ("right", .right)]

/-- Decodes a box. -/
def Position.ofJson? (j : Json) : Option Position := do
  let field ← j.fields? ["x", "y", "width", "height"]
  return {
    x := ← required (field "x") double?
    y := ← required (field "y") double?
    width := ← required (field "width") double?
    height := ← required (field "height") double? }

/-- Decodes a binding. -/
def Binding.ofJson? (j : Json) : Option Binding := do
  let field ← j.fields? ["path", "fallback"]
  return {
    path := ← required (field "path") string?
    fallback := ← optional (field "fallback") "" string? }

/-- The style of a text that sets nothing. -/
def TextStyle.plain : TextStyle := {}

/-- Decodes a text style. -/
def TextStyle.ofJson? (j : Json) : Option TextStyle := do
  let field ← j.fields? ["fontFamily", "fontSize", "fontWeight", "color", "align"]
  return {
    fontFamily := ← optional (field "fontFamily") plain.fontFamily string?
    fontSize := ← optional (field "fontSize") plain.fontSize double?
    fontWeight := ← optional (field "fontWeight") plain.fontWeight (choice? FontWeight.choices)
    color := ← optional (field "color") plain.color string?
    align := ← optional (field "align") plain.align (choice? Align.choices) }

/-- Decodes identifier and box from the fields of a component. -/
def Frame.ofFields? (field : String → Option Json) : Option Frame := do
  return {
    id := ← required (field "id") string?
    position := ← required (field "position") Position.ofJson? }

/-- Decodes a text. -/
def TextComponent.ofJson? (j : Json) : Option TextComponent := do
  let field ← j.fields? ["id", "position", "content", "binding", "style"]
  return {
    toFrame := ← Frame.ofFields? field
    content := ← optional (field "content") none (nullable? string?)
    binding := ← optional (field "binding") none (nullable? Binding.ofJson?)
    style := ← required (field "style") TextStyle.ofJson? }

/-- Decodes a picture. -/
def ImageComponent.ofJson? (j : Json) : Option ImageComponent := do
  let field ← j.fields? ["id", "position", "assetId", "description"]
  return {
    toFrame := ← Frame.ofFields? field
    assetId := ← required (field "assetId") string?
    description := ← optional (field "description") "" string? }

/-- Decodes a rule. -/
def DividerComponent.ofJson? (j : Json) : Option DividerComponent := do
  let field ← j.fields? ["id", "position", "strokeWidth", "color"]
  return {
    toFrame := ← Frame.ofFields? field
    strokeWidth := ← optional (field "strokeWidth") 1 double?
    color := ← optional (field "color") black string? }

/-- Decodes a column. -/
def TableColumn.ofJson? (j : Json) : Option TableColumn := do
  let field ← j.fields? ["id", "header", "width", "binding"]
  return {
    id := ← required (field "id") string?
    header := ← required (field "header") string?
    width := ← required (field "width") double?
    binding := ← required (field "binding") Binding.ofJson? }

/-- Decodes a table. -/
def TableComponent.ofJson? (j : Json) : Option TableComponent := do
  let field ← j.fields? ["id", "position", "rowBinding", "columns"]
  return {
    toFrame := ← Frame.ofFields? field
    rowBinding := ← required (field "rowBinding") Binding.ofJson?
    columns := ← required (field "columns") (list? TableColumn.ofJson?) }

/-- Decodes a labelled amount. -/
def TotalsComponent.ofJson? (j : Json) : Option TotalsComponent := do
  let field ← j.fields? ["id", "position", "label", "amountBinding"]
  return {
    toFrame := ← Frame.ofFields? field
    label := ← optional (field "label") "Total" string?
    amountBinding := ← required (field "amountBinding") Binding.ofJson? }

/-- Decodes a payment instruction. -/
def PaymentComponent.ofJson? (j : Json) : Option PaymentComponent := do
  let field ← j.fields? ["id", "position", "instruction", "accountBinding"]
  return {
    toFrame := ← Frame.ofFields? field
    instruction := ← required (field "instruction") string?
    accountBinding := ← required (field "accountBinding") Binding.ofJson? }

/-- Decodes a box of text. -/
def CalloutComponent.ofJson? (j : Json) : Option CalloutComponent := do
  let field ← j.fields? ["id", "position", "title", "body"]
  return {
    toFrame := ← Frame.ofFields? field
    title := ← required (field "title") string?
    body := ← required (field "body") string? }

/-- Decodes an unknown component.  It keeps every field except kind and identifier. -/
def UnknownComponent.ofJson? (j : Json) : Option UnknownComponent := do
  let members ← j.members?
  let field ← j.fields? ["type", "id"]
  return {
    kind := ← required (field "type") string?
    id := ← optional (field "id") "" string?
    fields := sortMembers (normalizeMembers
      (members.filter fun m => m.1 != "type" && m.1 != "id")) }

namespace Component

/-- The kind a component claims, and what is left to decode: an object has it under the key `type`,
an array as its first item. -/
def tagged? : Json → Option (Json × Json)
  | .object members =>
    match members.filter (·.1 == "type") with
    | [(_, tag)] => some (tag, .object (members.filter (·.1 != "type")))
    | _ => none
  | .array (tag :: items) => some (tag, .array items)
  | _ => none

/-- The known kind that a tag names, or numbers. -/
def knownKind? : Json → Option String
  | .string name => if componentKinds.contains name then some name else none
  | .number (.whole i) => if 0 ≤ i then componentKinds[i.toNat]? else none
  | _ => none

/-- Decodes a component whose fields fit a known kind. -/
def ofKnown? (j : Json) : Option Component := do
  let (tag, rest) ← tagged? j
  match ← knownKind? tag with
  | "text" => return .text (← TextComponent.ofJson? rest)
  | "image" => return .image (← ImageComponent.ofJson? rest)
  | "divider" => return .divider (← DividerComponent.ofJson? rest)
  | "table" => return .table (← TableComponent.ofJson? rest)
  | "totals" => return .totals (← TotalsComponent.ofJson? rest)
  | "payment" => return .payment (← PaymentComponent.ofJson? rest)
  | "callout" => return .callout (← CalloutComponent.ofJson? rest)
  | _ => none

/-- Decodes a component. -/
def ofJson? (j : Json) : Option Component :=
  match ofKnown? j with
  | some c => some c
  | none => (UnknownComponent.ofJson? j).map .unknown

end Component

/-- Decodes a region. -/
def Region.ofJson? (j : Json) : Option Region := do
  let field ← j.fields? ["components"]
  return { components := ← optional (field "components") [] (list? Component.ofJson?) }

/-- Decodes a page. -/
def Page.ofJson? (j : Json) : Option Page := do
  let field ← j.fields? ["id", "pageNumber", "size", "header", "body", "footer"]
  return {
    id := ← required (field "id") string?
    pageNumber := (← required (field "pageNumber") (natural? UInt32.size)).toUInt32
    size := ← optional (field "size") .a4 (choice? PageSize.choices)
    header := ← required (field "header") Region.ofJson?
    body := ← required (field "body") Region.ofJson?
    footer := ← required (field "footer") Region.ofJson? }

/-- Decodes a template. -/
def Template.ofJson? (j : Json) : Option Template := do
  let field ← j.fields? ["schemaVersion", "tenantId", "templateId", "name", "description",
    "status", "version", "pages", "createdBy", "updatedBy"]
  return {
    schemaVersion := ← required (field "schemaVersion") string?
    tenantId := ← required (field "tenantId") string?
    templateId := ← required (field "templateId") string?
    name := ← required (field "name") string?
    description := ← optional (field "description") "" string?
    status := ← required (field "status") (choice? TemplateStatus.choices)
    version := (← required (field "version") (natural? UInt32.size)).toUInt32
    pages := ← required (field "pages") (list? Page.ofJson?)
    createdBy := ← required (field "createdBy") string?
    updatedBy := ← required (field "updatedBy") string? }

end StatementPress
