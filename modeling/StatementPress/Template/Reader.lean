import StatementPress.Json.Typed
import StatementPress.Template.Decode

/-!
# Templates from text

Readers for templates and their parts that work on the text itself, so that a fault is reported with
its place.  Nothing is checked beyond the types of the fields.

A component is read as a whole value and then decoded, since its kind may stand behind the fields
that depend on it.
-/

namespace StatementPress

open Json (Typed)

/-- Reads the status of a template. -/
def TemplateStatus.reader : Typed TemplateStatus := .choice choices

/-- Reads a page size. -/
def PageSize.reader : Typed PageSize := .choice choices

/-- Reads a font weight. -/
def FontWeight.reader : Typed FontWeight := .choice choices

/-- Reads an alignment. -/
def Align.reader : Typed Align := .choice choices

/-- A box at the origin, without extent. -/
def Position.origin : Position := ⟨0, 0, 0, 0⟩

/-- Reads a box. -/
def Position.reader : Typed Position :=
  .record "Position" origin [
    .required "x" .double fun v p => { p with x := v },
    .required "y" .double fun v p => { p with y := v },
    .required "width" .double fun v p => { p with width := v },
    .required "height" .double fun v p => { p with height := v }]

/-- Reads a binding. -/
def Binding.reader : Typed Binding :=
  .record "Binding" { path := "" } [
    .required "path" .string fun s b => { b with path := s },
    .optional "fallback" .string fun s b => { b with fallback := s }]

/-- Reads a text style. -/
def TextStyle.reader : Typed TextStyle :=
  .record "TextStyle" {} [
    .optional "fontFamily" .string fun s t => { t with fontFamily := s },
    .optional "fontSize" .double fun v t => { t with fontSize := v },
    .optional "fontWeight" FontWeight.reader fun w t => { t with fontWeight := w },
    .optional "color" .string fun s t => { t with color := s },
    .optional "align" Align.reader fun a t => { t with align := a }]

/-- Reads a text. -/
def TextComponent.reader : Typed TextComponent :=
  .record "TextComponent" { id := "", position := .origin, style := {} } [
    .required "id" .string fun s c => { c with id := s },
    .required "position" Position.reader fun p c => { c with position := p },
    .optional "content" (.nullable .string) fun s c => { c with content := s },
    .optional "binding" (.nullable Binding.reader) fun b c => { c with binding := b },
    .required "style" TextStyle.reader fun s c => { c with style := s }]

/-- Reads a picture. -/
def ImageComponent.reader : Typed ImageComponent :=
  .record "ImageComponent" { id := "", position := .origin, assetId := "" } [
    .required "id" .string fun s c => { c with id := s },
    .required "position" Position.reader fun p c => { c with position := p },
    .required "assetId" .string fun s c => { c with assetId := s },
    .optional "description" .string fun s c => { c with description := s }]

/-- Reads a rule. -/
def DividerComponent.reader : Typed DividerComponent :=
  .record "DividerComponent" { id := "", position := .origin } [
    .required "id" .string fun s c => { c with id := s },
    .required "position" Position.reader fun p c => { c with position := p },
    .optional "strokeWidth" .double fun v c => { c with strokeWidth := v },
    .optional "color" .string fun s c => { c with color := s }]

/-- Reads a column. -/
def TableColumn.reader : Typed TableColumn :=
  .record "TableColumn" { id := "", header := "", width := 0, binding := { path := "" } } [
    .required "id" .string fun s c => { c with id := s },
    .required "header" .string fun s c => { c with header := s },
    .required "width" .double fun v c => { c with width := v },
    .required "binding" Binding.reader fun b c => { c with binding := b }]

/-- Reads a table. -/
def TableComponent.reader : Typed TableComponent :=
  .record "TableComponent"
    { id := "", position := .origin, rowBinding := { path := "" }, columns := [] } [
    .required "id" .string fun s c => { c with id := s },
    .required "position" Position.reader fun p c => { c with position := p },
    .required "rowBinding" Binding.reader fun b c => { c with rowBinding := b },
    .required "columns" (.list TableColumn.reader) fun cs c => { c with columns := cs }]

/-- Reads a labelled amount. -/
def TotalsComponent.reader : Typed TotalsComponent :=
  .record "TotalsComponent" { id := "", position := .origin, amountBinding := { path := "" } } [
    .required "id" .string fun s c => { c with id := s },
    .required "position" Position.reader fun p c => { c with position := p },
    .optional "label" .string fun s c => { c with label := s },
    .required "amountBinding" Binding.reader fun b c => { c with amountBinding := b }]

/-- Reads a payment instruction. -/
def PaymentComponent.reader : Typed PaymentComponent :=
  .record "PaymentComponent"
    { id := "", position := .origin, instruction := "", accountBinding := { path := "" } } [
    .required "id" .string fun s c => { c with id := s },
    .required "position" Position.reader fun p c => { c with position := p },
    .required "instruction" .string fun s c => { c with instruction := s },
    .required "accountBinding" Binding.reader fun b c => { c with accountBinding := b }]

/-- Reads a box of text. -/
def CalloutComponent.reader : Typed CalloutComponent :=
  .record "CalloutComponent" { id := "", position := .origin, title := "", body := "" } [
    .required "id" .string fun s c => { c with id := s },
    .required "position" Position.reader fun p c => { c with position := p },
    .required "title" .string fun s c => { c with title := s },
    .required "body" .string fun s c => { c with body := s }]

/-- Reads an unknown component.  The last member of each key is kept. -/
def UnknownComponent.reader : Typed UnknownComponent :=
  .openRecord "UnknownComponent" { kind := "" } [
    .required "type" .string fun s c => { c with kind := s },
    .optional "id" .string fun s c => { c with id := s }]
    fun key v c => { c with fields := Json.insertMember key v.normalize c.fields }

/-- Reads a component. -/
def Component.reader : Typed Component := .decoded "Component" Component.ofJson?

/-- Reads a region. -/
def Region.reader : Typed Region :=
  .record "Region" {} [
    .optional "components" (.list Component.reader) fun cs r => { r with components := cs }]

/-- Reads a page. -/
def Page.reader : Typed Page :=
  .record "Page" { id := "", pageNumber := 0 } [
    .required "id" .string fun s p => { p with id := s },
    .required "pageNumber" (.natural UInt32.size "u32") fun n p => { p with pageNumber := n.toUInt32 },
    .optional "size" PageSize.reader fun s p => { p with size := s },
    .required "header" Region.reader fun r p => { p with header := r },
    .required "body" Region.reader fun r p => { p with body := r },
    .required "footer" Region.reader fun r p => { p with footer := r }]

/-- Reads a version number. -/
def Template.versionReader : Typed UInt32 :=
  Typed.map (·.toUInt32) (.natural UInt32.size "u32")

/-- Reads a template. -/
def Template.reader : Typed Template :=
  .record "Template"
    { schemaVersion := "", tenantId := "", templateId := "", name := "", status := .draft
      version := 0, pages := [], createdBy := "", updatedBy := "" } [
    .required "schemaVersion" .string fun s t => { t with schemaVersion := s },
    .required "tenantId" .string fun s t => { t with tenantId := s },
    .required "templateId" .string fun s t => { t with templateId := s },
    .required "name" .string fun s t => { t with name := s },
    .optional "description" .string fun s t => { t with description := s },
    .required "status" TemplateStatus.reader fun s t => { t with status := s },
    .required "version" versionReader fun n t => { t with version := n },
    .required "pages" (.list Page.reader) fun ps t => { t with pages := ps },
    .required "createdBy" .string fun s t => { t with createdBy := s },
    .required "updatedBy" .string fun s t => { t with updatedBy := s }]

end StatementPress
