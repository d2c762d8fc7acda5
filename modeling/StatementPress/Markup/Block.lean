import StatementPress.Log
import StatementPress.Markup.Escape
import StatementPress.Markup.Fragment
import StatementPress.Payload.Path

/-!
# Components as markup

The content of each kind of component, with what it reads from the payload, and the fragment of a
component: its content in its box.

A table has a row for each node at its row path.  A column whose path continues the row path is read
inside each row.  Any other column is read from the payload as a whole, the same in every row.
-/

namespace StatementPress

open Markup

/-- The outcome of a step that reads from a payload. -/
abbrev Reading (α : Type) := Run PayloadError α

namespace Binding

/-- A text, or the fallback of the binding it came from if it is empty. -/
def orFallback (b : Binding) (value : String) : Reading String :=
  if value.isEmpty then do
    .record .debug ("binding '" ++ b.path ++ "' empty, using fallback")
    return b.fallback
  else return value

/-- The text that a binding stands for in a payload. -/
def value (b : Binding) (payload : Payload) : Reading String := do
  let found ← .ofExcept (payload.resolve b.path)
  b.orFallback found

end Binding

/-- The text that is shown: a fixed one unless it is empty, or else a bound one. -/
def TextComponent.value (c : TextComponent) (payload : Payload) : Reading String :=
  match c.content, c.binding with
  | some content, binding =>
    if content.isEmpty then
      match binding with
      | some b => b.value payload
      | none => return ""
    else return content
  | none, some b => b.value payload
  | none, none => return ""

/-- The content of a text. -/
def TextComponent.markup (c : TextComponent) (payload : Payload) : Reading String := do
  let shown ← c.value payload
  return "<fo:block" ++ attr "font-family" (escape c.style.fontFamily) ++
    attr "font-size" (points c.style.fontSize) ++
    attr "font-weight" c.style.fontWeight.name ++ attr "color" (escape c.style.color) ++
    attr "text-align" c.style.align.name ++ ">" ++ escape shown ++ "</fo:block>"

/-- The content of a picture. -/
def ImageComponent.markup (c : ImageComponent) : String :=
  "<fo:external-graphic" ++ attr "src" ("url('asset:" ++ escape c.assetId ++ "')") ++
    attr "content-width" (points c.position.width) ++
    attr "content-height" (points c.position.height) ++
    (if c.description.isEmpty then "" else attr "role" (escape c.description)) ++ "/>"

/-- The content of a rule. -/
def DividerComponent.markup (c : DividerComponent) : String :=
  "<fo:block" ++ attr "border-bottom" (points c.strokeWidth ++ " solid " ++ escape c.color) ++ "/>"

/-- The content of a labelled amount. -/
def TotalsComponent.markup (c : TotalsComponent) (payload : Payload) : Reading String := do
  let amount ← c.amountBinding.value payload
  return "<fo:block" ++ attr "font-weight" "bold" ++ ">" ++ escape c.label ++ ": " ++
    escape amount ++ "</fo:block>"

/-- The content of a payment instruction. -/
def PaymentComponent.markup (c : PaymentComponent) (payload : Payload) : Reading String := do
  let account ← c.accountBinding.value payload
  return "<fo:block>" ++ escape c.instruction ++ " " ++ escape account ++ "</fo:block>"

/-- The content of a box of text. -/
def CalloutComponent.markup (c : CalloutComponent) : String :=
  "<fo:block" ++ attr "border" "1pt solid #000000" ++ attr "padding" "4pt" ++ "><fo:block" ++
    attr "font-weight" "bold" ++ ">" ++ escape c.title ++ "</fo:block><fo:block>" ++
    escape c.body ++ "</fo:block></fo:block>"

/-! ## Tables -/

/-- Where the cells of a column are read. -/
inductive CellSource where
  /-- In the row, at a path below it. -/
  | row (path : String)
  /-- In the payload as a whole. -/
  | document (path : String)
  deriving DecidableEq

namespace CellSource

/-- Where the cells of a column are read, given the segments of the row path. -/
def ofColumn (rowSegments : List String) (c : TableColumn) : Except PayloadError CellSource := do
  let segments ← Path.segments c.binding.path
  return if rowSegments.isPrefixOf segments then
    .row (Path.ofSegments (segments.drop rowSegments.length))
  else .document c.binding.path

/-- The text at a source. -/
def read (row payload : Payload) : CellSource → Except PayloadError String
  | .row path => row.resolve path
  | .document path => payload.resolve path

end CellSource

/-- A cell of the body of a table. -/
def bodyCell (text : String) : String :=
  "<fo:table-cell" ++ attr "padding" "2pt" ++ "><fo:block>" ++ escape text ++
    "</fo:block></fo:table-cell>"

/-- A cell of the first row of a table. -/
def headerCell (text : String) : String :=
  "<fo:table-cell" ++ attr "padding" "2pt" ++ "><fo:block" ++ attr "font-weight" "bold" ++ ">" ++
    escape text ++ "</fo:block></fo:table-cell>"

/-- A row of a table. -/
def tableRow (cells : List String) : String :=
  "<fo:table-row>" ++ String.join cells ++ "</fo:table-row>"

namespace TableComponent

/-- The text of one cell of a row. -/
def cell (row payload : Payload) (column : TableColumn × CellSource) : Reading String := do
  let found ← .ofExcept (column.2.read row payload)
  column.1.binding.orFallback found

/-- The texts of the cells of a row. -/
def cells (sources : List (TableColumn × CellSource)) (payload row : Payload) :
    Reading (List String) :=
  sources.mapM (cell row payload)

/-- The text of every cell of the body, row by row. -/
def grid (c : TableComponent) (payload : Payload) : Reading (List (List String)) := do
  let rowSegments ← .ofExcept (Path.segments c.rowBinding.path)
  let sources ← .ofExcept (c.columns.mapM (CellSource.ofColumn rowSegments))
  let rows ← .ofExcept (payload.resolveAll c.rowBinding.path)
  .record .trace ("table '" ++ c.id ++ "': " ++ Text.decimal rows.length ++ " row(s)")
  rows.mapM (cells (c.columns.zip sources) payload)

/-- The content of a table. -/
def markup (c : TableComponent) (payload : Payload) : Reading String := do
  let body ← c.grid payload
  return "<fo:table" ++ attr "table-layout" "fixed" ++ attr "width" "100%" ++ ">" ++
    String.join (c.columns.map fun column =>
      "<fo:table-column" ++ attr "column-width" (points column.width) ++ "/>") ++
    "<fo:table-body>" ++ tableRow (c.columns.map fun column => headerCell column.header) ++
    String.join (body.map fun row => tableRow (row.map bodyCell)) ++
    "</fo:table-body></fo:table>"

end TableComponent

/-! ## Components -/

namespace Component

/-- The content of a component; one of an unknown kind has none. -/
def markup? (payload : Payload) : Component → Reading (Option String)
  | .text c => some <$> c.markup payload
  | .image c => return some c.markup
  | .divider c => return some c.markup
  | .table c => some <$> c.markup payload
  | .totals c => some <$> c.markup payload
  | .payment c => some <$> c.markup payload
  | .callout c => return some c.markup
  | .unknown _ => return none

/-- The fragment of a component. -/
def fragment (payload : Payload) (c : Component) : Reading String := do
  match ← c.markup? payload, c.position? with
  | some content, some p => do
    .record .trace ("rendered " ++ c.kind ++ " component '" ++ c.id ++ "'")
    return positioned p content
  | _, _ => do
    .record .warn ("component '" ++ c.id ++ "': unknown type '" ++ c.kind ++ "' rendered empty")
    return noFragment

end Component

end StatementPress
