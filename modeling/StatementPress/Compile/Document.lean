import StatementPress.Compile.Config
import StatementPress.Markup.Block
import StatementPress.Payload.OfDocument
import StatementPress.Template.Validate

/-!
# Compiling statements

A template and a payload make a document, in three steps that may refuse: the template is checked
again, its binding paths have to be absolute, and the payload has to be readable.  After that nothing
can fail: what the payload lacks is shown by fallbacks.

The document has a fixed preamble, a line for each page in ascending order of page numbers, and a
fixed end.  The line of a page depends on that page and the payload only.
-/

namespace StatementPress

open Markup

namespace Compile

/-- The namespace of the markup. -/
def namespaceUri : String := "http://www.w3.org/1999/XSL/Format"

/-- The page master of a page size. -/
def pageMaster (margin : String) (size : PageSize) : String :=
  "    <fo:simple-page-master" ++ attr "master-name" size.name ++
    attr "page-width" (Text.decimal size.millimetres.1 ++ "mm") ++
    attr "page-height" (Text.decimal size.millimetres.2 ++ "mm") ++
    attr "margin" (escape margin) ++ ">\n      <fo:region-body />\n    </fo:simple-page-master>\n"

/-- What stands before the pages: page masters for the sizes in use. -/
def preamble (margin : String) (sizes : List PageSize) : String :=
  "<?xml version=\"1.0\" encoding=\"UTF-8\"?>\n<fo:root" ++ attr "xmlns:fo" namespaceUri ++
    ">\n  <fo:layout-master-set>\n" ++ String.join (sizes.map (pageMaster margin)) ++
    "  </fo:layout-master-set>\n"

/-- What stands after the pages. -/
def closing : String := "</fo:root>\n"

/-- The fragments of a region, one after the other. -/
def regionMarkup (payload : Payload) (r : Region) : Reading String := do
  let fragments ← r.components.mapM (Component.fragment payload)
  return String.join fragments

/-- The markup of one region of a page, with a record of its size. -/
def pagePart (payload : Payload) (page : Page) (part : RegionKind × Region) : Reading String := do
  let markup ← regionMarkup payload part.2
  .record .trace ("page " ++ Text.decimal page.pageNumber.toNat ++ " " ++ part.1.name ++ ": " ++
    Text.decimal part.2.components.length ++ " component(s)")
  return markup

/-- The page sequence of a page: header, body, footer. -/
def pageSequence (payload : Payload) (page : Page) : Reading String := do
  let parts ← page.regions.mapM (pagePart payload page)
  return "<fo:page-sequence" ++ attr "master-reference" page.size.name ++ "><fo:flow" ++
    attr "flow-name" "xsl-region-body" ++ ">" ++ String.join parts ++
    "</fo:flow></fo:page-sequence>"

/-- A line of the document. -/
def line (sequence : String) : String := "  " ++ sequence ++ "\n"

/-- Pages in ascending order of page numbers; equal numbers keep their order. -/
def inOrder (pages : List Page) : List Page :=
  pages.mergeSort fun p q => p.pageNumber ≤ q.pageNumber

/-- Refuses a path that is not absolute. -/
def checkPaths : List String → Except PayloadError Unit
  | [] => .ok ()
  | path :: rest => do
    let _ ← Path.segments path
    checkPaths rest

/-- The document of pages in their order. -/
def assemble (margin : String) (pages : List Page) (sequences : List String) : String :=
  preamble margin (pages.map (·.size)).eraseDups ++ String.join (sequences.map line) ++ closing

end Compile

open Compile

/-- Compiles a template and the text of a payload into a document. -/
def CompilerConfig.compile (config : CompilerConfig) (t : Template) (payloadText : String) :
    Run TemplateError String := do
  t.validate.mapError .invalid
  .ofExcept ((checkPaths t.bindingPaths).mapError .payload)
  let payload ← (Payload.ofText config.limits payloadText).mapError .payload
  let pages := inOrder t.pages
  .record .debug ("compiling template '" ++ t.templateId ++ "' v" ++
    Text.decimal t.version.toNat ++ ": " ++ Text.decimal pages.length ++ " page(s), " ++
    Text.decimal (Text.byteSize payloadText.toList) ++ " byte payload")
  let sequences ← (pages.mapM (pageSequence payload)).mapError .payload
  return assemble config.margin pages sequences

end StatementPress
