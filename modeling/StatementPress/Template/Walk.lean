import StatementPress.Template.Finding
import StatementPress.Template.Rule

/-!
# The walk over a template

Checking a template walks over its JSON value and passes by nothing, however broken a part is.  The
walk itself knows no state: it lists **events**, in order.  Most are findings.  An identifier or a
page number that is fine in itself is an event too, and becomes a finding afterwards if an earlier
event has the same one (`findings`).  So the events of a part depend on that part alone, and only
repetition joins two places.
-/

namespace StatementPress

/-- What the walk comes across. -/
inductive Event where
  /-- A rule is broken. -/
  | finding (f : Finding)
  /-- The component at `path` has an identifier. -/
  | componentId (id path : String)
  /-- The page at `path` has a number. -/
  | pageNumber (n : Nat) (path : String)
  /-- The component at `path` has a kind that is not known. -/
  | unknownKind (kind path : String)
  deriving DecidableEq

namespace Walk

open Finding (join item)

/-- The event of a place with what is wrong there, if anything. -/
def report (path : String) : Option String → List Event
  | none => []
  | some reason => [.finding ⟨path, reason⟩]

/-- Checks a member of the object at `base` by a rule. -/
def field (obj : Json) (base key : String) (rule : Rule) : List Event :=
  report (join base key) (rule (obj.get? key))

/-- Walks into an object that has to be there. -/
def object (value : Option Json) (path : String) (inside : Json → List Event) : List Event :=
  match value with
  | none => report path (some "is required")
  | some (.object members) => inside (.object members)
  | some _ => report path (some "must be an object")

/-- Walks into the items of an array, counting from `i`. -/
def items (visit : Json → String → List Event) (path : String) : Nat → List Json → List Event
  | _, [] => []
  | i, v :: rest => visit v (item path i) ++ items visit path (i + 1) rest

/-! ## Parts of components -/

/-- Walks over a binding. -/
def binding (value : Option Json) (path : String) : List Event :=
  object value path fun obj =>
    field obj path "path" Rule.name ++ field obj path "fallback" Rule.optionalString

/-- Walks over a box. -/
def position (value : Option Json) (path : String) : List Event :=
  object value path fun obj =>
    field obj path "x" (Rule.number .nonNegative) ++
    field obj path "y" (Rule.number .nonNegative) ++
    field obj path "width" (Rule.number .positive) ++
    field obj path "height" (Rule.number .positive)

/-- A font family may be absent but not empty. -/
def fontFamily : Rule
  | none => none
  | v => Rule.name v

/-- Walks over a text style. -/
def style (value : Option Json) (path : String) : List Event :=
  object value path fun obj =>
    field obj path "fontFamily" fontFamily ++
    field obj path "fontSize" (Rule.optionalNumber .positive) ++
    field obj path "fontWeight" (Rule.optionalOneOf ["normal", "bold"]) ++
    field obj path "color" Rule.optionalColor ++
    field obj path "align" (Rule.optionalOneOf ["left", "center", "right"])

/-- The value of a member, unless it is `null`. -/
def present (obj : Json) (key : String) : Option Json :=
  match obj.get? key with
  | some .null => none
  | v => v

/-- Whether a value is a string that is not empty. -/
def isFilled : Option Json → Bool
  | some (.string s) => !s.isEmpty
  | _ => false

/-- Walks over the fields of a text.  It has to have a fixed text or a binding. -/
def text (obj : Json) (path : String) : List Event :=
  let content := present obj "content"
  let bound := present obj "binding"
  report (join path "content") (Rule.optionalString content) ++
  (if bound.isSome then binding bound (join path "binding") else []) ++
  (if !isFilled content && bound.isNone then
    report (join path "content") (some "text component must include content or binding")
  else []) ++
  style (obj.get? "style") (join path "style")

/-- Walks over a column. -/
def column (value : Json) (path : String) : List Event :=
  object (some value) path fun obj =>
    field obj path "id" Rule.name ++
    field obj path "header" Rule.name ++
    field obj path "width" (Rule.number .positive) ++
    binding (obj.get? "binding") (join path "binding")

/-- Walks over the columns of a table. -/
def columns (value : Option Json) (path : String) : List Event :=
  match value with
  | none => report path (some "is required")
  | some (.array []) => report path (some "must contain at least one column")
  | some (.array values) => items column path 0 values
  | some _ => report path (some "must be an array")

/-- Walks over the fields of a table. -/
def table (obj : Json) (path : String) : List Event :=
  binding (obj.get? "rowBinding") (join path "rowBinding") ++
  columns (obj.get? "columns") (join path "columns")

/-- Walks over the fields that a known kind of component has beside identifier and box. -/
def kindFields (kind : String) (obj : Json) (path : String) : List Event :=
  match kind with
  | "text" => text obj path
  | "image" =>
    field obj path "assetId" Rule.name ++ field obj path "description" Rule.optionalString
  | "divider" =>
    field obj path "strokeWidth" (Rule.optionalNumber .positive) ++
    field obj path "color" Rule.optionalColor
  | "table" => table obj path
  | "totals" =>
    field obj path "label" Rule.optionalString ++
    binding (obj.get? "amountBinding") (join path "amountBinding")
  | "payment" =>
    field obj path "instruction" Rule.name ++
    binding (obj.get? "accountBinding") (join path "accountBinding")
  | "callout" => field obj path "title" Rule.name ++ field obj path "body" Rule.name
  | _ => []

/-! ## Components, regions, pages -/

/-- The event of an identifier. -/
def identifier (obj : Json) (path : String) : List Event :=
  match obj.get? "id" with
  | some (.string s) =>
    if s.isEmpty then report (join path "id") (some "must not be empty") else [.componentId s path]
  | v => report (join path "id") (Rule.name v)

/-- Walks over what a component has by its kind. -/
def kind (obj : Json) (path : String) : List Event :=
  match obj.get? "type" with
  | none => report (join path "type") (some "is required")
  | some (.string k) =>
    if componentKinds.contains k then
      position (obj.get? "position") (join path "position") ++ kindFields k obj path
    else [.unknownKind k path]
  | some _ => report (join path "type") (some "must be a string")

/-- Walks over a component. -/
def component (value : Json) (path : String) : List Event :=
  object (some value) path fun obj => identifier obj path ++ kind obj path

/-- Walks over a region. -/
def region (value : Option Json) (path : String) : List Event :=
  object value path fun obj =>
    match obj.get? "components" with
    | none => []
    | some (.array values) => items component (path ++ ".components") 0 values
    | some _ => report (join path "components") (some "must be an array")

/-- The event of a page number. -/
def number (obj : Json) (path : String) : List Event :=
  match Rule.counter (obj.get? "pageNumber") with
  | .ok n => [.pageNumber n path]
  | .error reason => report (join path "pageNumber") (some reason)

/-- Walks over a page. -/
def page (value : Json) (path : String) : List Event :=
  object (some value) path fun obj =>
    field obj path "id" Rule.name ++
    number obj path ++
    field obj path "size" (Rule.oneOf ["A4"]) ++
    region (obj.get? "header") (join path "header") ++
    region (obj.get? "body") (join path "body") ++
    region (obj.get? "footer") (join path "footer")

/-- Walks over the pages of a template. -/
def pages (value : Option Json) (path : String) : List Event :=
  match value with
  | none => report path (some "is required")
  | some (.array []) => report path (some "must contain at least one page")
  | some (.array values) => items page path 0 values
  | some _ => report path (some "must be an array")

/-- The rule of a counter as a rule for a field. -/
def counterRule : Rule := fun v =>
  match Rule.counter v with
  | .ok _ => none
  | .error reason => some reason

/-- Walks over a template. -/
def template (raw : Json) : List Event :=
  object (some raw) "" fun obj =>
    field obj "" "schemaVersion" Rule.version ++
    field obj "" "tenantId" Rule.name ++
    field obj "" "templateId" Rule.name ++
    field obj "" "name" Rule.name ++
    field obj "" "description" Rule.optionalString ++
    field obj "" "status" (Rule.oneOf ["draft", "published"]) ++
    field obj "" "version" counterRule ++
    field obj "" "createdBy" Rule.name ++
    field obj "" "updatedBy" Rule.name ++
    pages (obj.get? "pages") "pages"

/-! ## From events to findings -/

/-- Where a component with a given identifier comes up first. -/
def firstComponent? (id : String) : List Event → Option String
  | [] => none
  | .componentId other path :: rest => if other = id then some path else firstComponent? id rest
  | _ :: rest => firstComponent? id rest

/-- Where a page with a given number comes up first. -/
def firstPage? (n : Nat) : List Event → Option String
  | [] => none
  | .pageNumber other path :: rest => if other = n then some path else firstPage? n rest
  | _ :: rest => firstPage? n rest

/-- The finding of an event that comes after others. -/
def finding? (earlier : List Event) : Event → Option Finding
  | .finding f => some f
  | .componentId id path =>
    (firstComponent? id earlier).map fun first =>
      ⟨join path "id", "duplicate component id '" ++ id ++ "' (also used by " ++ first ++ ")"⟩
  | .pageNumber n path =>
    (firstPage? n earlier).map fun first =>
      ⟨join path "pageNumber",
        "duplicate page number " ++ Text.decimal n ++ " (also used by " ++ first ++ ")"⟩
  | .unknownKind _ _ => none

/-- The findings of events that come after others. -/
def findingsAfter (earlier : List Event) : List Event → List Finding
  | [] => []
  | e :: rest => (finding? earlier e).toList ++ findingsAfter (earlier ++ [e]) rest

/-- The findings of a walk. -/
def findings (events : List Event) : List Finding := findingsAfter [] events

end Walk

end StatementPress
