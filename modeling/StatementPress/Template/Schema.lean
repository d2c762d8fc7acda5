import StatementPress.Json.Layout
import StatementPress.Template.Basic

/-!
# The schema of templates

A description of templates for editors, as a JSON schema.  It repeats in the schema's terms what the
walk over a template checks, except that identifiers and page numbers are unique.
-/

namespace StatementPress.Schema

/-- A schema with given keywords. -/
abbrev Keywords := List (String × Json)

/-- A value of a given type. -/
def typed (name : String) (more : Keywords := []) : Json := .object (("type", .string name) :: more)

/-- A value of a definition. -/
def ref (name : String) (more : Keywords := []) : Json :=
  .object (("$ref", .string ("#/definitions/" ++ name)) :: more)

/-- One given string. -/
def const (s : String) : Json := .object [("const", .string s)]

/-- Strings as an array. -/
def strings (names : List String) : Json := .array (names.map .string)

/-- One of some strings. -/
def oneOf (names : List String) (more : Keywords := []) : Json :=
  .object (("enum", strings names) :: more)

/-- A string that may be left out. -/
def optionalString (default : String) : Json := typed "string" [("default", .string default)]

/-- A number at zero or above. -/
def nonNegative : Json := typed "number" [("minimum", .ofNat 0)]

/-- A number above zero. -/
def positive (more : Keywords := []) : Json :=
  typed "number" (("exclusiveMinimum", .ofNat 0) :: more)

/-- A whole number from one on. -/
def counter : Json := typed "integer" [("minimum", .ofNat 1)]

/-- A string that is not empty. -/
def nonEmpty : Json := ref "nonEmpty"

/-- An object with some members required. -/
def object (required : List String) (properties : Keywords) (more : Keywords := []) : Json :=
  typed "object" (("required", strings required) :: ("properties", .object properties) :: more)

/-- An object with no member required. -/
def looseObject (properties : Keywords) : Json :=
  typed "object" [("properties", .object properties)]

/-- The fields of one kind of component. -/
def kindFields (kind : String) (properties : Keywords) (required : List String)
    (more : Keywords := []) : Json :=
  .object (("properties",
      .object (("type", const kind) :: ("position", ref "position") :: properties)) ::
    ("required", strings ("position" :: required)) :: more)

/-- The columns of a table. -/
def columns : Json :=
  typed "array" [("minItems", .ofNat 1),
    ("items", object ["id", "header", "width", "binding"]
      [("id", nonEmpty), ("header", nonEmpty), ("width", positive), ("binding", ref "binding")])]

/-- The kinds of component, and any other kind. -/
def kinds : List Json :=
  [kindFields "text"
      [("content", typed "string"), ("binding", ref "binding"), ("style", ref "style")] ["style"]
      [("anyOf", .array [.object [("required", strings ["content"])],
        .object [("required", strings ["binding"])]])],
    kindFields "image" [("assetId", nonEmpty), ("description", optionalString "")] ["assetId"],
    kindFields "divider"
      [("strokeWidth", positive [("default", .ofNat 1)]),
        ("color", ref "color" [("default", .string black)])] [],
    kindFields "table" [("rowBinding", ref "binding"), ("columns", columns)]
      ["rowBinding", "columns"],
    kindFields "totals" [("label", optionalString "Total"), ("amountBinding", ref "binding")]
      ["amountBinding"],
    kindFields "payment" [("instruction", nonEmpty), ("accountBinding", ref "binding")]
      ["instruction", "accountBinding"],
    kindFields "callout" [("title", nonEmpty), ("body", nonEmpty)] ["title", "body"],
    .object [("properties", .object [("type", .object [("not", oneOf componentKinds)])])]]

/-- The definitions that the schema refers to. -/
def definitions : Keywords :=
  [("nonEmpty", typed "string" [("minLength", .ofNat 1)]),
    ("color", typed "string" [("pattern", .string "^#[0-9a-fA-F]\x7b6\x7d$")]),
    ("position", object ["x", "y", "width", "height"]
      [("x", nonNegative), ("y", nonNegative), ("width", positive), ("height", positive)]),
    ("binding", object ["path"]
      [("path", typed "string" [("minLength", .ofNat 1)]), ("fallback", optionalString "")]),
    ("style", looseObject
      [("fontFamily", typed "string" [("minLength", .ofNat 1), ("default", .string "Helvetica")]),
        ("fontSize", positive [("default", .ofNat 10)]),
        ("fontWeight", oneOf ["normal", "bold"] [("default", .string "normal")]),
        ("color", ref "color" [("default", .string black)]),
        ("align", oneOf ["left", "center", "right"] [("default", .string "left")])]),
    ("region", looseObject
      [("components",
        typed "array" [("items", ref "component"), ("default", .array [])])]),
    ("page", object ["id", "pageNumber", "size", "header", "body", "footer"]
      [("id", nonEmpty), ("pageNumber", counter), ("size", const "A4"), ("header", ref "region"),
        ("body", ref "region"), ("footer", ref "region")]),
    ("component", object ["id", "type"] [("id", nonEmpty), ("type", typed "string")]
      [("oneOf", .array kinds)])]

/-- The schema. -/
def document : Json :=
  .object [("$schema", .string "http://json-schema.org/draft-07/schema#"),
    ("$id", .string "urn:rsfo:template:1.0"), ("title", .string "Statement template"),
    ("type", .string "object"),
    ("required", strings ["schemaVersion", "tenantId", "templateId", "name", "status", "version",
      "pages", "createdBy", "updatedBy"]),
    ("properties", .object [("schemaVersion", const schemaVersion), ("tenantId", nonEmpty),
      ("templateId", nonEmpty), ("name", nonEmpty), ("description", optionalString ""),
      ("status", oneOf ["draft", "published"]), ("version", counter),
      ("pages", typed "array" [("minItems", .ofNat 1), ("items", ref "page")]),
      ("createdBy", nonEmpty), ("updatedBy", nonEmpty)]),
    ("definitions", .object definitions)]

/-- The text of the schema. -/
def text : String := document.layout 0 false ++ "\n"

end StatementPress.Schema
