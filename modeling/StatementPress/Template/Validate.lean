import StatementPress.Log
import StatementPress.Payload.Error
import StatementPress.Json.Reader
import StatementPress.Template.Decode
import StatementPress.Template.Walk

/-!
# Validated templates

A JSON value becomes a template only if the walk over it finds nothing.  A template that was put
together in memory is checked by the same walk, over its JSON value.
-/

namespace StatementPress

/-- Why a template cannot be used. -/
inductive TemplateError where
  /-- It breaks rules. -/
  | invalid (r : Rejection)
  /-- The payload or a path is at fault. -/
  | payload (e : PayloadError)
  /-- The text is no JSON. -/
  | json (e : Json.ReadError)

namespace TemplateError

/-- The wording of a template error. -/
def message : TemplateError → String
  | .invalid r => r.message
  | .payload e => "XML error: " ++ e.message
  | .json e => "JSON error: " ++ e.message

/-- The findings, if the template breaks rules. -/
def findings : TemplateError → List Finding
  | .invalid r => r.findings
  | _ => []

end TemplateError

namespace Walk

/-- Leaves a record for each event that is worth one. -/
def recordEvents : List Event → Run Rejection Unit
  | [] => pure ()
  | .unknownKind kind path :: rest => do
    .record .debug (path ++ ": unknown component type '" ++ kind ++ "' will render empty")
    recordEvents rest
  | _ :: rest => recordEvents rest

end Walk

namespace Template

/-- What is reported of a value that breaks no rule and is no template all the same. -/
def unfit : Finding := ⟨"", "does not fit the template model"⟩

/-- Takes a JSON value as a template, or rejects it with every finding. -/
def ofValue (raw : Json) : Run Rejection Template := do
  let events := Walk.template raw
  Walk.recordEvents events
  let findings := Walk.findings events
  if findings.isEmpty then
    match ofJson? raw with
    | some t => return t
    | none => .fail ⟨[unfit]⟩
  else do
    .record .debug ("template rejected with " ++ Text.decimal findings.length ++ " finding(s)")
    .fail ⟨findings⟩

/-- Checks a template against every rule. -/
def validate (t : Template) : Run Rejection Unit := do
  let _ ← ofValue t.toJson.normalize
  return ()

/-- Reads a template from JSON text. -/
def ofText (text : String) : Run TemplateError Template := do
  let raw ← .ofExcept ((Json.ofText text).mapError .json)
  (ofValue raw).mapError .invalid

end Template

end StatementPress
