import StatementPress.Compile.Document
import StatementPress.Payload.Leaves

/-!
# Statements

What an application holds on to: a checked template with the settings it is compiled with.  Settings
start out as the defaults and may be replaced at any time.
-/

namespace StatementPress

/-- A checked template and its settings. -/
structure Statement where
  template : Template
  config : CompilerConfig := {}

namespace Statement

/-- Takes a template from JSON text, with the default settings. -/
def ofText (text : String) : Run TemplateError Statement := do
  let template ← Template.ofText text
  return { template }

/-- Replaces the settings by those in a JSON text. -/
def setConfig (s : Statement) (text : String) : Except Json.ReadError Statement := do
  let config ← Json.readText CompilerConfig.reader text
  return { s with config }

/-- Compiles the template with the text of a payload. -/
def compile (s : Statement) (payloadText : String) : Run TemplateError String :=
  s.config.compile s.template payloadText

/-- The findings of a JSON value, none if it is a template. -/
def check {ε : Type} (raw : Json) : Run ε (List Finding) := do
  match ← (Template.ofValue raw).attempt with
  | .ok _ => return []
  | .error r => return r.findings

/-- The leaf paths of the text of a payload, within the default ceilings. -/
def listPaths (payloadText : String) : Run PayloadError (List String) := do
  let payload ← Payload.ofText {} payloadText
  return payload.leafPaths

end Statement

end StatementPress
