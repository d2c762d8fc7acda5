import StatementPress.Text.Digits
import StatementPress.Xml.Error

/-!
# Why a payload cannot be used

Missing data is no error.  A payload is refused if its text is no document or goes over a ceiling,
and a path is refused if it is not absolute.
-/

namespace StatementPress

/-- Why a payload or a path in it cannot be used. -/
inductive PayloadError where
  /-- The text is no document. -/
  | malformed (error : Xml.Error)
  | tooLarge (size limit : Nat)
  | tooDeep (limit : Nat)
  | relativePath (path : String)

/-- The wording of a payload error. -/
def PayloadError.message : PayloadError → String
  | .malformed e => "Malformed XML payload: " ++ e.message
  | .tooLarge size limit =>
    "XML payload is " ++ Text.decimal size ++ " bytes, limit is " ++ Text.decimal limit
  | .tooDeep limit => "XML payload nesting exceeds depth limit of " ++ Text.decimal limit
  | .relativePath path => "Binding path must be absolute: '" ++ path ++ "'"

end StatementPress
