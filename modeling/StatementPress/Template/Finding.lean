import StatementPress.Text.Digits

/-!
# Findings

A finding says where a template breaks a rule and which.  The place is a path of keys and indices
into the template's JSON value, such as `pages[0].body.components[2].style.color`.
-/

namespace StatementPress

/-- A rule that is broken somewhere. -/
structure Finding where
  path : String
  reason : String
  deriving DecidableEq

/-- A finding as text.  The template as a whole has no path to name. -/
def Finding.text (f : Finding) : String :=
  if f.path.isEmpty then f.reason else f.path ++ ": " ++ f.reason

/-- The path of a member of the object at `base`. -/
def Finding.join (base key : String) : String := if base.isEmpty then key else base ++ "." ++ key

/-- The path of an item of the array at `base`. -/
def Finding.item (base : String) (i : Nat) : String := base ++ "[" ++ Text.decimal i ++ "]"

/-- Why a template is rejected: every finding, in the order of the walk. -/
structure Rejection where
  findings : List Finding
  deriving DecidableEq

namespace Rejection

/-- The wording of a rejection. -/
def message (r : Rejection) : String :=
  "Template has " ++ Text.decimal r.findings.length ++ " validation error(s)" ++
    String.join (r.findings.map fun f => "; " ++ f.text)

/-- Whether a finding has a given path. -/
def hasFinding (r : Rejection) (path : String) : Bool := r.findings.any (·.path == path)

end Rejection

end StatementPress
