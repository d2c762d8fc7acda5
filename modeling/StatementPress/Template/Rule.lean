import StatementPress.Json.Basic
import StatementPress.Template.Basic
import StatementPress.Text.Digits

/-!
# Rules for fields

A rule looks at the value of a field, or at its absence, and tells what is wrong with it, if
anything.
-/

namespace StatementPress

/-- A rule for a field: what is wrong with its value, if anything. -/
abbrev Rule := Option Json → Option String

namespace Rule

/-- A string that is not empty. -/
def name : Rule
  | none => some "is required"
  | some (.string s) => if s.isEmpty then some "must not be empty" else none
  | some _ => some "must be a string"

/-- A string, or nothing. -/
def optionalString : Rule
  | none | some (.string _) => none
  | some _ => some "must be a string"

/-- Where a number has to lie. -/
inductive Bound where
  | nonNegative
  | positive
  deriving DecidableEq

/-- What is wrong with a number that has to lie within a bound. -/
def Bound.fault : Bound → Binary64 → Option String
  | .nonNegative, x =>
    if x.less Binary64.zero then some "must be greater than or equal to 0" else none
  | .positive, x => if x.lessOrEqual Binary64.zero then some "must be greater than 0" else none

/-- A number within a bound, or nothing. -/
def optionalNumber (bound : Bound) : Rule
  | none => none
  | some (.number n) => bound.fault n.toBinary64
  | some _ => some "must be a number"

/-- A number within a bound. -/
def number (bound : Bound) : Rule
  | none => some "is required"
  | v => optionalNumber bound v

/-- One of some strings, or nothing. -/
def optionalOneOf (allowed : List String) : Rule
  | none => none
  | some (.string s) => if allowed.contains s then none else some (reason allowed)
  | some _ => some (reason allowed)
where
  /-- The wording of the rule. -/
  reason (allowed : List String) : String := "must be one of: " ++ ", ".intercalate allowed

/-- One of some strings. -/
def oneOf (allowed : List String) : Rule
  | none => some "is required"
  | v => optionalOneOf allowed v

/-- Whether a text is a number sign and six hexadecimal digits. -/
def isColor (s : String) : Bool :=
  match s.toList with
  | '#' :: digits => digits.length = 6 && digits.all Text.isHexDigit
  | _ => false

/-- A colour, or nothing. -/
def optionalColor : Rule
  | none => none
  | some (.string s) => if isColor s then none else some "must be a #RRGGBB color"
  | some _ => some "must be a #RRGGBB color"

/-- The schema version of templates. -/
def version : Rule
  | none => some "is required"
  | some (.string s) =>
    if s = schemaVersion then none else some ("must be \"" ++ schemaVersion ++ "\"")
  | some _ => some ("must be \"" ++ schemaVersion ++ "\"")

/-- A whole number from one on that fits in 32 bits: the number, or what is wrong. -/
def counter : Option Json → Except String Nat
  | none => .error "is required"
  | some (.number (.whole i)) =>
    if i < 1 then .error "must be at least 1"
    else if UInt32.size ≤ i then .error "is too large"
    else .ok i.toNat
  | some (.number (.double x _)) =>
    if x.less 1 then .error "must be at least 1" else .error "must be an integer"
  | some _ => .error "must be an integer"

end Rule

end StatementPress
