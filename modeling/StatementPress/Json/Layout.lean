import StatementPress.Json.Printer

/-!
# Laid-out JSON

The text of a value for people to read.  An object that describes the members of others, by a member
`properties` somewhere inside it, is spread over lines, and so are the objects under `properties` and
`definitions` themselves.  An array is spread over lines if one of its items is.  All else stands on
one line.
-/

namespace StatementPress.Json

/-- The keys under which an object is always spread. -/
def spreadKeys : List String := ["properties", "definitions"]

mutual

/-- Whether a value has a member `properties` somewhere inside it. -/
def describes : Json → Bool
  | .object members => describesMembers members
  | .array items => describesItems items
  | .null | .bool _ | .number _ | .string _ => false

/-- Whether a member is `properties`, or has one inside it. -/
def describesMembers : List (String × Json) → Bool
  | [] => false
  | (k, v) :: rest => k == "properties" || describes v || describesMembers rest

/-- Whether an item has a member `properties` inside it. -/
def describesItems : List Json → Bool
  | [] => false
  | v :: rest => describes v || describesItems rest

end

/-- A line break and the blanks at the start of the next line. -/
def newline (indent : Nat) : String := String.ofList ('\n' :: List.replicate indent ' ')

mutual

/-- The laid-out text of a value.  `spread` says that an object is spread in any case. -/
def layout (indent : Nat) (spread : Bool) : Json → String
  | .object members =>
    if spread || describesMembers members then
      "\x7b" ++ newline (indent + 2) ++ layoutMembers (indent + 2) true members ++
        newline indent ++ "\x7d"
    else "\x7b " ++ layoutMembers indent false members ++ " \x7d"
  | .array items =>
    if describesItems items then
      "[" ++ newline (indent + 2) ++ layoutItems (indent + 2) true items ++ newline indent ++ "]"
    else "[" ++ layoutItems indent false items ++ "]"
  | .null => text .null
  | .bool b => text (.bool b)
  | .number n => text (.number n)
  | .string s => text (.string s)

/-- The members of an object, each on its own line if `lines` says so. -/
def layoutMembers (indent : Nat) (lines : Bool) : List (String × Json) → String
  | [] => ""
  | [(k, v)] => stringText k ++ ": " ++ layout indent (spreadKeys.contains k) v
  | (k, v) :: rest =>
    stringText k ++ ": " ++ layout indent (spreadKeys.contains k) v ++
      (if lines then "," ++ newline indent else ", ") ++ layoutMembers indent lines rest

/-- The items of an array, each on its own line if `lines` says so. -/
def layoutItems (indent : Nat) (lines : Bool) : List Json → String
  | [] => ""
  | [v] => layout indent false v
  | v :: rest =>
    layout indent false v ++ (if lines then "," ++ newline indent else ", ") ++
      layoutItems indent lines rest

end

end StatementPress.Json
