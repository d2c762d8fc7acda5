import StatementPress.Binary64

/-!
# JSON values

A JSON value as a tree.  Numbers are whole or doubles; the doubles of a value are finite, so a value
can always be written down again.  An object is its list of members in order.  As read from a text
a key may occur twice in it.  `normalize` gives the form in which a value is looked at afterwards:
keys in ascending order, each once, the last member of a key winning (`IsNormal`).
-/

namespace StatementPress

/-- A number in a JSON value. -/
inductive Json.Number where
  | whole (i : Int)
  | double (x : Binary64) (finite : x.isFinite = true)
  deriving DecidableEq

/-- A JSON value. -/
inductive Json where
  | null
  | bool (b : Bool)
  | number (n : Json.Number)
  | string (s : String)
  | array (items : List Json)
  /-- An object: its members in order. -/
  | object (members : List (String × Json))

namespace Json

/-- A whole number as a value. -/
def ofInt (i : Int) : Json := .number (.whole i)

/-- A natural number as a value. -/
def ofNat (n : Nat) : Json := ofInt n

/-- A double as a value; what is not finite has no number and becomes `null`. -/
def ofBinary64 (x : Binary64) : Json :=
  if h : x.isFinite = true then .number (.double x h) else .null

/-- The double nearest to a number. -/
def Number.toBinary64 : Number → Binary64
  | .whole i => Binary64.ofInt i
  | .double x _ => x

/-- The members of an object. -/
def members? : Json → Option (List (String × Json))
  | .object members => some members
  | _ => none

/-- The characters of a string. -/
def string? : Json → Option String
  | .string s => some s
  | _ => none

/-- The member of an object with a given key, the first if there are several. -/
def get? (key : String) : Json → Option Json
  | .object members => members.lookup key
  | _ => none

/-- A list of members, in ascending order of keys, with a member put in its place.  A member with
the same key gives way. -/
def insertMember (key : String) (value : Json) :
    List (String × Json) → List (String × Json)
  | [] => [(key, value)]
  | (k, v) :: rest =>
    if key < k then (key, value) :: (k, v) :: rest
    else if key = k then (key, value) :: rest
    else (k, v) :: insertMember key value rest

/-- Members in ascending order of keys, the last of each key. -/
def sortMembers (members : List (String × Json)) : List (String × Json) :=
  members.foldl (fun sorted m => insertMember m.1 m.2 sorted) []

mutual

/-- The value with the members of every object in ascending order of keys, the last member of each
key kept. -/
def normalize : Json → Json
  | .array items => .array (normalizeItems items)
  | .object members => .object (sortMembers (normalizeMembers members))
  | .null => .null
  | .bool b => .bool b
  | .number n => .number n
  | .string s => .string s

/-- Normalizes every item of a list. -/
def normalizeItems : List Json → List Json
  | [] => []
  | item :: rest => normalize item :: normalizeItems rest

/-- Normalizes the value of every member of a list. -/
def normalizeMembers : List (String × Json) → List (String × Json)
  | [] => []
  | (k, v) :: rest => (k, normalize v) :: normalizeMembers rest

end

mutual

/-- A value whose objects have their keys in strictly ascending order. -/
def IsNormal : Json → Prop
  | .array items => IsNormalItems items
  | .object members => members.Pairwise (fun a b => a.1 < b.1) ∧ IsNormalMembers members
  | .null | .bool _ | .number _ | .string _ => True

/-- Every item is normal. -/
def IsNormalItems : List Json → Prop
  | [] => True
  | item :: rest => IsNormal item ∧ IsNormalItems rest

/-- Every member's value is normal. -/
def IsNormalMembers : List (String × Json) → Prop
  | [] => True
  | (_, v) :: rest => IsNormal v ∧ IsNormalMembers rest

end

end Json

end StatementPress
