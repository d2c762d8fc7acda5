import StatementPress.Payload.Basic

/-!
# Building elements

An element is built in document order: its attributes, then its children one by one, and at the end
its text.  The first child of a name gets an entry of its own.  When a second one comes up, the
entry becomes a sequence of the two, and those after it are appended to the sequence.
-/

namespace StatementPress.Payload

/-- A node, or a sequence, with one more node after it. -/
def followedBy (previous node : Payload) : Payload :=
  match previous with
  | .sequence items => .sequence (items ++ [node])
  | single => .sequence [single, node]

/-- An element that is being built. -/
structure Builder where
  /-- The entries so far. -/
  entries : List (String × Payload) := []
  /-- For each name among the children so far, the index of its entry. -/
  index : List (String × Nat) := []

namespace Builder

/-- Adds an attribute. -/
def addAttribute (b : Builder) (name value : String) : Builder :=
  { b with entries := b.entries ++ [(attributeMark ++ name, .scalar value)] }

/-- Adds a child. -/
def addChild (b : Builder) (name : String) (node : Payload) : Builder :=
  match b.index.lookup name with
  | some i => { b with entries := b.entries.modify i fun e => (e.1, e.2.followedBy node) }
  | none =>
    { entries := b.entries ++ [(name, node)], index := (name, b.entries.length) :: b.index }

/-- The node of the element, once its text is known.  Without entries it is the text. -/
def finish (b : Builder) (text : String) : Payload :=
  if b.entries.isEmpty then .scalar text
  else if text.isEmpty then .element b.entries
  else .element (b.entries ++ [(textKey, .scalar text)])

/-- The start of an element with given attributes. -/
def ofAttributes (attributes : List (String × String)) : Builder :=
  attributes.foldl (fun b a => b.addAttribute a.1 a.2) {}

end Builder

end StatementPress.Payload
