/-!
# Payload trees

What a statement reads its values from.  A payload is a text, an element with entries under keys, or
a sequence of nodes that stand side by side under one key.  Attributes have keys that start with
`@_`; the text of an element that has entries stands under the key `#text`.
-/

namespace StatementPress

/-- A node of a payload. -/
inductive Payload where
  | scalar (text : String)
  /-- Entries in the order in which their keys first came up. -/
  | element (entries : List (String × Payload))
  /-- Nodes under one key, in order. -/
  | sequence (items : List Payload)

namespace Payload

/-- The key of the text of an element that has entries. -/
def textKey : String := "#text"

/-- What the keys of attributes start with. -/
def attributeMark : String := "@_"

/-- Whether a key is that of an attribute. -/
def isAttributeKey (key : String) : Bool := attributeMark.toList.isPrefixOf key.toList

/-- A single node: the first of a sequence, any other node itself. -/
def first? : Payload → Option Payload
  | .sequence items => items.head?
  | node => some node

/-- The text of a node.  An element has its own text, a sequence that of its first node. -/
def text : Payload → String
  | .scalar s => s
  | .element entries =>
    match entries.lookup textKey with
    | some (.scalar s) => s
    | _ => ""
  | .sequence [] => ""
  | .sequence (item :: _) => item.text

/-- The entry of an element under a key. -/
def get? (key : String) : Payload → Option Payload
  | .element entries => entries.lookup key
  | _ => none

/-- Whether a node is a text. -/
def isScalar : Payload → Bool
  | .scalar _ => true
  | _ => false

end Payload

end StatementPress
