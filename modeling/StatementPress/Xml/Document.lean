/-!
# Documents

A document as a tree.  Elements and attributes have local names only: qualifiers matter while a
document is read, and not afterwards.  Neighbouring pieces of text are one text node.
-/

namespace StatementPress.Xml

/-- A node of a document. -/
inductive Node where
  | element (name : String) (attributes : List (String × String)) (children : List Node)
  | text (s : String)
  | comment
  /-- A processing instruction. -/
  | instruction

/-- An element by its parts. -/
structure Element where
  /-- The local name. -/
  name : String
  /-- The attributes in order, by local name. -/
  attributes : List (String × String)
  children : List Node

/-- An element as a node. -/
def Element.toNode (e : Element) : Node := .element e.name e.attributes e.children

/-- A document: its outermost element, with what stands around it. -/
structure Document where
  /-- Comments and instructions before the element. -/
  before : List Node
  /-- The outermost element. -/
  root : Element
  /-- Comments and instructions after it. -/
  after : List Node

/-- Puts a text in front of nodes; it joins a text that stands there. -/
def joinText (s : String) : List Node → List Node
  | .text t :: rest => .text (s ++ t) :: rest
  | nodes => .text s :: nodes

/-- The text that stands directly among nodes. -/
def directText : List Node → String
  | [] => ""
  | .text s :: rest => s ++ directText rest
  | _ :: rest => directText rest

/-- The elements among nodes. -/
def elements : List Node → List Element
  | [] => []
  | .element name attributes children :: rest => ⟨name, attributes, children⟩ :: elements rest
  | _ :: rest => elements rest

/-- The number of nodes in a list of trees. -/
def nodeCount : List Node → Nat
  | [] => 0
  | .element _ _ children :: rest => 1 + nodeCount children + nodeCount rest
  | _ :: rest => 1 + nodeCount rest

/-- The number of nodes of a document, itself included.  Attributes are no nodes. -/
def Document.size (d : Document) : Nat :=
  1 + nodeCount d.before + nodeCount [d.root.toNode] + nodeCount d.after

/-- The number of attributes in a list of trees. -/
def attributeCount : List Node → Nat
  | [] => 0
  | .element _ attributes children :: rest =>
    attributes.length + attributeCount children + attributeCount rest
  | _ :: rest => attributeCount rest

/-- How deep the elements in a list of trees stand inside each other. -/
def nesting : List Node → Nat
  | [] => 0
  | .element _ _ children :: rest => max (1 + nesting children) (nesting rest)
  | _ :: rest => nesting rest

end StatementPress.Xml
