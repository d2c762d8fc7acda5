import StatementPress.Proofs.Markup.LengthText
import StatementPress.Xml.Document

/-!
# Markup as trees

Markup is put together as text, but it is the text of a tree: `Node`.  A node has a name and
attributes that are fixed when the tree is built, no two attributes of one name; strings from
outside appear only as passages, between tags or between quotation marks.

`write` gives the text of a tree, `read` the document nodes that stand for it, and `outline` what is
left of document nodes when all strings but names are forgotten.
-/

namespace StatementPress.Markup

/-- Whether a string can name an element or an attribute, a qualifier apart. -/
def isLocalName (s : String) : Bool :=
  s != "xmlns" && s.toList.head?.any Xml.isNameStart &&
    s.toList.all fun c => c != ':' && Xml.isNameChar c

/-- The name of an element or of an attribute. -/
structure LocalName where
  text : String
  isName : isLocalName text = true

/-- A fixed name; that it is one is found by evaluation. -/
def named (s : String) (h : isLocalName s = true := by exact Eq.refl true) : LocalName := ⟨s, h⟩

/-- The attributes of a tag. -/
structure Attributes where
  /-- Names and values, in order. -/
  entries : List (LocalName × Passage)
  /-- No name occurs twice. -/
  distinct : (entries.map (·.1.text)).Nodup

/-- Whether no string occurs twice. -/
def areDistinct : List String → Bool
  | [] => true
  | s :: rest => !rest.contains s && areDistinct rest

theorem nodup_of_areDistinct : ∀ {strings : List String}, areDistinct strings = true → strings.Nodup
  | [], _ => List.nodup_nil
  | s :: rest, h => by
    rw [areDistinct, Bool.and_eq_true, Bool.not_eq_true'] at h
    exact List.nodup_cons.mpr ⟨by simpa using h.1, nodup_of_areDistinct h.2⟩

/-- Fixed names with values; that the names differ is found by evaluation. -/
def attributes (entries : List (LocalName × Passage))
    (h : areDistinct (entries.map (·.1.text)) = true := by exact Eq.refl true) : Attributes :=
  ⟨entries, nodup_of_areDistinct h⟩

/-- A piece of markup. -/
inductive Node where
  /-- An element with an opening and a closing tag: the text before it, its name and attributes, the
  elements in it, and the text after them. -/
  | element (before : Passage) (name : LocalName) (attributes : Attributes) (children : List Node)
    (text : Passage)
  /-- An element of a single tag: the text before it, its name and attributes, and whether a blank
  stands before the end of the tag. -/
  | leaf (before : Passage) (name : LocalName) (attributes : Attributes) (spaced : Bool)

/-! ## As text -/

/-- The qualifier of all elements, with its colon. -/
def qualifierChars : List Char := ['f', 'o', ':']

/-- An attribute with the blank before it. -/
def writeAttribute (a : LocalName × Passage) : List Char :=
  ' ' :: a.1.text.toList ++ '=' :: '"' :: a.2.chars ++ ['"']

/-- The name of a tag with its attributes. -/
def writeTag (name : LocalName) (attributes : Attributes) : List Char :=
  qualifierChars ++ name.text.toList ++ attributes.entries.flatMap writeAttribute

/-- A closing tag. -/
def writeClosing (name : LocalName) : List Char :=
  '<' :: '/' :: qualifierChars ++ name.text.toList ++ ['>']

mutual

/-- The text of a node. -/
def Node.write : Node → List Char
  | .element before name attributes children text =>
    before.chars ++ '<' :: writeTag name attributes ++ '>' :: Node.writeAll children ++
      text.chars ++ writeClosing name
  | .leaf before name attributes spaced =>
    before.chars ++ '<' :: writeTag name attributes ++ (if spaced then [' '] else []) ++ ['/', '>']

/-- The text of nodes, one after another. -/
def Node.writeAll : List Node → List Char
  | [] => []
  | node :: rest => node.write ++ Node.writeAll rest

end

/-! ## As document nodes -/

/-- The nodes of a passage between tags. -/
def readPassage (p : Passage) : List Xml.Node :=
  if p.chars = [] then [] else [.text p.contentText]

/-- The attributes of a tag as a document has them. -/
def Attributes.read (attributes : Attributes) : List (String × String) :=
  attributes.entries.map fun a => (a.1.text, a.2.valueText)

mutual

/-- The document nodes of a node. -/
def Node.read : Node → List Xml.Node
  | .element before name attributes children text =>
    readPassage before ++
      [.element name.text attributes.read (Node.readAll children ++ readPassage text)]
  | .leaf before name attributes _ =>
    readPassage before ++ [.element name.text attributes.read []]

/-- The document nodes of nodes, one after another. -/
def Node.readAll : List Node → List Xml.Node
  | [] => []
  | node :: rest => node.read ++ Node.readAll rest

end

/-! ## As an outline -/

/-- An element without its strings: its name, the names of its attributes, the elements in it. -/
inductive Outline where
  | node (name : String) (attributes : List String) (children : List Outline)

/-- The outlines of the elements among document nodes. -/
def outlines : List Xml.Node → List Outline
  | [] => []
  | .element name attributes children :: rest =>
    .node name (attributes.map (·.1)) (outlines children) :: outlines rest
  | _ :: rest => outlines rest

mutual

/-- The outline of a node. -/
def Node.outline : Node → Outline
  | .element _ name attributes children _ =>
    .node name.text (attributes.entries.map (·.1.text)) (Node.outlineAll children)
  | .leaf _ name attributes _ => .node name.text (attributes.entries.map (·.1.text)) []

/-- The outlines of nodes. -/
def Node.outlineAll : List Node → List Outline
  | [] => []
  | node :: rest => node.outline :: Node.outlineAll rest

end

theorem Attributes.map_fst_read (attributes : Attributes) :
    attributes.read.map (·.1) = attributes.entries.map (·.1.text) := by
  simp [Attributes.read]

/-- Outlines are taken node by node. -/
theorem outlines_append (ns ms : List Xml.Node) :
    outlines (ns ++ ms) = outlines ns ++ outlines ms := by
  induction ns with
  | nil => rw [outlines, List.nil_append, List.nil_append]
  | cons n ns ih => cases n <;> simp [outlines, ih]

@[simp] theorem outlines_readPassage (p : Passage) : outlines (readPassage p) = [] := by
  unfold readPassage
  split <;> simp [outlines]

mutual

/-- **A tree is read with its own outline**, whatever its passages hold. -/
theorem Node.outlines_read : ∀ node : Node, outlines node.read = [node.outline]
  | .element before name attributes children text => by
    rw [Node.read, outlines_append, outlines_readPassage, outlines, outlines, outlines_append,
      outlines_readPassage, Node.outlines_readAll children, Attributes.map_fst_read, outline,
      List.append_nil, List.nil_append]
  | .leaf before name attributes _ => by
    rw [Node.read, outlines_append, outlines_readPassage, outlines, outlines,
      Attributes.map_fst_read, outline, List.nil_append]

/-- What is read of markup has the outline of the markup, whatever its passages hold. -/
theorem Node.outlines_readAll : ∀ nodes : List Node, outlines (Node.readAll nodes) = outlineAll nodes
  | [] => by rw [readAll, outlines, outlineAll]
  | node :: rest => by
    rw [Node.readAll, outlines_append, Node.outlines_read node, Node.outlines_readAll rest,
      outlineAll]
    rfl

end

/-! ## Lists of nodes made from other lists -/

variable {α : Type}

theorem Node.writeAll_eq_flatMap (nodes : List Node) : writeAll nodes = nodes.flatMap write := by
  induction nodes with
  | nil => rfl
  | cons node rest ih => rw [writeAll, ih, List.flatMap_cons]

theorem Node.outlineAll_eq_map (nodes : List Node) : outlineAll nodes = nodes.map outline := by
  induction nodes with
  | nil => rfl
  | cons node rest ih => rw [outlineAll, ih, List.map_cons]

end StatementPress.Markup
