import StatementPress.Proofs.EscapedText
import StatementPress.Proofs.Payload.Siblings

/-!
# Reading markup by itself

A piece of markup has qualified names, so it can be read where the qualifier is declared: in an element
that does nothing else (`inRoot`).  There it is read as the nodes of its tree, each of which is an
element (`Markup.Node.asElement`), whatever its passages hold.
-/

namespace StatementPress

open Markup Compile

namespace Markup

/-- A text in an element that declares the qualifier of all elements. -/
def inRoot (content : String) : String :=
  "<fo:root" ++ attr "xmlns:fo" namespaceUri ++ ">" ++ content ++ "</fo:root>"

theorem toList_inRoot (content : String) :
    (inRoot content).toList = rootStart ++ (content.toList ++ writeClosing (named "root")) := by
  simp [inRoot, attr, rootStart, writeClosing, qualifierChars, named]

/-- The element that a node is read as. -/
def Node.asElement : Node → Xml.Element
  | .element _ name as children text => ⟨name.text, as.read, readAll children ++ readPassage text⟩
  | .leaf _ name as _ => ⟨name.text, as.read, []⟩

@[simp] theorem elements_readPassage (p : Passage) : Xml.elements (readPassage p) = [] := by
  unfold readPassage
  split <;> rfl

/-- Each tree is read as one element. -/
theorem Node.elements_readAll (nodes : List Node) :
    Xml.elements (readAll nodes) = nodes.map asElement := by
  induction nodes with
  | nil => rfl
  | cons node nodes ih =>
    rw [readAll, Xml.elements_append, ih, List.map_cons]
    cases node <;> simp [read, Xml.elements_append, Xml.elements, asElement]

end Markup

namespace Xml.Scanner

/-- The document of nodes that stand by themselves. -/
def fragmentDocument (nodes : List Node) : Document := ⟨[], ⟨"root", [], nodes⟩, []⟩

/-- **Markup that stands by itself is read as the nodes of its trees.** -/
theorem ofText_inRoot {nodes : List Markup.Node} {limit : Nat}
    (hlimit : (fragmentDocument (Markup.Node.readAll nodes)).size ≤ limit) :
    Document.ofText limit (inRoot (String.ofList (Markup.Node.writeAll nodes))) =
      .ok (fragmentDocument (Markup.Node.readAll nodes)) := by
  have hclose : ContentReads limit [("fo", namespaceUri)] ⟨"fo", "root"⟩ false
      (writeClosing (Markup.named "root") ++ []) [] [] :=
    contentReads_closing (Markup.named "root") false []
  have hinside := contentReads_writeAll rfl nodes hclose
  rw [List.append_nil, List.append_nil] at hinside
  have hcount : 1 + 1 + nodeCount (Markup.Node.readAll nodes) ≤ limit := by
    simp only [Document.size, fragmentDocument, Element.toNode, nodeCount] at hlimit
    omega
  -- the name of the outermost element starts with its qualifier
  have hshape : rootStart ++ (Markup.Node.writeAll nodes ++ writeClosing (Markup.named "root")) =
      '<' :: ((Markup.named "fo").text.toList ++ (rootStart.drop 3 ++
        (Markup.Node.writeAll nodes ++ writeClosing (Markup.named "root")))) := rfl
  have hfuel : (Markup.Node.writeAll nodes ++ writeClosing (Markup.named "root")).length <
      (rootStart ++ (Markup.Node.writeAll nodes ++ writeClosing (Markup.named "root"))).length := by
    have hstart : 0 < rootStart.length := by decide
    simp only [List.length_append]
    omega
  have hroot := element_root hinside (by simp [writeClosing]) hfuel hcount
  rw [hshape] at hroot
  rw [Document.ofText, toList_inRoot, String.toList_ofList, hshape]
  simp only [StateT.run, document_element hroot, fragmentDocument]

end Xml.Scanner

end StatementPress
