import Mathlib
import StatementPress.Proofs.Markup.Skeleton
import StatementPress.Proofs.Payload.Siblings

/-!
# Paths lead where the document does

A path of element names is resolved in the payload of a document.  What it leads to is found by
walking through the document: the first child of each name on the way, and all children of the last
name at the end.  So a table has a row for each of them, however many there are.
-/

namespace StatementPress

open Markup Payload
open Xml (elementsAt)

/-- What stands directly in an element as text, without the blanks at its ends. -/
def Xml.Element.ownText (e : Xml.Element) : String := Text.trim (Xml.directText e.children)

/-- The payload of a document is an element without text or attributes. -/
theorem Payload.element_ofNodes_singleton (e : Xml.Element) :
    Payload.element (ofNodes [e.toNode]) = ofParts [] (ofNodes [e.toNode]) "" := by
  have hnodes : ofNodes [e.toNode] = [(e.name, ofElement e)] := by
    rw [ofNodes_eq_map]
    rfl
  rw [hnodes]
  simp [ofParts, group, gather, List.eraseDups_cons]

/-- The rows that a table draws are the nodes at its row path. -/
theorem TableComponent.exists_node {c : TableComponent} (payload : Payload)
    (hrow : Path.IsAbsolute c.rowBinding.path)
    (hcolumns : ∀ column ∈ c.columns, Path.IsAbsolute column.binding.path) :
    ∃ node : Markup.Node, (c.markup payload).outcome = .ok (String.ofList node.write) ∧
      node.outline = tableSkeleton c.columns.length (payload.nodesAt c.rowBinding.path).length :=
  ⟨c.node payload, outcome_markup (isAbsolute_bindings hrow hcolumns) payload, outline_node payload c⟩

/-- **Paths lead where the document does.**  A document within the ceilings has a payload.  In it an
absolute path of element names leads to the nodes of all elements that the names lead to in the
document, each once and in document order; its text is that of the first of them, empty if there is
none; and a table with that row path draws its headers and one row for each of them. -/
theorem paths_follow_document {limits : Limits} {text : String} {d : Xml.Document}
    (hbytes : Text.byteSize text.toList ≤ limits.maxBytes.toNat)
    (hread : Xml.Document.ofText limits.maxNodes.toNat text = .ok d)
    (hdepth : Xml.nesting [d.root.toNode] ≤ limits.maxDepth.toNat) :
    ∃ payload, (Payload.ofText limits text).outcome = .ok payload ∧
      ∀ path, Path.IsAbsolute path → Path.parts path ≠ [] →
        (∀ name ∈ Path.parts path, IsChildKey name) →
          payload.resolveAll path =
            .ok ((elementsAt (Path.parts path) d.nodes).map Payload.ofElement) ∧
          payload.resolve path =
            .ok (((elementsAt (Path.parts path) d.nodes).head?.map (·.ownText)).getD "") ∧
          ∀ c : TableComponent, c.rowBinding.path = path →
            (∀ column ∈ c.columns, Path.IsAbsolute column.binding.path) →
              ∃ node : Markup.Node, (c.markup payload).outcome = .ok (String.ofList node.write) ∧
                node.outline = tableSkeleton c.columns.length
                  (elementsAt (Path.parts path) d.nodes).length := by
  have hnamed := Xml.Document.isWellNamed_of_ofText hread
  refine ⟨_, outcome_ofText hbytes hread hdepth, fun path habsolute hne hkeys => ?_⟩
  have helements := Xml.elementsAt_congr (Xml.elements_documentNodes hnamed) (Path.parts path)
  rw [element_ofNodes_singleton]
  have hnodes : (ofParts [] (ofNodes [d.root.toNode]) "").nodesAt path =
      (elementsAt (Path.parts path) d.nodes).map Payload.ofElement := by
    rw [nodesAt_eq, items_lookup_ofParts hne hkeys, helements]
  refine ⟨?_, ?_, fun c hc hcolumns => ?_⟩
  · rw [resolveAll_of_isAbsolute habsolute, hnodes]
  · rw [resolve_of_isAbsolute habsolute, textAt, text_lookup_ofParts hne hkeys hnamed.root, helements]
    rfl
  · subst hc
    have htable := TableComponent.exists_node (ofParts [] (ofNodes [d.root.toNode]) "") habsolute
      hcolumns
    rwa [hnodes, List.length_map] at htable

/-- A payload with repeated elements: others between them, more of them elsewhere, and one with
attributes, text and elements in it. -/
def scatteredDebts : String :=
  "<Case><Debts><Debt>1</Debt><Note/><Debt id=\"b\"> 2<Sum/>3 </Debt></Debts>" ++
    "<Debts><Debt>4</Debt></Debts></Case>"

theorem paths_follow_document_on_scatteredDebts :
    ∃ payload, (Payload.ofText {} scatteredDebts).outcome = .ok payload ∧
      payload.resolveAll "/Case/Debts/Debt" = .ok [.scalar "1",
        .element [("@_id", .scalar "b"), ("Sum", .scalar ""), ("#text", .scalar "23")]] ∧
      payload.resolve "/Case/Debts/Debt" = .ok "1" ∧
      payload.resolveAll "/Case/Credits/Credit" = .ok [] := by
  have hread : Xml.Document.ofText 1000000 scatteredDebts = .ok ⟨[], ⟨"Case", [],
      [.element "Debts" [] [.element "Debt" [] [.text "1"], .element "Note" [] [],
        .element "Debt" [("id", "b")] [.text " 2", .element "Sum" [] [], .text "3 "]],
       .element "Debts" [] [.element "Debt" [] [.text "4"]]]⟩, []⟩ := by cbv
  obtain ⟨payload, hpayload, hpaths⟩ := @paths_follow_document {} scatteredDebts _
    (by decide +kernel) hread (by simp [Xml.Element.toNode, Xml.nesting])
  obtain ⟨hall, hfirst, -⟩ := hpaths "/Case/Debts/Debt" (by decide) (by decide) (by decide)
  obtain ⟨hnone, -⟩ := hpaths "/Case/Credits/Credit" (by decide) (by decide) (by decide)
  refine ⟨payload, hpayload, hall.trans ?_, hfirst.trans ?_, hnone.trans ?_⟩
  · cbv
  · cbv
  · cbv

end StatementPress
