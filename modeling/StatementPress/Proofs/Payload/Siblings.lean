import StatementPress.Proofs.Payload.Nodes
import StatementPress.Proofs.Xml.Names

/-!
# Paths through a document

What a path leads to in a payload is what it leads to in the document.  `elementsAt` walks through
the document itself: on the way down it takes the first child of each name, and at the end all
children of the last name.  The payload has the node of each of these elements, in document order
(`items_lookup_ofParts`), whether there is none, one, or more; and the text of the first of them
(`text_lookup_ofParts`).

Payloads keep attributes and texts under keys of their own, which no element has for a name.
-/

namespace StatementPress

namespace Xml

/-- The children of a given name, in document order. -/
def elementsNamed (name : String) (nodes : List Node) : List Element :=
  (elements nodes).filter (·.name == name)

/-- The elements that names lead to: the first child of each name on the way, all children of the
last name at the end. -/
def elementsAt : List String → List Node → List Element
  | [], _ => []
  | [last], nodes => elementsNamed last nodes
  | name :: next :: rest, nodes =>
    match (elementsNamed name nodes).head? with
    | some e => elementsAt (next :: rest) e.children
    | none => []

/-- The nodes that stand directly in a document. -/
def Document.nodes (d : Document) : List Node := d.before ++ d.root.toNode :: d.after

theorem elements_append (ns ms : List Node) : elements (ns ++ ms) = elements ns ++ elements ms := by
  induction ns with
  | nil => rfl
  | cons n ns ih => cases n <;> simp [elements, ih]

/-- A walk sees elements only. -/
theorem elementsAt_congr {ns ms : List Node} (h : elements ns = elements ms) (names : List String) :
    elementsAt names ns = elementsAt names ms := by
  match names with
  | [] => rfl
  | [last] => rw [elementsAt, elementsAt, elementsNamed, elementsNamed, h]
  | name :: next :: rest => rw [elementsAt, elementsAt, elementsNamed, elementsNamed, h]

/-- Outside the outermost element a document has no elements. -/
theorem elements_documentNodes {d : Document} (h : d.IsWellNamed) :
    elements d.nodes = elements [d.root.toNode] := by
  rw [Document.nodes, elements_append, h.before, List.nil_append, Element.toNode, elements, elements,
    h.after]
  rfl

/-- What a walk comes to is well named inside. -/
theorem wellNamed_of_mem_elementsAt {names : List String} {nodes : List Node} (h : WellNamed nodes) :
    ∀ e ∈ elementsAt names nodes, WellNamed e.children := by
  have hnamed : ∀ {name nodes}, WellNamed nodes → ∀ e ∈ elementsNamed name nodes,
      WellNamed e.children := fun h e he =>
    (wellNamed_of_mem_elements h e (List.mem_filter.mp he).1).2
  fun_induction elementsAt names nodes with
  | case1 => exact fun _ he => nomatch he
  | case2 last nodes => exact hnamed h
  | case3 name next rest nodes e hfirst ih => exact ih (hnamed h e (List.mem_of_head? hfirst))
  | case4 => exact fun _ he => nomatch he

end Xml

namespace Payload

open Xml (Element elementsNamed elementsAt WellNamed)

/-- The node of an element. -/
def ofElement (e : Element) : Payload :=
  ofParts e.attributes (ofNodes e.children) (Text.trim (Xml.directText e.children))

/-- Each element has one node. -/
theorem ofNodes_eq_map (nodes : List Xml.Node) :
    ofNodes nodes = (Xml.elements nodes).map fun e => (e.name, ofElement e) := by
  induction nodes with
  | nil => rw [ofNodes]; rfl
  | cons node nodes ih => cases node <;> simp [ofNodes, Xml.elements, ih, ofElement]

theorem isSingle_of_mem_map_ofElement (es : List Element) :
    ∀ node ∈ es.map ofElement, node.IsSingle :=
  List.forall_mem_map.mpr fun _ _ => isSingle_ofParts _ _ _

/-- The children of one name are the nodes of the elements of that name. -/
theorem named_ofNodes (name : String) (nodes : List Xml.Node) :
    named name (ofNodes nodes) = (elementsNamed name nodes).map ofElement := by
  rw [named, ofNodes_eq_map, List.filter_map, List.map_map, elementsNamed]
  rfl

/-! ## Keys -/

/-- A key that is not kept for attributes or texts. -/
def IsChildKey (key : String) : Prop := isAttributeKey key = false ∧ key ≠ textKey

instance : DecidablePred IsChildKey := fun key =>
  inferInstanceAs (Decidable (isAttributeKey key = false ∧ key ≠ textKey))

/-- Every name of an element is a key of a child. -/
theorem isChildKey_of_startsAsName {name : String} (h : Xml.startsAsName name = true) :
    IsChildKey name := by
  unfold Xml.startsAsName at h
  cases hname : name.toList with
  | nil =>
    rw [hname] at h
    cases h
  | cons c cs =>
    have hc : Xml.isNameStart c = true := by simpa [hname] using h
    constructor
    · rw [isAttributeKey, hname, attributeMark, Bool.eq_false_iff]
      intro hprefix
      have hat : c = '@' := by
        simp [List.isPrefixOf] at hprefix
        exact hprefix.1.symm
      rw [hat] at hc
      cases hc
    · rintro rfl
      cases hname
      cases hc

/-! ## Nodes -/

variable {attributes : List (String × String)} {nodes : List Xml.Node} {text : String}

/-- Where a walk through a group goes on, it goes on in the first node. -/
theorem lookup_gather {found : List Payload} (h : ∀ node ∈ found, node.IsSingle) (hne : found ≠ [])
    (key : String) (rest : List String) :
    (gather found).lookup (key :: rest) = (found.head hne).lookup (key :: rest) := by
  match found with
  | [node] => rfl
  | node :: next :: others =>
    have hnode : node.first? = some node := h node List.mem_cons_self
    rw [gather, List.head_cons, lookup, lookup, hnode]
    rfl
    intro single hsingle
    cases hsingle

/-- The first node of what stands under a key, if anything does. -/
theorem get?_ofParts_ofNodes {key : String} (hkey : IsChildKey key) :
    (ofParts attributes (ofNodes nodes) text).get? key =
      if elementsNamed key nodes = [] then none
      else some (gather ((elementsNamed key nodes).map ofElement)) := by
  rw [get?_ofParts_child hkey.1 hkey.2, lookup_group, named_ofNodes]
  have hmem : key ∈ (ofNodes nodes).map (·.1) ↔ ¬ elementsNamed key nodes = [] := by
    rw [← List.map_eq_nil_iff (f := ofElement), ← named_ofNodes, named_eq_nil_iff, not_not]
  simp only [hmem, ite_not]

/-- **What names lead to in a payload they lead to in the document.** -/
theorem lookup_ofParts_ofNodes (names : List String) (hne : names ≠ [])
    (hkeys : ∀ name ∈ names, IsChildKey name) :
    (ofParts attributes (ofNodes nodes) text).lookup names =
      if elementsAt names nodes = [] then none
      else some (gather ((elementsAt names nodes).map ofElement)) := by
  -- on the names, for every element that the walk may have come to
  induction names generalizing attributes nodes text with
  | nil => exact absurd rfl hne
  | cons name rest ih =>
    obtain ⟨hname, hrest⟩ := List.forall_mem_cons.mp hkeys
    rw [lookup_cons_of_isSingle (isSingle_ofParts _ _ _), get?_ofParts_ofNodes hname]
    cases rest with
    | nil =>
      rw [elementsAt]
      split <;> rfl
    | cons next rest =>
      rw [elementsAt]
      cases hfound : elementsNamed name nodes with
      | nil => rfl
      | cons e es =>
        rw [if_neg (by simp), Option.bind_some,
          lookup_gather (isSingle_of_mem_map_ofElement _) (by simp)]
        exact ih (by simp) hrest

/-- **Names lead to the nodes of the elements that they lead to in the document**, all of them and
in order. -/
theorem items_lookup_ofParts {names : List String} (hne : names ≠ [])
    (hkeys : ∀ name ∈ names, IsChildKey name) :
    items ((ofParts attributes (ofNodes nodes) text).lookup names) =
      (elementsAt names nodes).map ofElement := by
  rw [lookup_ofParts_ofNodes names hne hkeys]
  split
  · rename_i h
    rw [h]
    rfl
  · rename_i h
    exact items_gather (isSingle_of_mem_map_ofElement _) (by simpa using h)

/-! ## Texts -/

/-- The text of an element is the text it was made with: no child has the key that texts have. -/
theorem text_ofParts {children : List (String × Payload)} (h : textKey ∉ children.map (·.1)) :
    (ofParts attributes children text).text = text := by
  have hnone : (attributeEntries attributes ++ group children).lookup textKey = none := by
    rw [lookup_attributes_child (by decide), lookup_group, if_neg h]
  rw [attributeEntries] at hnone
  unfold ofParts
  dsimp only
  split
  · rfl
  · split
    · rename_i hempty
      rw [Payload.text, hnone, String.isEmpty_iff.mp hempty]
    · rw [Payload.text, List.lookup_append, hnone]
      simp

/-- The text of the node of an element is the text directly in it, without blanks at its ends. -/
theorem text_ofElement {e : Element} (h : WellNamed e.children) :
    (ofElement e).text = Text.trim (Xml.directText e.children) := by
  refine text_ofParts fun hmem => ?_
  obtain ⟨child, hchild, hkey⟩ := List.mem_map.mp hmem
  rw [ofNodes_eq_map] at hchild
  obtain ⟨inner, hinner, rfl⟩ := List.mem_map.mp hchild
  exact (isChildKey_of_startsAsName (Xml.wellNamed_of_mem_elements h inner hinner).1).2 hkey

/-- **The text that names lead to is that of the first element they lead to.** -/
theorem text_lookup_ofParts {names : List String} (hne : names ≠ [])
    (hkeys : ∀ name ∈ names, IsChildKey name) (h : WellNamed nodes) :
    (((ofParts attributes (ofNodes nodes) text).lookup names).map Payload.text).getD "" =
      ((elementsAt names nodes).head?.map fun e => Text.trim (Xml.directText e.children)).getD "" := by
  rw [lookup_ofParts_ofNodes names hne hkeys]
  have hwell : ∀ e ∈ elementsAt names nodes, WellNamed e.children :=
    Xml.wellNamed_of_mem_elementsAt h
  cases hfound : elementsAt names nodes with
  | nil => rfl
  | cons e es =>
    rw [hfound] at hwell
    have htext := text_ofElement (hwell e List.mem_cons_self)
    rw [if_neg (by simp), Option.map_some, Option.getD_some, List.head?_cons, Option.map_some,
      Option.getD_some, ← htext]
    cases es <;> rfl

end Payload

end StatementPress
