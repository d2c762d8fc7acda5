import StatementPress.Proofs.Payload.Siblings

/-!
# The nodes within a payload

`Within` says that a node stands in a payload, at any depth.  In the payload of a document each node
is a text, the node of one of its elements, or a sequence (`within_ofNodes_iff`): the nodes of those
children of one element that share a name, if there are two of them or more.
-/

namespace StatementPress.Payload

open Xml (Element elements elementsNamed allElements)

/-- Whether a node is a payload or stands somewhere inside it. -/
inductive Within (node : Payload) : Payload → Prop
  | self : Within node node
  | entry {entries : List (String × Payload)} {e : String × Payload} :
      e ∈ entries → Within node e.2 → Within node (.element entries)
  | item {items : List Payload} {inner : Payload} :
      inner ∈ items → Within node inner → Within node (.sequence items)

variable {node : Payload} {attributes : List (String × String)} {children : List (String × Payload)}
  {text : String}

theorem within_scalar_iff {s : String} : Within node (.scalar s) ↔ node = .scalar s := by
  constructor
  · intro h
    cases h
    rfl
  · rintro rfl
    exact .self

theorem within_element_iff {entries : List (String × Payload)} :
    Within node (.element entries) ↔
      node = .element entries ∨ ∃ e ∈ entries, Within node e.2 := by
  constructor
  · intro h
    cases h with
    | self => exact .inl rfl
    | entry he h => exact .inr ⟨_, he, h⟩
  · rintro (rfl | ⟨e, he, h⟩)
    · exact .self
    · exact .entry he h

theorem within_sequence_iff {items : List Payload} :
    Within node (.sequence items) ↔
      node = .sequence items ∨ ∃ inner ∈ items, Within node inner := by
  constructor
  · intro h
    cases h with
    | self => exact .inl rfl
    | item hinner h => exact .inr ⟨_, hinner, h⟩
  · rintro (rfl | ⟨inner, hinner, h⟩)
    · exact .self
    · exact .item hinner h

/-- What stands inside a payload is an entry of an element or an item of a sequence in it. -/
theorem Within.parent {payload : Payload} (h : Within node payload) :
    node = payload ∨
      (∃ entries key, Within (.element entries) payload ∧ (key, node) ∈ entries) ∨
      ∃ items, Within (.sequence items) payload ∧ node ∈ items := by
  induction h with
  | self => exact .inl rfl
  | entry he _ ih =>
    rcases ih with rfl | ⟨entries, key, hwithin, hmem⟩ | ⟨items, hwithin, hmem⟩
    · exact .inr (.inl ⟨_, _, .self, he⟩)
    · exact .inr (.inl ⟨entries, key, .entry he hwithin, hmem⟩)
    · exact .inr (.inr ⟨items, .entry he hwithin, hmem⟩)
  | item hinner _ ih =>
    rcases ih with rfl | ⟨entries, key, hwithin, hmem⟩ | ⟨items, hwithin, hmem⟩
    · exact .inr (.inr ⟨_, .self, hinner⟩)
    · exact .inr (.inl ⟨entries, key, .item hinner hwithin, hmem⟩)
    · exact .inr (.inr ⟨items, .item hinner hwithin, hmem⟩)

/-! ## The entries of an element -/

/-- The entry for the text of an element that has other entries, if it has text. -/
def textEntries (text : String) : List (String × Payload) :=
  if text.isEmpty then [] else [(textKey, .scalar text)]

/-- An element without entries is its text; any other has its entries, and then its text. -/
theorem ofParts_eq (attributes : List (String × String)) (children : List (String × Payload))
    (text : String) : ofParts attributes children text =
      if attributeEntries attributes ++ group children = [] then .scalar text
      else .element (attributeEntries attributes ++ group children ++ textEntries text) := by
  unfold ofParts textEntries attributeEntries
  simp only [List.isEmpty_iff]
  split
  · rfl
  · split
    · rw [List.append_nil]
    · rfl

/-- The entries for children: under each name the node for all children of the name. -/
theorem mem_group_iff {e : String × Payload} : e ∈ group children ↔
    e.1 ∈ children.map (·.1) ∧ e.2 = gather (named e.1 children) := by
  rw [group, List.mem_map]
  constructor
  · rintro ⟨name, hname, rfl⟩
    exact ⟨List.mem_eraseDups.mp hname, rfl⟩
  · rintro ⟨hname, hnode⟩
    exact ⟨e.1, List.mem_eraseDups.mpr hname, Prod.ext rfl hnode.symm⟩

/-- A group is its only node or a sequence of its nodes. -/
theorem gather_cases {nodes : List Payload} (h : nodes ≠ []) :
    (∃ single, nodes = [single] ∧ gather nodes = single) ∨
      2 ≤ nodes.length ∧ gather nodes = .sequence nodes := by
  match nodes with
  | [] => exact absurd rfl h
  | [single] => exact .inl ⟨single, rfl, rfl⟩
  | _ :: _ :: _ => exact .inr ⟨by simp, rfl⟩

/-- In the node for several children of one name stand the children, and the sequence of them. -/
theorem within_gather_iff {nodes : List Payload} (h : nodes ≠ []) :
    Within node (gather nodes) ↔
      (∃ inner ∈ nodes, Within node inner) ∨ 2 ≤ nodes.length ∧ node = .sequence nodes := by
  rcases gather_cases h with ⟨single, rfl, hgather⟩ | ⟨hlength, hgather⟩
  · simp [hgather]
  · rw [hgather, within_sequence_iff, or_comm]
    exact or_congr_right (and_iff_right hlength).symm

/-- What stands in the entries for children stands in a child, or is the sequence of the children of
one name. -/
theorem within_group_iff :
    (∃ e ∈ group children, Within node e.2) ↔
      (∃ child ∈ children, Within node child.2) ∨
        ∃ name, 2 ≤ (named name children).length ∧ node = .sequence (named name children) := by
  have hne : ∀ {name}, name ∈ children.map (·.1) → named name children ≠ [] :=
    fun hname hnil => named_eq_nil_iff.mp hnil hname
  constructor
  · rintro ⟨e, he, hwithin⟩
    obtain ⟨hname, hnode⟩ := mem_group_iff.mp he
    rw [hnode, within_gather_iff (hne hname)] at hwithin
    rcases hwithin with ⟨inner, hinner, hwithin⟩ | hsequence
    · obtain ⟨child, hchild, rfl⟩ := List.mem_map.mp hinner
      exact .inl ⟨child, (List.mem_filter.mp hchild).1, hwithin⟩
    · exact .inr ⟨e.1, hsequence⟩
  · rintro (⟨child, hchild, hwithin⟩ | ⟨name, hlength, rfl⟩)
    · have hname : child.1 ∈ children.map (·.1) := List.mem_map_of_mem hchild
      have hinner : child.2 ∈ named child.1 children :=
        List.mem_map_of_mem (List.mem_filter.mpr ⟨hchild, beq_self_eq_true _⟩)
      exact ⟨(child.1, gather (named child.1 children)), mem_group_iff.mpr ⟨hname, rfl⟩,
        (within_gather_iff (hne hname)).mpr (.inl ⟨child.2, hinner, hwithin⟩)⟩
    · have hname : name ∈ children.map (·.1) := by
        by_contra hname
        rw [named_eq_nil_iff.mpr hname] at hlength
        simp at hlength
      exact ⟨(name, gather (named name children)), mem_group_iff.mpr ⟨hname, rfl⟩,
        (within_gather_iff (hne hname)).mpr (.inr ⟨hlength, rfl⟩)⟩

/-- What stands in the node of an element, texts aside, is that node, or stands in a child, or is the
sequence of the children of one name. -/
theorem within_ofParts_iff (hnode : ∀ s, node ≠ .scalar s) :
    Within node (ofParts attributes children text) ↔
      node = ofParts attributes children text ∨ (∃ child ∈ children, Within node child.2) ∨
        ∃ name, 2 ≤ (named name children).length ∧ node = .sequence (named name children) := by
  rw [← within_group_iff, ofParts_eq]
  split
  · rename_i hempty
    have hgroup : group children = [] := (List.append_eq_nil_iff.mp hempty).2
    simp [within_scalar_iff, hgroup]
  · have hattributes : ¬ ∃ e ∈ attributeEntries attributes, Within node e.2 := by
      rintro ⟨e, he, hwithin⟩
      obtain ⟨a, -, rfl⟩ := List.mem_map.mp he
      exact hnode _ (within_scalar_iff.mp hwithin)
    have htext : ¬ ∃ e ∈ textEntries text, Within node e.2 := by
      rintro ⟨e, he, hwithin⟩
      unfold textEntries at he
      split at he
      · cases he
      · rw [List.mem_singleton.mp he] at hwithin
        exact hnode _ (within_scalar_iff.mp hwithin)
    rw [within_element_iff]
    simp only [List.mem_append, or_and_right, exists_or, hattributes, htext, false_or, or_false]

/-! ## The nodes of a document -/

theorem ofNodes_toNode_cons (e : Element) (nodes : List Xml.Node) :
    ofNodes (e.toNode :: nodes) = (e.name, ofElement e) :: ofNodes nodes := by
  rw [Element.toNode, ofNodes]
  rfl

theorem ofNodes_cons_of_ne {child : Xml.Node} (h : ∀ e : Element, child ≠ e.toNode)
    (nodes : List Xml.Node) : ofNodes (child :: nodes) = ofNodes nodes := by
  rw [ofNodes_eq_map, ofNodes_eq_map, Xml.elements_cons_of_ne h]

theorem ofNodes_toNode (e : Element) : ofNodes [e.toNode] = [(e.name, ofElement e)] := by
  rw [ofNodes_toNode_cons, ofNodes]

/-- Whether a node is that of an element, or the sequence of those of its children that share a
name. -/
def ComesFrom (node : Payload) (e : Element) : Prop :=
  node = ofElement e ∨
    ∃ name, 2 ≤ (elementsNamed name e.children).length ∧
      node = .sequence ((elementsNamed name e.children).map ofElement)

/-- **What stands in the children of a node comes from the elements inside it**, texts aside. -/
theorem within_ofNodes_iff (hnode : ∀ s, node ≠ .scalar s) (nodes : List Xml.Node) :
    (∃ child ∈ ofNodes nodes, Within node child.2) ↔
      ∃ e ∈ allElements nodes, node.ComesFrom e := by
  induction nodes using Xml.nodes_induction with
  | nil => simp [ofNodes]
  | element e rest ihchildren ihrest =>
    have hfirst : Within node (ofElement e) ↔
        node.ComesFrom e ∨ ∃ inner ∈ allElements e.children, node.ComesFrom inner := by
      rw [ofElement, within_ofParts_iff hnode, ihchildren, or_left_comm, or_comm]
      simp only [ComesFrom, named_ofNodes, List.length_map, ofElement]
    rw [ofNodes_toNode_cons, Xml.allElements_toNode_cons, List.exists_mem_cons_iff, ihrest,
      List.exists_mem_cons_iff]
    simp only [List.mem_append, or_and_right, exists_or]
    rw [← or_assoc]
    exact or_congr_left hfirst
  | other node' rest hother ih => rw [ofNodes_cons_of_ne hother, Xml.allElements_cons_of_ne hother, ih]

/-- **What stands in the payload of a document is the payload or comes from one of its elements**,
texts aside. -/
theorem within_document_iff (hnode : ∀ s, node ≠ .scalar s) (d : Xml.Document) :
    Within node (.element (ofNodes [d.root.toNode])) ↔
      node = .element [(d.root.name, ofElement d.root)] ∨
        ∃ e ∈ d.allElements, node.ComesFrom e := by
  rw [within_element_iff, within_ofNodes_iff hnode, ofNodes_toNode]
  rfl

end StatementPress.Payload
