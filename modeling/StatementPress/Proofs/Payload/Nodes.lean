import Mathlib
import StatementPress.Payload.OfDocument
import StatementPress.Proofs.AbsolutePath
import StatementPress.Proofs.Payload.Building

/-!
# The payload of a document, node by node

Within the ceiling on nesting the payload of a document is a total function of its nodes
(`ofNodes`): the builder, which is given them one by one, gives the same
(`Builder.finish_addChildren`).  The statements below say what stands under a key of an element:
under the name of a child all children of that name, in document order, and under the key of an
attribute its value.
-/

namespace StatementPress.Payload

open Xml (nesting)

/-- The nodes of the elements among document nodes, with their names. -/
def ofNodes : List Xml.Node → List (String × Payload)
  | [] => []
  | .element name attributes children :: rest =>
    (name, ofParts attributes (ofNodes children) (Text.trim (Xml.directText children))) ::
      ofNodes rest
  | _ :: rest => ofNodes rest

/-- No element becomes a sequence. -/
theorem isSingle_of_mem_ofNodes (nodes : List Xml.Node) :
    ∀ child ∈ ofNodes nodes, child.2.IsSingle := by
  induction nodes with
  | nil =>
    rw [ofNodes]
    exact List.forall_mem_nil _
  | cons n nodes ih =>
    cases n with
    | element name attributes children =>
      rw [ofNodes, List.forall_mem_cons]
      exact ⟨isSingle_ofParts _ _ _, ih⟩
    | text | comment | instruction =>
      rw [ofNodes]
      · exact ih
      · simp

/-- **An element that is built child by child has the node of its parts.** -/
theorem Builder.finish_addChildren (attributes : List (String × String)) (nodes : List Xml.Node)
    (text : String) : ((ofAttributes attributes).addChildren (ofNodes nodes)).finish text =
      ofParts attributes (ofNodes nodes) text := by
  have hstart : (ofAttributes attributes).Holds attributes [] := holds_ofAttributes
  exact (hstart.addChildren (isSingle_of_mem_ofNodes nodes)).finish text

/-- Nodes are added exactly if their nesting stays within the room. -/
theorem Builder.addNodes?_eq (room : Nat) (b : Builder) (nodes : List Xml.Node) :
    b.addNodes? room nodes =
      if nesting nodes ≤ room then some (b.addChildren (ofNodes nodes)) else none := by
  fun_induction addNodes? room b nodes with
  | case1 => simp [nesting, ofNodes, addChildren]
  | case2 b name attributes children rest => simp [nesting]
  | case3 b name attributes children rest room ih₁ ih₂ =>
    rw [ih₁, nesting, ofNodes]
    by_cases hchildren : nesting children ≤ room
    · rw [if_pos hchildren, Option.bind_eq_bind, Option.bind_some]
      dsimp only
      rw [ih₂, finish_addChildren]
      by_cases hrest : nesting rest ≤ room + 1
      · rw [if_pos hrest, if_pos (by omega)]
        rfl
      · rw [if_neg hrest, if_neg (by omega)]
    · have hmax : ¬ max (1 + nesting children) (nesting rest) ≤ room.succ := by omega
      rw [if_neg hchildren, if_neg hmax]
      rfl
  | case4 room b node rest hnode ih =>
    cases node with
    | element name attributes children => exact absurd rfl (hnode name attributes children)
    | text s => rw [ih, nesting, ofNodes] <;> simp
    | comment => rw [ih, nesting, ofNodes] <;> simp
    | instruction => rw [ih, nesting, ofNodes] <;> simp

/-- **A document has a payload exactly if its nesting stays within the room.** -/
theorem ofDocument?_eq (room : Nat) (d : Xml.Document) :
    ofDocument? room d =
      if nesting [d.root.toNode] ≤ room then some (.element (ofNodes [d.root.toNode]))
      else none := by
  have hroot : ofNodes [d.root.toNode] = [(d.root.name, ofParts d.root.attributes
      (ofNodes d.root.children) (Text.trim (Xml.directText d.root.children)))] := by
    rw [Xml.Element.toNode, ofNodes, ofNodes]
  rw [ofDocument?, Builder.addNodes?_eq, hroot]
  split <;> rfl

/-- Reading a payload within ceilings that are high enough. -/
theorem outcome_ofText {text : String} {d : Xml.Document} {limits : Limits}
    (hbytes : Text.byteSize text.toList ≤ limits.maxBytes.toNat)
    (h : Xml.Document.ofText limits.maxNodes.toNat text = .ok d)
    (hdepth : Xml.nesting [d.root.toNode] ≤ limits.maxDepth.toNat) :
    (ofText limits text).outcome = .ok (.element (ofNodes [d.root.toNode])) := by
  unfold ofText
  dsimp only
  rw [if_neg (by omega), Run.outcome_bind, Run.outcome_ofExcept, h, ok_mapError, ok_bind,
    ofDocument?_eq, if_pos hdepth]
  rfl

/-- The payload of a document with nothing in it, within the default ceilings. -/
theorem outcome_ofText_case :
    (ofText {} "<Case/>").outcome = .ok (.element [("Case", .scalar "")]) := by
  have hread : Xml.Document.ofText 1000000 "<Case/>" = .ok ⟨[], ⟨"Case", [], []⟩, []⟩ := by cbv
  have hnodes : ofNodes [.element "Case" [] []] = [("Case", .scalar "")] := by cbv
  have hpayload : (ofText {} "<Case/>").outcome = _ :=
    outcome_ofText (by decide) hread (by simp [Xml.Element.toNode, nesting])
  rwa [Xml.Element.toNode, hnodes] at hpayload

/-- A payload that was read is that of a document, and reading it leaves one record. -/
theorem exists_document_of_ofText {text : String} {limits : Limits} {payload : Payload}
    (h : (ofText limits text).outcome = .ok payload) :
    ∃ d, Xml.Document.ofText limits.maxNodes.toNat text = .ok d ∧
      payload = .element (ofNodes [d.root.toNode]) ∧
      (ofText limits text).log = [⟨.debug, "parsed XML payload: " ++
        Text.decimal (Text.byteSize text.toList) ++ " bytes, root <" ++ d.root.name ++ ">"⟩] := by
  unfold ofText at h ⊢
  dsimp only at h ⊢
  split at h
  · cases h
  · rename_i hbytes
    rw [if_neg hbytes]
    cases hread : Xml.Document.ofText limits.maxNodes.toNat text with
    | error e =>
      rw [hread] at h
      cases h
    | ok d =>
      rw [hread, ok_mapError, Run.ofExcept_ok, pure_bind, ofDocument?_eq] at h
      rw [ok_mapError, Run.ofExcept_ok, pure_bind, ofDocument?_eq]
      by_cases hdepth : nesting [d.root.toNode] ≤ limits.maxDepth.toNat
      · rw [if_pos hdepth] at h ⊢
        cases h
        exact ⟨d, rfl, rfl, rfl⟩
      · rw [if_neg hdepth] at h
        cases h

theorem ofNodes_append (ns ms : List Xml.Node) : ofNodes (ns ++ ms) = ofNodes ns ++ ofNodes ms := by
  induction ns with
  | nil => rw [ofNodes, List.nil_append, List.nil_append]
  | cons n ns ih => cases n <;> simp [ofNodes, ih]

/-! ## Entries -/

theorem lookup_map_keys {β : Type} (names : List String) (f : String → β) (key : String) :
    (names.map fun name => (name, f name)).lookup key =
      if key ∈ names then some (f key) else none := by
  induction names with
  | nil => rfl
  | cons name names ih =>
    rw [List.map_cons, List.lookup_cons, ih]
    by_cases h : key = name
    · simp [h]
    · rw [beq_eq_false_iff_ne.mpr h]
      simp [h]

/-- Under a name stands the node for all children of the name. -/
theorem lookup_group (key : String) (children : List (String × Payload)) :
    (group children).lookup key =
      if key ∈ children.map (·.1) then some (gather (named key children)) else none := by
  rw [group, lookup_map_keys]
  simp only [List.mem_eraseDups]
  rfl

/-- An attribute is found under its key. -/
theorem lookup_attributes {attributes : List (String × String)} {name value : String}
    (h : attributes.lookup name = some value) (rest : List (String × Payload)) :
    (attributeEntries attributes ++ rest).lookup (attributeMark ++ name) =
      some (.scalar value) := by
  induction attributes with
  | nil => cases h
  | cons a attributes ih =>
    rw [attributeEntries, List.map_cons, List.cons_append, List.lookup_cons]
    rw [List.lookup_cons] at h
    by_cases heq : name = a.1
    · simp_all
    · have hkey : attributeMark ++ name ≠ attributeMark ++ a.1 := by simp [heq]
      rw [beq_eq_false_iff_ne.mpr heq] at h
      rw [beq_eq_false_iff_ne.mpr hkey]
      exact ih h

/-- A key of a child is none of an attribute. -/
theorem lookup_attributes_child {key : String} (hkey : isAttributeKey key = false)
    (attributes : List (String × String)) (rest : List (String × Payload)) :
    (attributeEntries attributes ++ rest).lookup key = rest.lookup key := by
  induction attributes with
  | nil => rfl
  | cons a attributes ih =>
    have hne : key ≠ attributeMark ++ a.1 := by
      rintro rfl
      simp [isAttributeKey, attributeMark] at hkey
    rw [attributeEntries, List.map_cons, List.cons_append, List.lookup_cons,
      beq_eq_false_iff_ne.mpr hne]
    exact ih

variable {attributes : List (String × String)} {children : List (String × Payload)} {text : String}

/-- Under any key but that of the text stands what the attributes and children have there. -/
theorem get?_ofParts {key : String} (htext : key ≠ textKey) :
    (ofParts attributes children text).get? key =
      (attributeEntries attributes ++ group children).lookup key := by
  unfold ofParts attributeEntries
  dsimp only
  split
  · rename_i hempty
    rw [List.isEmpty_iff.mp hempty]
    rfl
  · split
    · rfl
    · rw [get?, List.lookup_append, List.lookup_cons, beq_eq_false_iff_ne.mpr htext]
      exact Option.or_none

/-- An attribute is found in the node of its element, whatever else the element has. -/
theorem get?_ofParts_attribute {name value : String} (h : attributes.lookup name = some value) :
    (ofParts attributes children text).get? (attributeMark ++ name) = some (.scalar value) := by
  have htext : attributeMark ++ name ≠ textKey := by
    intro heq
    have hfirst := congrArg (·.toList.head?) heq
    simp [attributeMark, textKey] at hfirst
  rw [get?_ofParts htext, lookup_attributes h]

/-- So are the children of one name. -/
theorem get?_ofParts_child {key : String} (hkey : isAttributeKey key = false)
    (htext : key ≠ textKey) :
    (ofParts attributes children text).get? key = (group children).lookup key := by
  rw [get?_ofParts htext, lookup_attributes_child hkey]

/-! ## Paths -/

/-- Names lead on through the entry under the first of them. -/
theorem lookup_cons_of_isSingle {node : Payload} (h : node.IsSingle) (key : String)
    (rest : List String) :
    node.lookup (key :: rest) = (node.get? key).bind fun inner => inner.lookup rest := by
  rw [lookup, h, Option.bind_some]
  cases node.get? key <;> rfl

theorem lookup_element_cons (entries : List (String × Payload)) (key : String) (rest : List String) :
    (Payload.element entries).lookup (key :: rest) =
      (entries.lookup key).bind fun inner => inner.lookup rest :=
  lookup_cons_of_isSingle (isSingle_element entries) key rest

/-- Names lead through a sequence as they lead through its first node, if that is no sequence. -/
theorem lookup_sequence_cons {item : Payload} (h : item.IsSingle) (items : List Payload) (key : String)
    (rest : List String) :
    (Payload.sequence (item :: items)).lookup (key :: rest) = item.lookup (key :: rest) := by
  rw [lookup_cons_of_isSingle h, lookup, first?, List.head?_cons, Option.bind_some]
  cases item.get? key <;> rfl

/-- Names that lead somewhere lead through an entry of the first node. -/
theorem exists_of_lookup_cons {node found : Payload} {name : String} {names : List String}
    (h : node.lookup (name :: names) = some found) :
    ∃ entries inner, node.first? = some (.element entries) ∧ (name, inner) ∈ entries ∧
      inner.lookup names = some found := by
  rw [lookup] at h
  cases hstep : node.first?.bind (get? name) with
  | none =>
    rw [hstep] at h
    cases h
  | some inner =>
    rw [hstep] at h
    obtain ⟨single, hfirst, hget⟩ := Option.bind_eq_some_iff.mp hstep
    cases single with
    | element entries =>
      obtain ⟨before, after, rfl, -⟩ := List.lookup_eq_some_iff.mp hget
      exact ⟨_, inner, hfirst, List.mem_append_right _ List.mem_cons_self, h⟩
    | _ => cases hget

/-- The nodes that a found node stands for. -/
def items : Option Payload → List Payload
  | some (.sequence items) => items
  | some found => [found]
  | none => []

theorem nodesAt_eq (node : Payload) (path : String) :
    node.nodesAt path = items (node.lookup (Path.parts path)) := by
  unfold nodesAt items
  rfl

/-- Where there are rows there is a node that they are the nodes of. -/
theorem exists_lookup_of_mem_nodesAt {node row : Payload} {path : String}
    (h : row ∈ node.nodesAt path) :
    ∃ found, node.lookup (Path.parts path) = some found ∧ node.nodesAt path = items (some found) := by
  rw [nodesAt_eq] at h ⊢
  cases hfound : node.lookup (Path.parts path) with
  | none =>
    rw [hfound] at h
    cases h
  | some found => exact ⟨found, rfl, rfl⟩

/-- The node for all children of one name stands for just these children. -/
theorem items_gather {nodes : List Payload} (h : ∀ node ∈ nodes, node.IsSingle) (hne : nodes ≠ []) :
    items (some (gather nodes)) = nodes := by
  match nodes with
  | [] => exact absurd rfl hne
  | [node] =>
    have hsingle := (h node List.mem_cons_self).ne_sequence
    cases node with
    | sequence nodes => exact absurd rfl (hsingle nodes)
    | scalar s => rfl
    | element entries => rfl
  | _ :: _ :: _ => rfl

theorem items_of_isSingle {node : Payload} (h : node.IsSingle) : items (some node) = [node] := by
  have hitems : items (some (gather [node])) = [node] :=
    items_gather (List.forall_mem_singleton.mpr h) (List.cons_ne_nil _ _)
  exact hitems

/-- **Under the name of a child stand all children of that name**, in document order. -/
theorem items_get?_ofParts {key : String} (hkey : isAttributeKey key = false) (htext : key ≠ textKey)
    (hsingle : ∀ child ∈ children, child.2.IsSingle) :
    items ((ofParts attributes children text).get? key) = named key children := by
  rw [get?_ofParts_child hkey htext, lookup_group]
  split
  · rename_i h
    exact items_gather (isSingle_of_mem_named hsingle) fun hnil => named_eq_nil_iff.mp hnil h
  · rename_i h
    rw [named_eq_nil_iff.mpr h]
    rfl

end StatementPress.Payload
