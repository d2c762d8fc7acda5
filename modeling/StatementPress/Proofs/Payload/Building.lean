import Mathlib.Data.List.Basic
import StatementPress.Payload.Builder

/-!
# What building an element comes to

The builder adds children one by one and changes an entry when a name comes up again.  What it
comes to is said in one go by `ofParts`: the entries for the attributes, and then an entry for each
name, with all children of that name (`group`).  The builder keeps an invariant (`Builder.Holds`):
its entries are those, and its index says where the entry for each name stands.  Every child that is
added keeps the invariant (`Builder.Holds.addChild`), provided that the children before it are no
sequences; the node of an element never is one.
-/

namespace StatementPress.Payload

/-! ## Elements in one go -/

/-- The node for all children of one name. -/
def gather : List Payload → Payload
  | [node] => node
  | nodes => .sequence nodes

/-- The entries for children: one for each name, in the order in which the names first come up. -/
def group (children : List (String × Payload)) : List (String × Payload) :=
  (children.map (·.1)).eraseDups.map fun name =>
    (name, gather ((children.filter (·.1 == name)).map (·.2)))

/-- The node of an element with given attributes, children and text. -/
def ofParts (attributes : List (String × String)) (children : List (String × Payload))
    (text : String) : Payload :=
  let entries := attributes.map (fun a => (attributeMark ++ a.1, .scalar a.2)) ++ group children
  if entries.isEmpty then .scalar text
  else if text.isEmpty then .element entries
  else .element (entries ++ [(textKey, .scalar text)])

/-- The entries for attributes. -/
def attributeEntries (attributes : List (String × String)) : List (String × Payload) :=
  attributes.map fun a => (attributeMark ++ a.1, .scalar a.2)

/-- The children of one name. -/
def named (name : String) (children : List (String × Payload)) : List Payload :=
  (children.filter (·.1 == name)).map (·.2)

/-! ## Single nodes -/

/-- A node that is not a sequence. -/
def IsSingle (node : Payload) : Prop := node.first? = some node

theorem isSingle_element (entries : List (String × Payload)) :
    (Payload.element entries).IsSingle :=
  rfl

theorem isSingle_of_ne_sequence {node : Payload} (h : ∀ items, node ≠ .sequence items) :
    node.IsSingle := by
  cases node with
  | sequence items => exact absurd rfl (h items)
  | _ => rfl

/-- A sequence is no single node, not even one of a single item. -/
theorem IsSingle.ne_sequence {node : Payload} (h : node.IsSingle) (items : List Payload) :
    node ≠ .sequence items := by
  rintro rfl
  cases items <;> cases h

/-- The node of an element is no sequence. -/
theorem isSingle_ofParts (attributes : List (String × String)) (children : List (String × Payload))
    (text : String) : (ofParts attributes children text).IsSingle := by
  unfold ofParts
  dsimp only
  split
  · rfl
  · split <;> rfl

/-! ## Groups -/

variable {name : String} {node : Payload} {attributes : List (String × String)}
  {children more : List (String × Payload)}

theorem named_append : named name (children ++ more) = named name children ++ named name more := by
  rw [named, List.filter_append, List.map_append]
  rfl

/-- There are no children of a name exactly if it has not come up. -/
theorem named_eq_nil_iff : named name children = [] ↔ name ∉ children.map (·.1) := by
  rw [named, List.map_eq_nil_iff, List.filter_eq_nil_iff, List.mem_map, not_exists]
  refine forall_congr' fun child => ?_
  rw [beq_iff_eq, not_and]

/-- Each element of a list once. -/
theorem nodup_eraseDups {α : Type} [BEq α] [LawfulBEq α] (l : List α) : l.eraseDups.Nodup := by
  match l with
  | [] => simp
  | a :: l =>
    rw [List.eraseDups_cons, List.nodup_cons, List.mem_eraseDups]
    exact ⟨by simp, nodup_eraseDups _⟩
termination_by l.length
decreasing_by
  have := List.length_filter_le (fun b => !b == a) l
  simp only [List.length_cons]
  omega

/-- The keys for children are their names, each once. -/
theorem keys_group : (group children).map (·.1) = (children.map (·.1)).eraseDups := by
  rw [group, List.map_map]
  exact List.map_id _

theorem group_eq (children : List (String × Payload)) :
    group children = ((group children).map (·.1)).map fun name =>
      (name, gather (named name children)) := by
  rw [keys_group]
  rfl

theorem mem_keys_group : name ∈ (group children).map (·.1) ↔ name ∈ children.map (·.1) := by
  rw [keys_group, List.mem_eraseDups]

theorem isSingle_of_mem_named (h : ∀ child ∈ children, child.2.IsSingle) :
    ∀ node ∈ named name children, node.IsSingle := by
  intro node hnode
  obtain ⟨child, hchild, rfl⟩ := List.mem_map.mp hnode
  exact h child (List.mem_filter.mp hchild).1

/-- One more node of a name joins those before it. -/
theorem gather_append {nodes : List Payload} (h : ∀ node ∈ nodes, node.IsSingle) (hne : nodes ≠ [])
    (node : Payload) : gather (nodes ++ [node]) = (gather nodes).followedBy node := by
  match nodes with
  | [] => exact absurd rfl hne
  | [single] =>
    have hsingle := (h single List.mem_cons_self).ne_sequence
    cases single with
    | sequence items => exact absurd rfl (hsingle items)
    | _ => rfl
  | _ :: _ :: _ => rfl

/-- Changing the only entry under a name. -/
theorem modify_map_idxOf {names : List String} (hnodup : names.Nodup) (hmem : name ∈ names)
    (value value' : String → Payload) (change : Payload → Payload)
    (hname : value' name = change (value name))
    (hothers : ∀ other ≠ name, value' other = value other) :
    (names.map fun n => (n, value n)).modify (names.idxOf name) (fun e => (e.1, change e.2)) =
      names.map fun n => (n, value' n) := by
  induction names with
  | nil => cases hmem
  | cons first names ih =>
    obtain ⟨hfirst, hnodup⟩ := List.nodup_cons.mp hnodup
    by_cases heq : first = name
    · subst heq
      have hrest : ∀ n ∈ names, (n, value n) = (n, value' n) := by
        intro n hn
        have hne : n ≠ first := fun heq => hfirst (heq ▸ hn)
        rw [hothers n hne]
      rw [List.idxOf_cons_self, List.map_cons, List.modify_zero_cons, List.map_cons, hname,
        List.map_congr_left hrest]
    · have hrest := (List.mem_cons.mp hmem).resolve_left (Ne.symm heq)
      rw [List.idxOf_cons_ne _ heq, List.map_cons, List.modify_succ_cons, ih hnodup hrest,
        List.map_cons, hothers first heq]

/-- The keys stay as they are when a name comes up again. -/
theorem keys_group_append_again (h : name ∈ children.map (·.1)) (node : Payload) :
    (group (children ++ [(name, node)])).map (·.1) = (group children).map (·.1) := by
  rw [keys_group, keys_group, List.map_append, List.eraseDups_append]
  simp [List.removeAll, h]

/-- A name that comes up for the first time is the last of the keys. -/
theorem keys_group_append_new (h : name ∉ children.map (·.1)) (node : Payload) :
    (group (children ++ [(name, node)])).map (·.1) = (group children).map (·.1) ++ [name] := by
  rw [keys_group, keys_group, List.map_append, List.eraseDups_append]
  simp [List.removeAll, h, List.eraseDups_cons]

/-- The nodes of other names stay as they are. -/
theorem named_append_of_ne {other : String} (h : name ≠ other) (node : Payload) :
    named other (children ++ [(name, node)]) = named other children := by
  rw [named_append]
  simp [named, h]

theorem named_append_self :
    named name (children ++ [(name, node)]) = named name children ++ [node] := by
  rw [named_append]
  simp [named]

/-- A child whose name has come up joins the entry for the name. -/
theorem group_append_again (hsingle : ∀ child ∈ children, child.2.IsSingle)
    (h : name ∈ children.map (·.1)) (node : Payload) : group (children ++ [(name, node)]) =
      (group children).modify (((group children).map (·.1)).idxOf name)
        fun e => (e.1, e.2.followedBy node) := by
  have hkeys := keys_group_append_again h node
  have hne : named name children ≠ [] := fun hnil => named_eq_nil_iff.mp hnil h
  have hmem : name ∈ (group children).map (·.1) := mem_keys_group.mpr h
  have hnodup : ((group children).map (·.1)).Nodup := keys_group ▸ nodup_eraseDups _
  rw [group_eq (children ++ [(name, node)]), hkeys]
  nth_rewrite 2 [group_eq children]
  refine (modify_map_idxOf hnodup hmem (fun name => gather (named name children)) _
    (·.followedBy node) ?_ ?_).symm
  · rw [named_append_self, gather_append (isSingle_of_mem_named hsingle) hne]
  · intro other hother
    rw [named_append_of_ne hother.symm]

/-- A child whose name has not come up gets an entry of its own. -/
theorem group_append_new (h : name ∉ children.map (·.1)) (node : Payload) :
    group (children ++ [(name, node)]) = group children ++ [(name, node)] := by
  have hothers : ∀ other ∈ (group children).map (·.1),
      (other, gather (named other (children ++ [(name, node)]))) =
        (other, gather (named other children)) := by
    intro other hother
    have hne : name ≠ other := by
      rintro rfl
      exact h (mem_keys_group.mp hother)
    rw [named_append_of_ne hne]
  rw [group_eq, keys_group_append_new h, List.map_append, List.map_congr_left hothers, ← group_eq,
    List.map_singleton, named_append_self, named_eq_nil_iff.mpr h]
  rfl

/-! ## The builder -/

namespace Builder

variable {b : Builder}

/-- **What a builder holds** after some attributes and children: their entries, and an index of
those for children. -/
structure Holds (b : Builder) (attributes : List (String × String))
    (children : List (String × Payload)) : Prop where
  entries : b.entries = attributeEntries attributes ++ group children
  index : ∀ name, b.index.lookup name =
    if name ∈ (group children).map (·.1) then
      some (attributes.length + ((group children).map (·.1)).idxOf name)
    else none

/-- A new builder holds nothing. -/
theorem holds_empty : Holds {} [] [] := ⟨rfl, fun _ => rfl⟩

/-- Attributes that are added before all children are held. -/
theorem Holds.addAttribute (h : b.Holds attributes []) (name value : String) :
    (b.addAttribute name value).Holds (attributes ++ [(name, value)]) [] where
  entries := by
    rw [Builder.addAttribute, h.entries, attributeEntries, attributeEntries, List.map_append]
    simp [group]
  index := h.index

/-- **A child that is added is held**, in the entry for its name or in a new one. -/
theorem Holds.addChild (h : b.Holds attributes children)
    (hsingle : ∀ child ∈ children, child.2.IsSingle) (name : String) (node : Payload) :
    (b.addChild name node).Holds attributes (children ++ [(name, node)]) := by
  have hlength : (attributeEntries attributes).length = attributes.length := List.length_map _
  have hindex := h.index name
  by_cases hname : name ∈ (group children).map (·.1)
  · have hmem := mem_keys_group.mp hname
    rw [if_pos hname] at hindex
    constructor
    · rw [Builder.addChild, hindex, group_append_again hsingle hmem, ← hlength]
      dsimp only
      rw [h.entries]
      exact List.modifyTailIdx_add _ _ _ _
    · -- all entries stay where they are
      intro other
      rw [Builder.addChild, hindex, keys_group_append_again hmem]
      exact h.index other
  · have hnew := fun hmem => hname (mem_keys_group.mpr hmem)
    rw [if_neg hname] at hindex
    constructor
    · rw [Builder.addChild, hindex, group_append_new hnew, ← List.append_assoc, ← h.entries]
    · intro other
      have hplace : b.entries.length = attributes.length + ((group children).map (·.1)).length := by
        rw [h.entries, List.length_append, hlength, List.length_map]
      rw [Builder.addChild, hindex, keys_group_append_new hnew]
      dsimp only
      rw [List.lookup_cons, List.idxOf_append]
      by_cases hother : other = name
      · subst hother
        simp [hplace, hname]
      · rw [beq_eq_false_iff_ne.mpr hother, h.index other]
        by_cases hmem : other ∈ (group children).map (·.1)
        · rw [if_pos hmem, if_pos (List.mem_append_left _ hmem), if_pos hmem]
        · have hnone : other ∉ (group children).map (·.1) ++ [name] := by
            rw [List.mem_append, List.mem_singleton, not_or]
            exact ⟨hmem, hother⟩
          rw [if_neg hmem, if_neg hnone]

/-- Adds children one after the other. -/
def addChildren (b : Builder) (children : List (String × Payload)) : Builder :=
  children.foldl (fun b child => b.addChild child.1 child.2) b

/-- **All children that are added are held.** -/
theorem Holds.addChildren (h : b.Holds attributes children)
    (hsingle : ∀ child ∈ children ++ more, child.2.IsSingle) :
    (b.addChildren more).Holds attributes (children ++ more) := by
  induction more generalizing b children with
  | nil => rwa [List.append_nil]
  | cons child more ih =>
    have hfirst := h.addChild (fun child hchild => hsingle child (List.mem_append_left _ hchild))
      child.1 child.2
    rw [← List.singleton_append, ← List.append_assoc] at hsingle ⊢
    exact ih hfirst hsingle

/-- Attributes that are added one after the other are held. -/
theorem holds_foldl_addAttribute {before : List (String × String)} (h : b.Holds before []) :
    (attributes.foldl (fun b a => b.addAttribute a.1 a.2) b).Holds (before ++ attributes) [] := by
  induction attributes generalizing b before with
  | nil => rwa [List.append_nil]
  | cons a attributes ih =>
    rw [← List.singleton_append, ← List.append_assoc]
    exact ih (h.addAttribute a.1 a.2)

/-- The start of an element holds its attributes. -/
theorem holds_ofAttributes : (ofAttributes attributes).Holds attributes [] :=
  holds_foldl_addAttribute holds_empty

/-- **The builder gives the node of the element.** -/
theorem Holds.finish (h : b.Holds attributes children) (text : String) :
    b.finish text = ofParts attributes children text := by
  rw [Builder.finish, h.entries]
  rfl

end Builder

end StatementPress.Payload
