import Mathlib
import StatementPress.Proofs.Payload.Siblings

/-!
# Ways down a document

A way down leads from an element to one that stands directly in it, and so on (`IsDescent`).  The
nesting of a document is the length of its longest way down (`nesting_le_iff`).

Names lead down only through the first element of each name, and at the end to any of the last name.
So they lead somewhere exactly if there is a way down of that kind with these names
(`elementsAt_ne_nil_iff`).
-/

namespace StatementPress.Xml

/-! ## The longest way down -/

/-- Whether a list of elements is a way down among nodes: an element that stands there, then one that
stands directly in it, and so on. -/
def IsDescent : List Node → List Element → Prop
  | _, [] => True
  | nodes, e :: rest => e ∈ elements nodes ∧ IsDescent e.children rest

@[simp] theorem elements_toNode_cons (e : Element) (nodes : List Node) :
    elements (e.toNode :: nodes) = e :: elements nodes := by
  rw [Element.toNode, elements]

theorem nesting_toNode_cons (e : Element) (nodes : List Node) :
    nesting (e.toNode :: nodes) = max (1 + nesting e.children) (nesting nodes) := by
  rw [Element.toNode, nesting]

theorem nesting_cons_of_ne {node : Node} (h : ∀ e : Element, node ≠ e.toNode) (rest : List Node) :
    nesting (node :: rest) = nesting rest := by
  cases node with
  | element name attributes children => exact absurd rfl (h ⟨name, attributes, children⟩)
  | _ => simp [nesting]

/-- An element that stands among nodes is nested less deep than they are. -/
theorem nesting_children_lt {nodes : List Node} {e : Element} (he : e ∈ elements nodes) :
    nesting e.children < nesting nodes := by
  induction nodes using nodes_induction with
  | nil => cases he
  | element first rest _ ih =>
    rw [elements_toNode_cons] at he
    rw [nesting_toNode_cons]
    rcases List.mem_cons.mp he with rfl | he
    · omega
    · exact Nat.lt_of_lt_of_le (ih he) (Nat.le_max_right _ _)
  | other node rest hnode ih =>
    rw [elements_cons_of_ne hnode] at he
    rw [nesting_cons_of_ne hnode]
    exact ih he

/-- No way down is longer than the nesting. -/
theorem length_le_nesting {nodes : List Node} {way : List Element} (h : IsDescent nodes way) :
    way.length ≤ nesting nodes := by
  induction way generalizing nodes with
  | nil => exact Nat.zero_le _
  | cons e rest ih =>
    obtain ⟨he, hrest⟩ := h
    have hlength := ih hrest
    have hlt := nesting_children_lt he
    rw [List.length_cons]
    omega

/-- Ways down lead as well from where more elements stand. -/
theorem IsDescent.mono {nodes nodes' : List Node} {way : List Element} (h : IsDescent nodes way)
    (hsub : elements nodes ⊆ elements nodes') : IsDescent nodes' way := by
  cases way with
  | nil => trivial
  | cons e rest => exact ⟨hsub h.1, h.2⟩

theorem isDescent_cons_of_ne {node : Node} (h : ∀ e : Element, node ≠ e.toNode) {rest : List Node}
    {way : List Element} : IsDescent (node :: rest) way ↔ IsDescent rest way := by
  have hsame := elements_cons_of_ne h rest
  constructor
  · exact fun hway => hway.mono (hsame ▸ List.Subset.refl _)
  · exact fun hway => hway.mono (hsame ▸ List.Subset.refl _)

/-- The elements of a way down stand among the nodes or inside them. -/
theorem IsDescent.mem_allElements {nodes : List Node} {way : List Element} (h : IsDescent nodes way) :
    ∀ e ∈ way, e ∈ allElements nodes := by
  induction way generalizing nodes with
  | nil => exact List.forall_mem_nil _
  | cons e rest ih =>
    obtain ⟨he, hrest⟩ := h
    have he' := mem_allElements_of_mem_elements he
    refine List.forall_mem_cons.mpr ⟨he', fun inner hinner => ?_⟩
    exact mem_allElements_trans he' (ih hrest inner hinner)

/-- There is a way down as long as the nesting. -/
theorem exists_descent (nodes : List Node) :
    ∃ way, IsDescent nodes way ∧ way.length = nesting nodes := by
  induction nodes using nodes_induction with
  | nil => exact ⟨[], trivial, by rw [nesting, List.length_nil]⟩
  | element e rest ihchildren ihrest =>
    rw [nesting_toNode_cons]
    -- the longer one of the ways through the element and past it
    rcases Nat.le_total (nesting rest) (1 + nesting e.children) with hle | hle
    · obtain ⟨way, hway, hlength⟩ := ihchildren
      refine ⟨e :: way, ⟨by simp, hway⟩, ?_⟩
      rw [List.length_cons, hlength, Nat.max_eq_left hle, Nat.add_comm]
    · obtain ⟨way, hway, hlength⟩ := ihrest
      refine ⟨way, hway.mono (by simp), ?_⟩
      rw [hlength, Nat.max_eq_right hle]
  | other node rest hnode ih =>
    rw [nesting_cons_of_ne hnode]
    simp only [isDescent_cons_of_ne hnode]
    exact ih

/-- **The nesting is that of the deepest way down.** -/
theorem nesting_le_iff {nodes : List Node} {room : Nat} :
    nesting nodes ≤ room ↔ ∀ way, IsDescent nodes way → way.length ≤ room := by
  constructor
  · intro h way hway
    exact Nat.le_trans (length_le_nesting hway) h
  · intro h
    obtain ⟨way, hway, hlength⟩ := exists_descent nodes
    rw [← hlength]
    exact h way hway

/-- Elements are nested deeper than some room exactly if a way down is longer. -/
theorem lt_nesting_iff {nodes : List Node} {room : Nat} :
    room < nesting nodes ↔ ∃ way, IsDescent nodes way ∧ room < way.length := by
  rw [← Nat.not_le, nesting_le_iff]
  simp only [not_forall, Nat.not_le, exists_prop]

/-! ## Ways that names lead -/

/-- Whether a way down goes through the first element of each name, apart from where it ends. -/
def IsFirstDescent : List Node → List Element → Prop
  | _, [] => True
  | nodes, [e] => e ∈ elements nodes
  | nodes, e :: next :: rest =>
    (elementsNamed e.name nodes).head? = some e ∧ IsFirstDescent e.children (next :: rest)

/-- The elements of a name are those with the name. -/
theorem mem_elementsNamed_iff {name : String} {nodes : List Node} {e : Element} :
    e ∈ elementsNamed name nodes ↔ e ∈ elements nodes ∧ e.name = name := by
  rw [elementsNamed, List.mem_filter, beq_iff_eq]

/-- A way down by first elements is a way down. -/
theorem IsFirstDescent.isDescent {nodes : List Node} {way : List Element}
    (h : IsFirstDescent nodes way) : IsDescent nodes way := by
  induction way generalizing nodes with
  | nil => trivial
  | cons e rest ih =>
    cases rest with
    | nil => exact ⟨h, trivial⟩
    | cons next rest =>
      obtain ⟨hfirst, hrest⟩ := h
      exact ⟨(mem_elementsNamed_iff.mp (List.mem_of_head? hfirst)).1, ih hrest⟩

/-- **Names lead to an element exactly if there is a way down with these names** that goes through the
first element of each, apart from the last. -/
theorem elementsAt_ne_nil_iff {names : List String} {nodes : List Node} (hne : names ≠ []) :
    elementsAt names nodes ≠ [] ↔
      ∃ way, IsFirstDescent nodes way ∧ way.map (·.name) = names := by
  fun_induction elementsAt names nodes with
  | case1 => exact absurd rfl hne
  | case2 last nodes =>
    constructor
    · intro h
      obtain ⟨e, he⟩ := List.exists_mem_of_ne_nil _ h
      obtain ⟨he, hname⟩ := mem_elementsNamed_iff.mp he
      exact ⟨[e], he, by rw [List.map_singleton, hname]⟩
    · rintro ⟨way, hway, hnames⟩
      obtain ⟨e, rfl, hname⟩ := List.map_eq_singleton_iff.mp hnames
      exact List.ne_nil_of_mem (mem_elementsNamed_iff.mpr ⟨hway, hname⟩)
  | case3 name next rest nodes e hfirst ih =>
    rw [ih (List.cons_ne_nil _ _)]
    have hname : e.name = name := (mem_elementsNamed_iff.mp (List.mem_of_head? hfirst)).2
    constructor
    · rintro ⟨way, hway, hnames⟩
      obtain ⟨e', way', rfl, -, -⟩ := List.map_eq_cons_iff.mp hnames
      refine ⟨e :: e' :: way', ⟨by rwa [hname], hway⟩, ?_⟩
      rw [List.map_cons, hnames, hname]
    · rintro ⟨way, hway, hnames⟩
      obtain ⟨e', way', rfl, hname', hnames'⟩ := List.map_eq_cons_iff.mp hnames
      obtain ⟨e'', way'', rfl, -, -⟩ := List.map_eq_cons_iff.mp hnames'
      obtain ⟨hfirst', hway⟩ := hway
      rw [hname', hfirst, Option.some.injEq] at hfirst'
      rw [hfirst']
      exact ⟨_, hway, hnames'⟩
  | case4 name next rest nodes hnone =>
    constructor
    · intro h
      exact absurd rfl h
    · rintro ⟨way, hway, hnames⟩
      obtain ⟨e', way', rfl, hname', hnames'⟩ := List.map_eq_cons_iff.mp hnames
      obtain ⟨e'', way'', rfl, -, -⟩ := List.map_eq_cons_iff.mp hnames'
      have hfirst' := hway.1
      rw [hname', hnone] at hfirst'
      cases hfirst'

end StatementPress.Xml
