import Mathlib
import StatementPress.Proofs.OfferedPaths
import StatementPress.Proofs.PathResolution
import StatementPress.Proofs.Shadowing
import StatementPress.Proofs.Xml.Ways

/-!
# Where leaf paths lead

A leaf path stands for all elements that have its names, whichever of their neighbours they go through:
it is offered if any of them holds a text (`mem_leafPaths_iff_descent`).  A path that is resolved goes
through the first element of each name.  So a path that is offered leads somewhere exactly if there are
elements with its names that can be come to in this way.  A path to a text that only later rows have
leads nowhere from the top, and is meant for a table over the rows.
-/

namespace StatementPress

open StatementPress.Path

/-! ## Texts of elements -/

/-- Whether an element holds a text: it has text of its own, or nothing else that it could stand
for. -/
def Xml.Element.HoldsText (e : Xml.Element) : Prop :=
  e.ownText ≠ "" ∨ e.attributes = [] ∧ Xml.elements e.children = []

namespace Payload

open Xml (Element elements elementsAt IsDescent IsFirstDescent)

variable {path q : String}

theorem mem_leaves_element_iff {entries : List (String × Payload)} :
    q ∈ leaves path (.element entries) ↔
      ∃ e ∈ entries, isAttributeKey e.1 = false ∧ q ∈ leaves (entryPath path e.1) e.2 := by
  rw [← ahead_visible, ahead, List.mem_flatMap]
  constructor
  · rintro ⟨_, hvisible, hq⟩
    obtain ⟨e, he, rfl⟩ := List.mem_map.mp hvisible
    obtain ⟨he, hkey⟩ := List.mem_filter.mp he
    exact ⟨e, he, by simpa using hkey, hq⟩
  · rintro ⟨e, he, hkey, hq⟩
    exact ⟨_, List.mem_map_of_mem (List.mem_filter.mpr ⟨he, by simp [hkey]⟩), hq⟩

theorem mem_leaves_gather_iff {nodes : List Payload} (hne : nodes ≠ []) :
    q ∈ leaves path (gather nodes) ↔ ∃ node ∈ nodes, q ∈ leaves path node := by
  rcases gather_cases hne with ⟨single, rfl, hgather⟩ | ⟨-, hgather⟩
  · rw [hgather]
    simp
  · rw [hgather, ← ahead_beside, ahead, beside, List.flatMap_map, List.mem_flatMap]

/-- The leaves of entries for children are those of the children, each at its name. -/
theorem exists_mem_group_iff {children : List (String × Payload)}
    (hkeys : ∀ child ∈ children, IsChildKey child.1) :
    (∃ e ∈ group children, isAttributeKey e.1 = false ∧ q ∈ leaves (entryPath path e.1) e.2) ↔
      ∃ child ∈ children, q ∈ leaves (path ++ "/" ++ child.1) child.2 := by
  have hpath : ∀ child ∈ children, entryPath path child.1 = path ++ "/" ++ child.1 :=
    fun child hchild => if_neg (hkeys child hchild).2
  constructor
  · rintro ⟨e, he, -, hq⟩
    obtain ⟨hname, hnode⟩ := mem_group_iff.mp he
    rw [hnode, mem_leaves_gather_iff fun hnil => named_eq_nil_iff.mp hnil hname] at hq
    obtain ⟨node, hnode, hq⟩ := hq
    obtain ⟨child, hchild, rfl⟩ := List.mem_map.mp hnode
    obtain ⟨hchild, hsame⟩ := List.mem_filter.mp hchild
    rw [← beq_iff_eq.mp hsame, hpath child hchild] at hq
    exact ⟨child, hchild, hq⟩
  · rintro ⟨child, hchild, hq⟩
    have hname : child.1 ∈ children.map (·.1) := List.mem_map_of_mem hchild
    have hmem : child.2 ∈ named child.1 children :=
      List.mem_map_of_mem (List.mem_filter.mpr ⟨hchild, beq_self_eq_true _⟩)
    have hentry : (child.1, gather (named child.1 children)) ∈ group children :=
      mem_group_iff.mpr ⟨hname, rfl⟩
    refine ⟨_, hentry, (hkeys child hchild).1, ?_⟩
    rw [hpath child hchild, mem_leaves_gather_iff (List.ne_nil_of_mem hmem)]
    exact ⟨child.2, hmem, hq⟩

theorem group_eq_nil_iff {children : List (String × Payload)} :
    group children = [] ↔ children = [] := by
  constructor
  · intro h
    refine List.eq_nil_iff_forall_not_mem.mpr fun child hchild => ?_
    have hentry : (child.1, gather (named child.1 children)) ∈ group children :=
      mem_group_iff.mpr ⟨List.mem_map_of_mem (f := (·.1)) hchild, rfl⟩
    rw [h] at hentry
    cases hentry
  · rintro rfl
    rfl

/-- The leaf of the entry for a text, if there is one. -/
theorem exists_mem_textEntries_iff {text : String} :
    (∃ e ∈ textEntries text, isAttributeKey e.1 = false ∧ q ∈ leaves (entryPath path e.1) e.2) ↔
      text ≠ "" ∧ q = path := by
  have hpath : entryPath path textKey = path := if_pos rfl
  have hkey : isAttributeKey textKey = false := by decide
  unfold textEntries
  by_cases hempty : text = ""
  · simp [hempty]
  · rw [if_neg (by simpa using hempty)]
    simp [hempty, hpath, hkey, leaves]

/-- **The leaves of an element** are its own path, if it holds a text, and the leaves of its
children. -/
theorem mem_leaves_ofElement_iff {e : Element}
    (hkeys : ∀ child ∈ ofNodes e.children, IsChildKey child.1) :
    q ∈ leaves path (ofElement e) ↔
      (e.HoldsText ∧ q = path) ∨
        ∃ child ∈ elements e.children, q ∈ leaves (path ++ "/" ++ child.name) (ofElement child) := by
  have hchildren : (∃ child ∈ ofNodes e.children, q ∈ leaves (path ++ "/" ++ child.1) child.2) ↔
      ∃ child ∈ elements e.children,
        q ∈ leaves (path ++ "/" ++ child.name) (ofElement child) := by
    rw [ofNodes_eq_map]
    simp
  have hempty : attributeEntries e.attributes ++ group (ofNodes e.children) = [] ↔
      e.attributes = [] ∧ elements e.children = [] := by
    rw [List.append_eq_nil_iff, group_eq_nil_iff, ofNodes_eq_map, attributeEntries,
      List.map_eq_nil_iff, List.map_eq_nil_iff]
  rw [ofElement, ofParts_eq, ← Element.ownText]
  by_cases hnothing : e.attributes = [] ∧ elements e.children = []
  · have hholds : e.HoldsText := .inr hnothing
    rw [if_pos (hempty.mpr hnothing), leaves, hnothing.2]
    simp [hholds]
  · have hholds : e.HoldsText ↔ e.ownText ≠ "" := or_iff_left hnothing
    have hattributes : ¬ ∃ a ∈ attributeEntries e.attributes,
        isAttributeKey a.1 = false ∧ q ∈ leaves (entryPath path a.1) a.2 := by
      rintro ⟨a, ha, hkey, -⟩
      rw [isAttributeKey_of_mem_attributeEntries a ha] at hkey
      cases hkey
    rw [if_neg (mt hempty.mp hnothing), mem_leaves_element_iff, hholds,
      ← exists_mem_textEntries_iff, ← hchildren, ← exists_mem_group_iff hkeys]
    simp only [List.mem_append, or_and_right, exists_or, hattributes, false_or]
    exact or_comm

/-! ## Leaf paths by ways down -/

/-- **The leaves of elements among nodes** are the paths of ways down to an element that holds a
text. -/
theorem mem_leaves_iff_descent {nodes : List Xml.Node}
    (hnames : ∀ e ∈ Xml.allElements nodes, e.HasLocalNames) :
    (∃ e ∈ elements nodes, q ∈ leaves (path ++ "/" ++ e.name) (ofElement e)) ↔
      ∃ way e, IsDescent nodes way ∧ way.getLast? = some e ∧ e.HoldsText ∧
        q = extend path (way.map (·.name)) := by
  induction nodes using Xml.nodes_induction generalizing path with
  | nil =>
    constructor
    · rintro ⟨e, he, -⟩
      cases he
    · rintro ⟨way, e, hway, hlast, -, -⟩
      cases way with
      | nil => cases hlast
      | cons first rest => cases hway.1
  | element first rest ihchildren ihrest =>
    rw [Xml.allElements_toNode_cons, List.forall_mem_cons, List.forall_mem_append] at hnames
    obtain ⟨-, hchildren, hrest⟩ := hnames
    have hkeys : ∀ child ∈ ofNodes first.children, IsChildKey child.1 :=
      isChildKey_of_mem_ofNodes fun e he => hchildren e (Xml.mem_allElements_of_mem_elements he)
    rw [Xml.elements_toNode_cons]
    constructor
    · rintro ⟨e, he, hq⟩
      rcases List.mem_cons.mp he with rfl | he
      · rcases (mem_leaves_ofElement_iff hkeys).mp hq with ⟨hholds, rfl⟩ | hinner
        · exact ⟨[e], e, ⟨by simp, trivial⟩, rfl, hholds, rfl⟩
        · obtain ⟨way, last, hway, hlast, hholds, rfl⟩ := (ihchildren hchildren).mp hinner
          refine ⟨e :: way, last, ⟨by simp, hway⟩, ?_, hholds, rfl⟩
          rw [List.getLast?_cons, hlast]
          rfl
      · obtain ⟨way, last, hway, hlast, hholds, hpath⟩ := (ihrest hrest).mp ⟨e, he, hq⟩
        exact ⟨way, last, hway.mono (by simp), hlast, hholds, hpath⟩
    · rintro ⟨way, last, hway, hlast, hholds, rfl⟩
      cases way with
      | nil => cases hlast
      | cons e way =>
        obtain ⟨he, hway⟩ := hway
        rw [Xml.elements_toNode_cons] at he
        rcases List.mem_cons.mp he with rfl | he
        · refine ⟨e, List.mem_cons_self, (mem_leaves_ofElement_iff hkeys).mpr ?_⟩
          cases way with
          | nil =>
            cases hlast
            exact .inl ⟨hholds, rfl⟩
          | cons next way =>
            rw [List.getLast?_cons_cons] at hlast
            exact .inr ((ihchildren hchildren).mpr ⟨_, last, hway, hlast, hholds, rfl⟩)
        · have hlater : IsDescent rest (e :: way) := ⟨he, hway⟩
          obtain ⟨e', he', hq⟩ := (ihrest hrest).mpr ⟨_, last, hlater, hlast, hholds, rfl⟩
          exact ⟨e', List.mem_cons_of_mem _ he', hq⟩
  | other node rest hnode ih =>
    rw [Xml.allElements_cons_of_ne hnode] at hnames
    rw [Xml.elements_cons_of_ne hnode, ih hnames]
    simp only [Xml.isDescent_cons_of_ne hnode]

variable {d : Xml.Document}

/-- **The leaf paths of a document's payload** are the paths of ways down to elements that hold
texts. -/
theorem mem_leafPaths_iff_descent (hnames : d.HasLocalNames) :
    path ∈ (Payload.element (ofNodes [d.root.toNode])).leafPaths ↔
      ∃ way e, IsDescent [d.root.toNode] way ∧ way.getLast? = some e ∧ e.HoldsText ∧
        path = ofSegments (way.map (·.name)) := by
  have hroot : IsChildKey d.root.name :=
    isChildKey_of_startsAsName (hnames _ d.root_mem_allElements).name.starts
  have hleaves : path ∈ leaves "" (.element (ofNodes [d.root.toNode])) ↔
      ∃ e ∈ elements [d.root.toNode], path ∈ leaves ("" ++ "/" ++ e.name) (ofElement e) := by
    have hpath : entryPath "" d.root.name = "" ++ "/" ++ d.root.name := if_neg hroot.2
    rw [mem_leaves_element_iff, ofNodes_toNode, Xml.elements_toNode_cons]
    simp [hroot.1, hpath, elements]
  rw [mem_leafPaths_iff, hleaves, mem_leaves_iff_descent hnames]
  have hway : ∀ {way : List Element} {e}, way.getLast? = some e →
      ofSegments (way.map (·.name)) = extend "" (way.map (·.name)) := by
    intro way e hlast
    refine ofSegments_eq_extend fun hnil => ?_
    rw [List.map_eq_nil_iff.mp hnil] at hlast
    cases hlast
  constructor
  · rintro ⟨-, way, e, hdescent, hlast, hholds, hpath⟩
    exact ⟨way, e, hdescent, hlast, hholds, hpath.trans (hway hlast).symm⟩
  · rintro ⟨way, e, hdescent, hlast, hholds, rfl⟩
    refine ⟨fun hempty => ?_, way, e, hdescent, hlast, hholds, hway hlast⟩
    have habsolute := isAbsolute_ofSegments (way.map (·.name))
    rw [hempty] at habsolute
    cases habsolute

/-! ## Resolving leaf paths -/

theorem parts_ofSegments_descent (hnames : d.HasLocalNames) {way : List Element}
    (hway : IsDescent [d.root.toNode] way) :
    parts (ofSegments (way.map (·.name))) = way.map (·.name) :=
  parts_ofSegments <| List.forall_mem_map.mpr fun e he =>
    isSegment_of_isLocalName (hnames e (hway.mem_allElements e he)).name

/-- **What a path of element names leads to in a document's payload.** -/
theorem resolveAll_ofSegments (hnames : d.HasLocalNames) {way : List Element}
    (hway : IsDescent [d.root.toNode] way) (hne : way ≠ []) :
    (Payload.element (ofNodes [d.root.toNode])).resolveAll (ofSegments (way.map (·.name))) =
      .ok ((elementsAt (way.map (·.name)) [d.root.toNode]).map ofElement) := by
  rw [resolveAll_of_isAbsolute (isAbsolute_ofSegments _), nodesAt_eq,
    parts_ofSegments_descent hnames hway, element_ofNodes_singleton,
    items_lookup_ofParts (mt List.map_eq_nil_iff.mp hne)]
  exact List.forall_mem_map.mpr fun e he =>
    isChildKey_of_startsAsName (hnames e (hway.mem_allElements e he)).name.starts

/-- **Which paths are offered, and which of them lead somewhere.**  A path is offered exactly if it has
the names of a way down the document to an element that holds a text.  It leads somewhere exactly if
there is a way down with the same names that goes through the first element of each name, apart from
the last. -/
theorem offered_path_leads_iff {limits : Limits} {text : String} {payload : Payload}
    (h : (ofText limits text).outcome = .ok payload) :
    ∃ d, Xml.Document.ofText limits.maxNodes.toNat text = .ok d ∧
      (∀ path, path ∈ payload.leafPaths ↔
        ∃ way e, IsDescent [d.root.toNode] way ∧ way.getLast? = some e ∧ e.HoldsText ∧
          path = ofSegments (way.map (·.name))) ∧
      ∀ path ∈ payload.leafPaths, ∃ found, payload.resolveAll path = .ok found ∧
        (found ≠ [] ↔
          ∃ way, IsFirstDescent [d.root.toNode] way ∧ path = ofSegments (way.map (·.name))) := by
  obtain ⟨d, hread, rfl, -⟩ := exists_document_of_ofText h
  have hnames := Xml.Document.hasLocalNames_of_ofText hread
  refine ⟨d, hread, fun _ => mem_leafPaths_iff_descent hnames, fun path hpath => ?_⟩
  obtain ⟨way, e, hway, hlast, -, rfl⟩ := (mem_leafPaths_iff_descent hnames).mp hpath
  have hne : way ≠ [] := by
    rintro rfl
    cases hlast
  refine ⟨_, resolveAll_ofSegments hnames hway hne, ?_⟩
  rw [Ne, List.map_eq_nil_iff, ← Ne, Xml.elementsAt_ne_nil_iff (mt List.map_eq_nil_iff.mp hne)]
  constructor
  · rintro ⟨first, hfirst, hsame⟩
    exact ⟨first, hfirst, by rw [hsame]⟩
  · rintro ⟨first, hfirst, hsame⟩
    refine ⟨first, hfirst, ?_⟩
    rw [← parts_ofSegments_descent hnames hfirst.isDescent, ← hsame,
      parts_ofSegments_descent hnames hway]

/-- A payload with two rows that have different fields. -/
def unlikeDebts : String := "<Case><Debt><Sum>1</Sum></Debt><Debt><Due>May</Due></Debt></Case>"

/-- Its outermost element. -/
def unlikeDebtsCase : Element := ⟨"Case", [],
  [.element "Debt" [] [.element "Sum" [] [.text "1"]],
    .element "Debt" [] [.element "Due" [] [.text "May"]]]⟩

theorem ofText_unlikeDebts :
    Xml.Document.ofText 1000000 unlikeDebts = .ok ⟨[], unlikeDebtsCase, []⟩ := by cbv

theorem outcome_ofText_unlikeDebts :
    (ofText {} unlikeDebts).outcome = .ok (.element (ofNodes [unlikeDebtsCase.toNode])) :=
  @outcome_ofText unlikeDebts _ {} (by decide +kernel) ofText_unlikeDebts
    (by simp [unlikeDebtsCase, Xml.Element.toNode, Xml.nesting])

theorem offered_path_leads_of_unlikeDebts : ∃ payload, (ofText {} unlikeDebts).outcome = .ok payload ∧
    "/Case/Debt/Sum" ∈ payload.leafPaths ∧
    ∃ found, payload.resolveAll "/Case/Debt/Sum" = .ok found ∧ found ≠ [] := by
  obtain ⟨d, hread, hoffered, hleads⟩ := offered_path_leads_iff outcome_ofText_unlikeDebts
  obtain rfl := Except.ok.inj (ofText_unlikeDebts.symm.trans hread)
  -- the way to the amount of the first row
  have hfirst : IsFirstDescent [unlikeDebtsCase.toNode] [unlikeDebtsCase,
      ⟨"Debt", [], [.element "Sum" [] [.text "1"]]⟩, ⟨"Sum", [], [.text "1"]⟩] := by
    simp [IsFirstDescent, Xml.elementsNamed, elements, unlikeDebtsCase]
  have hpath : "/Case/Debt/Sum" = ofSegments ["Case", "Debt", "Sum"] := by decide
  have hmem := (hoffered "/Case/Debt/Sum").mpr
    ⟨_, _, hfirst.isDescent, rfl, .inr ⟨rfl, rfl⟩, hpath⟩
  obtain ⟨found, hfound, hne⟩ := hleads _ hmem
  exact ⟨_, outcome_ofText_unlikeDebts, hmem, found, hfound, hne.mpr ⟨_, hfirst, hpath⟩⟩

/-- The path of a field that only the second row has is offered, and leads nowhere. -/
theorem not_offered_path_leads_of_unlikeDebts :
    ∃ payload, (ofText {} unlikeDebts).outcome = .ok payload ∧
      "/Case/Debt/Due" ∈ payload.leafPaths ∧ payload.resolveAll "/Case/Debt/Due" = .ok [] := by
  have hshape : ofNodes [unlikeDebtsCase.toNode] = [("Case", .element [("Debt", .sequence
      [.element [("Sum", .scalar "1")], .element [("Due", .scalar "May")]])])] := by cbv
  refine ⟨_, outcome_ofText_unlikeDebts, ?_, ?_⟩
  · rw [hshape, mem_leafPaths_iff]
    decide
  · rw [hshape]
    cbv

end Payload

end StatementPress
