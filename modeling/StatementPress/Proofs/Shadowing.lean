import StatementPress.Proofs.CanonicalPayloads

/-!
# Entries that are found under their keys

An entry of an element can be reached if it is the one that its key leads to, by `get?` and by a path
(`IsFound`).  Children and texts are always reached.  Attributes are kept under their local names, so
two attributes of one element that differ in their qualifiers only share a key, and the first of them
hides the second.  The keys of a payload are distinct exactly if no element of the document has two
such attributes.
-/

namespace StatementPress.Payload

open Xml (Element)
open StatementPress.Path (IsStart IsSegment)

/-! ## Keys -/

/-- An entry is the one under its key if no entry whose key passes a test the key passes shares it. -/
theorem lookup_of_mem_of_nodup {β : Type} {p : String → Bool} {l : List (String × β)}
    (h : ((l.map (·.1)).filter p).Nodup) {e : String × β} (he : e ∈ l) (hp : p e.1 = true) :
    l.lookup e.1 = some e.2 := by
  induction l with
  | nil => cases he
  | cons e' l ih =>
    rw [List.map_cons, List.filter_cons] at h
    rcases List.mem_cons.mp he with rfl | htail
    · rw [List.lookup_cons, beq_self_eq_true]
    · by_cases hkey : e.1 = e'.1
      · rw [if_pos (hkey ▸ hp), List.nodup_cons, ← hkey] at h
        exact absurd (List.mem_filter.mpr ⟨List.mem_map_of_mem htail, hp⟩) h.1
      · rw [List.lookup_cons, beq_eq_false_iff_ne.mpr hkey]
        refine ih ?_ htail
        split at h
        · exact (List.nodup_cons.mp h).2
        · exact h

variable {attributes : List (String × String)} {children : List (String × Payload)} {text : String}

/-- The keys of an element are distinct exactly if the names of its attributes are. -/
theorem nodup_keys_iff (hkeys : ∀ child ∈ children, IsChildKey child.1) :
    ((attributeEntries attributes ++ (group children ++ textEntries text)).map (·.1)).Nodup ↔
      (attributes.map (·.1)).Nodup := by
  have hmark : (attributeEntries attributes).map (·.1) =
      (attributes.map (·.1)).map fun name => attributeMark ++ name := by
    rw [attributeEntries, List.map_map, List.map_map]
    rfl
  have hinjective : Function.Injective fun name => attributeMark ++ name := by
    intro name name' h
    simpa using h
  rw [List.map_append, List.nodup_append, hmark, List.nodup_map_iff hinjective]
  refine ⟨fun h => h.1, fun h => ⟨h, nodup_keys_group_textEntries hkeys, ?_⟩⟩
  intro key hkey key' hkey' heq
  rw [← hmark] at hkey
  obtain ⟨e, he, rfl⟩ := List.mem_map.mp hkey
  obtain ⟨e', he', rfl⟩ := List.mem_map.mp hkey'
  have hattribute := isAttributeKey_of_mem_attributeEntries e he
  rw [heq, isAttributeKey_of_mem_group_textEntries hkeys e' he'] at hattribute
  cases hattribute

/-! ## Segments -/

theorem isSegment_of_isLocalName {name : String} (h : Xml.IsLocalName name) : IsSegment name := by
  refine ⟨?_, h.no_slash⟩
  rintro rfl
  exact absurd h.starts (by decide)

theorem isSegment_attributeMark_append {name : String} (h : Xml.IsLocalName name) :
    IsSegment (attributeMark ++ name) := by
  refine ⟨by simp [attributeMark], ?_⟩
  rw [String.toList_append, List.mem_append, not_or]
  exact ⟨by decide, h.no_slash⟩

/-! ## What keys and paths lead to -/

/-- **Whether an entry of an element is reached**: its key leads to its node, and so does every path
that goes on with its key from the element, wherever the element stands. -/
structure IsFound (entries : List (String × Payload)) (e : String × Payload) : Prop where
  get : (Payload.element entries).get? e.1 = some e.2
  path : ∀ (base : Payload) (path : String), IsStart path →
    (base.lookup (Path.parts path)).bind first? = some (.element entries) →
      base.resolveAll (path ++ "/" ++ e.1) = .ok (items (some e.2)) ∧
        base.resolve (path ++ "/" ++ e.1) = .ok e.2.text

/-- What a key leads to a path leads to. -/
theorem isFound_of_get {entries : List (String × Payload)} {e : String × Payload}
    (hkey : IsSegment e.1) (h : (Payload.element entries).get? e.1 = some e.2) :
    IsFound entries e := by
  refine ⟨h, fun base path hpath hbase => ?_⟩
  obtain ⟨found, hfound, hfirst⟩ := Option.bind_eq_some_iff.mp hbase
  have hlookup : base.lookup (Path.parts (path ++ "/" ++ e.1)) = some e.2 := by
    rw [Path.parts_append_slash hpath hkey, lookup_append, hfound, Option.bind_some, lookup, hfirst,
      Option.bind_some, h]
    rfl
  have habsolute := Path.isAbsolute_append_slash hpath e.1
  constructor
  · rw [resolveAll_of_isAbsolute habsolute, nodesAt_eq, hlookup]
  · rw [resolve_of_isAbsolute habsolute, textAt, hlookup]
    rfl

/-! ## The elements of a document -/

/-- The entries for an element of a document, if it has any. -/
def entriesOf (e : Element) : List (String × Payload) :=
  attributeEntries e.attributes ++
    (group (ofNodes e.children) ++ textEntries (Text.trim (Xml.directText e.children)))

/-- An element that has attributes has an entry for each of them. -/
theorem ofElement_of_attributes {e : Element} (h : e.attributes ≠ []) :
    ofElement e = .element (entriesOf e) := by
  have hne : attributeEntries e.attributes ++ group (ofNodes e.children) ≠ [] := by
    intro hnil
    exact h (List.map_eq_nil_iff.mp (List.append_eq_nil_iff.mp hnil).1)
  rw [ofElement, ofParts_eq, if_neg hne, entriesOf, List.append_assoc]

variable {d : Xml.Document} {entries : List (String × Payload)}

theorem within_of_attributes {e : Element} (he : e ∈ d.allElements) (h : e.attributes ≠ []) :
    Within (.element (entriesOf e)) (.element (ofNodes [d.root.toNode])) :=
  (within_document_iff (by simp) d).mpr (.inr ⟨e, he, .inl (ofElement_of_attributes h).symm⟩)

/-- The entries of an element of a payload are those for an element of the document, or the one for the
outermost element. -/
theorem entries_cases (h : Within (.element entries) (.element (ofNodes [d.root.toNode]))) :
    entries = [(d.root.name, ofElement d.root)] ∨ ∃ e ∈ d.allElements, entries = entriesOf e := by
  rcases (within_document_iff (by simp) d).mp h with htop | ⟨e, he, hnode | hnode⟩
  · cases htop
    exact .inl rfl
  · rw [ofElement, ofParts_eq] at hnode
    split at hnode
    · cases hnode
    · cases hnode
      exact .inr ⟨e, he, List.append_assoc _ _ _⟩
  · obtain ⟨name, -, hnode⟩ := hnode
    cases hnode

/-- Every key of a payload can be a segment of a path. -/
theorem isSegment_of_within (hnames : d.HasLocalNames)
    (h : Within (.element entries) (.element (ofNodes [d.root.toNode]))) :
    ∀ entry ∈ entries, IsSegment entry.1 := by
  intro entry hentry
  rcases entries_cases h with rfl | ⟨e, he, rfl⟩
  · rw [List.mem_singleton.mp hentry]
    exact isSegment_of_isLocalName (hnames _ d.root_mem_allElements).name
  · rcases List.mem_append.mp hentry with hentry | hentry
    · obtain ⟨a, ha, rfl⟩ := List.mem_map.mp hentry
      exact isSegment_attributeMark_append ((hnames e he).attributes a ha)
    · rcases List.mem_append.mp hentry with hentry | hentry
      · obtain ⟨child, hchild, hname⟩ := List.mem_map.mp (mem_group_iff.mp hentry).1
        rw [ofNodes_eq_map] at hchild
        obtain ⟨inner, hinner, rfl⟩ := List.mem_map.mp hchild
        rw [← hname]
        exact isSegment_of_isLocalName (hnames.children he inner hinner).name
      · rw [(eq_of_mem_textEntries entry hentry).1]
        change IsSegment textKey
        exact ⟨by decide, by decide⟩

/-- The keys of a payload are distinct exactly if the attributes of each element differ in their local
names. -/
theorem nodup_keys_within_iff (hnames : d.HasLocalNames) :
    (∀ entries, Within (.element entries) (.element (ofNodes [d.root.toNode])) →
      (entries.map (·.1)).Nodup) ↔ ∀ e ∈ d.allElements, (e.attributes.map (·.1)).Nodup := by
  have hkeys : ∀ e ∈ d.allElements, ∀ child ∈ ofNodes e.children, IsChildKey child.1 :=
    fun e he => isChildKey_of_mem_ofNodes (hnames.children he)
  constructor
  · intro h e he
    by_cases hne : e.attributes = []
    · rw [hne]
      exact List.nodup_nil
    · exact (nodup_keys_iff (hkeys e he)).mp (h _ (within_of_attributes he hne))
  · intro h entries hentries
    rcases entries_cases hentries with rfl | ⟨e, he, rfl⟩
    · exact List.nodup_singleton _
    · exact (nodup_keys_iff (hkeys e he)).mpr (h e he)

/-- **Entries are found unless attributes share a local name.**  The keys of every element of a payload
are distinct exactly if no element of the document has two attributes of one local name.  An entry is
reached if it is none of an attribute, whatever the document, and if it is one of an attribute, where
the keys are distinct; and every attribute of the document has an entry. -/
theorem keys_nodup_iff_attributes_nodup {limits : Limits} {text : String} {payload : Payload}
    (h : (ofText limits text).outcome = .ok payload) :
    ∃ d, Xml.Document.ofText limits.maxNodes.toNat text = .ok d ∧
      ((∀ entries, Within (.element entries) payload → (entries.map (·.1)).Nodup) ↔
        ∀ e ∈ d.allElements, (e.attributes.map (·.1)).Nodup) ∧
      (∀ entries, Within (.element entries) payload → ∀ entry ∈ entries,
        (isAttributeKey entry.1 = true → (entries.map (·.1)).Nodup) → IsFound entries entry) ∧
      ∀ e ∈ d.allElements, ∀ a ∈ e.attributes, ∃ entries, ofElement e = .element entries ∧
        Within (.element entries) payload ∧ (attributeMark ++ a.1, .scalar a.2) ∈ entries := by
  obtain ⟨d, hread, rfl, -⟩ := exists_document_of_ofText h
  have hnames := Xml.Document.hasLocalNames_of_ofText hread
  refine ⟨d, hread, nodup_keys_within_iff hnames, ?_, ?_⟩
  · intro entries hentries entry hentry hdistinct
    refine isFound_of_get (isSegment_of_within hnames hentries entry hentry) ?_
    by_cases hattribute : isAttributeKey entry.1 = true
    · refine lookup_of_mem_of_nodup (p := fun _ => true) ?_ hentry rfl
      rw [List.filter_true]
      exact hdistinct hattribute
    · exact lookup_of_mem_of_nodup ((isCanonical_document hnames).elements entries hentries).others_nodup
        hentry (by simpa using hattribute)
  · intro e he a ha
    have hne : e.attributes ≠ [] := List.ne_nil_of_mem ha
    exact ⟨_, ofElement_of_attributes hne, within_of_attributes he hne,
      List.mem_append_left _ (List.mem_map_of_mem ha)⟩

/-- A document with two attributes of different qualifiers and one with a qualifier of its own. -/
def qualifiedKind : String :=
  "<Case xmlns:p=\"u\" id=\"1\" p:kind=\"2\"><Debt p:id=\"3\"/><Debt p:id=\"4\"/></Case>"

/-- The entries of its outermost element. -/
def qualifiedKindEntries : List (String × Payload) :=
  [("@_id", .scalar "1"), ("@_kind", .scalar "2"),
    ("Debt", .sequence [.element [("@_id", .scalar "3")], .element [("@_id", .scalar "4")]])]

theorem keys_nodup_iff_attributes_nodup_of_qualifiedKind :
    ∃ payload, (ofText {} qualifiedKind).outcome = .ok payload ∧
      payload.resolve "/Case/@_kind" = .ok "2" ∧
      payload.resolveAll "/Case/Debt" =
        .ok [.element [("@_id", .scalar "3")], .element [("@_id", .scalar "4")]] ∧
      (Payload.element [("@_id", .scalar "4")]).resolve "/@_id" = .ok "4" := by
  have hread : Xml.Document.ofText 1000000 qualifiedKind = .ok ⟨[], ⟨"Case",
      [("id", "1"), ("kind", "2")],
      [.element "Debt" [("id", "3")] [], .element "Debt" [("id", "4")] []]⟩, []⟩ := by cbv
  have hpayload := @outcome_ofText qualifiedKind _ {} (by decide +kernel) hread
    (by simp [Xml.Element.toNode, Xml.nesting])
  have hshape : ofNodes [(⟨"Case", [("id", "1"), ("kind", "2")],
      [.element "Debt" [("id", "3")] [], .element "Debt" [("id", "4")] []]⟩ : Element).toNode] =
      [("Case", .element qualifiedKindEntries)] := by cbv
  simp only [hshape] at hpayload
  obtain ⟨d, hd, hiff, hfound, -⟩ := keys_nodup_iff_attributes_nodup hpayload
  obtain rfl := Except.ok.inj (hread.symm.trans hd)
  have hdistinct := hiff.mpr (by simp [Xml.Document.allElements, Xml.allElements])
  have hcase : Within (.element qualifiedKindEntries)
      (.element [("Case", .element qualifiedKindEntries)]) := .entry List.mem_cons_self .self
  have hdebt : Within (.element [("@_id", .scalar "4")])
      (.element [("Case", .element qualifiedKindEntries)]) := by
    simp [within_element_iff, within_sequence_iff, qualifiedKindEntries]
  have hkind := hfound _ hcase ("@_kind", .scalar "2") (by simp [qualifiedKindEntries])
    fun _ => hdistinct _ hcase
  have hdebts := hfound _ hcase
    ("Debt", .sequence [.element [("@_id", .scalar "3")], .element [("@_id", .scalar "4")]])
    (by simp [qualifiedKindEntries]) fun _ => hdistinct _ hcase
  have hid := hfound _ hdebt ("@_id", .scalar "4") List.mem_cons_self fun _ => hdistinct _ hdebt
  have hparts : Path.parts "/Case" = ["Case"] := by decide
  have hleads : ((Payload.element [("Case", .element qualifiedKindEntries)]).lookup
      (Path.parts "/Case")).bind first? = some (.element qualifiedKindEntries) := by
    rw [hparts]
    rfl
  refine ⟨_, hpayload, ?_, ?_, ?_⟩
  · exact (hkind.path _ "/Case" (.inr (by decide)) hleads).2
  · exact (hdebts.path _ "/Case" (.inr (by decide)) hleads).1
  · exact (hid.path (.element [("@_id", .scalar "4")]) "" (.inl rfl) rfl).2

/-- A document with two attributes that differ in their qualifiers only. -/
def twoIds : String := "<Case xmlns:p=\"u\" id=\"1\" p:id=\"2\"/>"

/-- Two attributes share a key, and the key does not lead to the second of them. -/
theorem not_keys_nodup_of_twoIds : ∃ payload entries, (ofText {} twoIds).outcome = .ok payload ∧
    Within (.element entries) payload ∧ ¬ (entries.map (·.1)).Nodup ∧
      ("@_id", .scalar "2") ∈ entries ∧
      (Payload.element entries).get? "@_id" = some (.scalar "1") := by
  have hread : Xml.Document.ofText 1000000 twoIds =
      .ok ⟨[], ⟨"Case", [("id", "1"), ("id", "2")], []⟩, []⟩ := by cbv
  have hpayload := @outcome_ofText twoIds _ {} (by decide +kernel) hread
    (by simp [Xml.Element.toNode, Xml.nesting])
  have hnode : Payload.element (ofNodes [(⟨"Case", [("id", "1"), ("id", "2")], []⟩ : Element).toNode]) =
      .element [("Case", .element [("@_id", .scalar "1"), ("@_id", .scalar "2")])] := by cbv
  rw [hnode] at hpayload
  exact ⟨_, _, hpayload, .entry List.mem_cons_self .self, by simp, by simp, rfl⟩

end StatementPress.Payload
