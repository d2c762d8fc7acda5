import Mathlib
import StatementPress.Proofs.Payload.Within

/-!
# The shape of payloads

A payload that was read is in one shape, whatever the document: `IsCanonical` says of its outermost
node, of the entries of every element in it and of every sequence in it what paths, rows and leaf
paths build on.  Attributes stand first and are texts, no other key comes twice, text stands last and
is trimmed, and a sequence holds two nodes or more, none of them a sequence, under a key.
-/

namespace StatementPress

namespace Text

/-- A text with no blank at either end. -/
structure IsTrimmed (s : String) : Prop where
  first : ∀ c, s.toList.head? = some c → isBlank c = false
  last : ∀ c, s.toList.getLast? = some c → isBlank c = false

/-- Behind the blanks at the start stands no blank. -/
theorem isBlank_head?_dropWhile {cs : List Char} {c : Char}
    (h : (cs.dropWhile isBlank).head? = some c) : isBlank c = false := by
  have hfirst := List.head?_dropWhile_not isBlank cs
  rwa [h] at hfirst

/-- Dropping blanks at the end leaves the first character in its place, if any is left. -/
theorem head?_trimEnd {cs : List Char} {c : Char} (h : (trimEnd cs).head? = some c) :
    cs.head? = some c := by
  obtain ⟨dropped, hcs⟩ := List.dropWhile_suffix (l := cs.reverse) isBlank
  have hsplit : cs = trimEnd cs ++ dropped.reverse := by
    rw [trimEnd, ← List.reverse_append, hcs, List.reverse_reverse]
  rw [hsplit, List.head?_append, h]
  rfl

theorem isTrimmed_trim (s : String) : IsTrimmed (trim s) := by
  constructor
  · intro c hc
    rw [trim, String.toList_ofList, trimChars] at hc
    exact isBlank_head?_dropWhile (head?_trimEnd hc)
  · intro c hc
    rw [trim, String.toList_ofList, trimChars, trimEnd, List.getLast?_reverse] at hc
    exact isBlank_head?_dropWhile hc

end Text

namespace Payload

open Xml (Element elementsNamed)

/-- The entries of an element in canonical shape. -/
structure CanonicalEntries (entries : List (String × Payload)) : Prop where
  nonempty : entries ≠ []
  attributes_first :
    entries.Pairwise fun a b => isAttributeKey b.1 = true → isAttributeKey a.1 = true
  attributes_scalar : ∀ e ∈ entries, isAttributeKey e.1 = true → ∃ s, e.2 = .scalar s
  others_nodup : ((entries.map (·.1)).filter fun key => !isAttributeKey key).Nodup
  text_last : ∀ e ∈ entries, e.1 = textKey →
    entries.getLast? = some e ∧ ∃ s, e.2 = .scalar s ∧ s ≠ "" ∧ Text.IsTrimmed s

/-- The items of a sequence in canonical shape. -/
structure CanonicalItems (items : List Payload) : Prop where
  several : 2 ≤ items.length
  flat : ∀ item ∈ items, ∀ inner, item ≠ .sequence inner

/-- **A payload in canonical shape**, of a document whose outermost element has a given name. -/
structure IsCanonical (name : String) (payload : Payload) : Prop where
  top : ∃ node, payload = .element [(name, node)] ∧ ∀ items, node ≠ .sequence items
  elements : ∀ entries, Within (.element entries) payload → CanonicalEntries entries
  sequences : ∀ items, Within (.sequence items) payload → CanonicalItems items
  sequences_keyed : ∀ items, Within (.sequence items) payload →
    ∃ entries key, Within (.element entries) payload ∧ (key, .sequence items) ∈ entries

/-! ## Elements -/

variable {attributes : List (String × String)} {children : List (String × Payload)} {text : String}

theorem isAttributeKey_of_mem_attributeEntries :
    ∀ e ∈ attributeEntries attributes, isAttributeKey e.1 = true := by
  intro e he
  obtain ⟨a, -, rfl⟩ := List.mem_map.mp he
  simp [isAttributeKey, attributeMark]

/-- The text of an element stands in its entries only if it has one. -/
theorem eq_of_mem_textEntries : ∀ e ∈ textEntries text, e = (textKey, .scalar text) ∧ text ≠ "" := by
  intro e he
  unfold textEntries at he
  split at he
  · cases he
  · rename_i hempty
    exact ⟨List.mem_singleton.mp he, by simpa using hempty⟩

/-- The keys of the entries after the attributes are no keys of attributes. -/
theorem isAttributeKey_of_mem_group_textEntries (hkeys : ∀ child ∈ children, IsChildKey child.1) :
    ∀ e ∈ group children ++ textEntries text, isAttributeKey e.1 = false := by
  intro e he
  rcases List.mem_append.mp he with he | he
  · obtain ⟨child, hchild, hkey⟩ := List.mem_map.mp (mem_group_iff.mp he).1
    rw [← hkey]
    exact (hkeys child hchild).1
  · rw [(eq_of_mem_textEntries e he).1]
    change isAttributeKey textKey = false
    decide

/-- Children and the text have keys of their own. -/
theorem nodup_keys_group_textEntries (hkeys : ∀ child ∈ children, IsChildKey child.1) :
    ((group children ++ textEntries text).map (·.1)).Nodup := by
  rw [List.map_append, List.nodup_append, keys_group]
  refine ⟨nodup_eraseDups _, ?_, ?_⟩
  · unfold textEntries
    split <;> simp
  · intro key hkey key' hkey' heq
    obtain ⟨child, hchild, rfl⟩ := List.mem_map.mp (List.mem_eraseDups.mp hkey)
    obtain ⟨e, he, rfl⟩ := List.mem_map.mp hkey'
    rw [(eq_of_mem_textEntries e he).1] at heq
    exact (hkeys child hchild).2 heq

/-- The keys that are none of attributes are those of the children and the text. -/
theorem filter_keys_entries (hkeys : ∀ child ∈ children, IsChildKey child.1) :
    ((attributeEntries attributes ++ (group children ++ textEntries text)).map (·.1)).filter
        (fun key => !isAttributeKey key) =
      (group children ++ textEntries text).map (·.1) := by
  rw [List.map_append, List.filter_append, List.filter_eq_nil_iff.mpr, List.nil_append,
    List.filter_eq_self.mpr]
  · intro key hkey
    obtain ⟨e, he, rfl⟩ := List.mem_map.mp hkey
    rw [isAttributeKey_of_mem_group_textEntries hkeys e he]
    rfl
  · intro key hkey
    obtain ⟨e, he, rfl⟩ := List.mem_map.mp hkey
    rw [isAttributeKey_of_mem_attributeEntries e he]
    decide

/-- **The node of an element is in canonical shape** if its children have keys of children and its
text is trimmed. -/
theorem canonicalEntries_ofParts {entries : List (String × Payload)}
    (h : ofParts attributes children text = .element entries)
    (hkeys : ∀ child ∈ children, IsChildKey child.1) (htrimmed : Text.IsTrimmed text) :
    CanonicalEntries entries := by
  rw [ofParts_eq] at h
  split at h
  · cases h
  · rename_i hne
    cases h
    have hothers := @isAttributeKey_of_mem_group_textEntries _ text hkeys
    rw [List.append_assoc]
    constructor
    · intro hnil
      rw [← List.append_assoc] at hnil
      exact hne (List.append_eq_nil_iff.mp hnil).1
    · rw [List.pairwise_append]
      refine ⟨?_, ?_, ?_⟩
      · exact List.pairwise_of_forall_mem_list fun a ha _ _ _ =>
          isAttributeKey_of_mem_attributeEntries a ha
      · refine List.pairwise_of_forall_mem_list fun _ _ b hb hkey => ?_
        rw [hothers b hb] at hkey
        cases hkey
      · exact fun a ha _ _ _ => isAttributeKey_of_mem_attributeEntries a ha
    · intro e he hkey
      rcases List.mem_append.mp he with he | he
      · obtain ⟨a, -, rfl⟩ := List.mem_map.mp he
        exact ⟨a.2, rfl⟩
      · rw [hothers e he] at hkey
        cases hkey
    · rw [filter_keys_entries hkeys]
      exact nodup_keys_group_textEntries hkeys
    · intro e he hkey
      have htext : e ∈ textEntries text := by
        rcases List.mem_append.mp he with he | he
        · have hattribute := isAttributeKey_of_mem_attributeEntries e he
          rw [hkey] at hattribute
          cases hattribute
        · rcases List.mem_append.mp he with he | he
          · obtain ⟨child, hchild, hname⟩ := List.mem_map.mp (mem_group_iff.mp he).1
            exact absurd (hname.trans hkey) (hkeys child hchild).2
          · exact he
      obtain ⟨rfl, hne⟩ := eq_of_mem_textEntries e htext
      have hlast : textEntries text = [(textKey, .scalar text)] := by
        rw [textEntries, if_neg (by simpa using hne)]
      refine ⟨?_, text, rfl, hne, htrimmed⟩
      rw [hlast, ← List.append_assoc, List.getLast?_concat]

/-! ## Documents -/

theorem ofElement_ne_sequence (e : Element) (items : List Payload) :
    ofElement e ≠ .sequence items := by
  rw [ofElement, ofParts_eq]
  split <;> simp

/-- Names of elements are keys of children, since no name starts as an attribute key or as the text
key. -/
theorem isChildKey_of_mem_ofNodes {nodes : List Xml.Node}
    (h : ∀ e ∈ Xml.elements nodes, e.HasLocalNames) :
    ∀ child ∈ ofNodes nodes, IsChildKey child.1 := by
  intro child hchild
  rw [ofNodes_eq_map] at hchild
  obtain ⟨e, he, rfl⟩ := List.mem_map.mp hchild
  exact isChildKey_of_startsAsName (h e he).name.starts

/-- A node under the name of the outermost element is in canonical shape. -/
theorem canonicalEntries_singleton {name : String} (h : IsChildKey name) (node : Payload) :
    CanonicalEntries [(name, node)] where
  nonempty := by simp
  attributes_first := List.pairwise_singleton _ _
  attributes_scalar := by
    intro e he hkey
    rw [List.mem_singleton.mp he, h.1] at hkey
    cases hkey
  others_nodup := (List.pairwise_singleton _ name).filter _
  text_last := by
    intro e he hkey
    rw [List.mem_singleton.mp he] at hkey
    exact absurd hkey h.2

/-- The sequences in a payload are the children of one name. -/
theorem canonicalItems_of_within {d : Xml.Document} {items : List Payload}
    (h : Within (.sequence items) (.element (ofNodes [d.root.toNode]))) : CanonicalItems items := by
  rcases (within_document_iff (by simp) d).mp h with htop | ⟨e, -, hnode | hnode⟩
  · cases htop
  · exact absurd hnode.symm (ofElement_ne_sequence e items)
  · obtain ⟨name, hlength, hnode⟩ := hnode
    cases hnode
    refine ⟨by rwa [List.length_map], ?_⟩
    exact List.forall_mem_map.mpr fun inner _ => ofElement_ne_sequence inner

/-- The payload of a document with local names is in canonical shape. -/
theorem isCanonical_document {d : Xml.Document} (hnames : d.HasLocalNames) :
    (Payload.element (ofNodes [d.root.toNode])).IsCanonical d.root.name where
  top := ⟨ofElement d.root, by rw [ofNodes_toNode], ofElement_ne_sequence d.root⟩
  elements := by
    intro entries hwithin
    rcases (within_document_iff (by simp) d).mp hwithin with htop | ⟨e, he, hnode | hnode⟩
    · cases htop
      have hroot := (hnames _ d.root_mem_allElements).name
      exact canonicalEntries_singleton (isChildKey_of_startsAsName hroot.starts) _
    · exact canonicalEntries_ofParts hnode.symm (isChildKey_of_mem_ofNodes (hnames.children he))
        (Text.isTrimmed_trim _)
    · obtain ⟨name, -, hnode⟩ := hnode
      cases hnode
  sequences := fun _ => canonicalItems_of_within
  sequences_keyed := by
    intro items hwithin
    rcases hwithin.parent with htop | hentry | ⟨outer, houter, hmem⟩
    · cases htop
    · exact hentry
    · exact absurd rfl ((canonicalItems_of_within houter).flat _ hmem items)

/-- **A payload that was read is in canonical shape.** -/
theorem isCanonical_of_ofText {limits : Limits} {text : String} {payload : Payload}
    (h : (ofText limits text).outcome = .ok payload) :
    ∃ d, Xml.Document.ofText limits.maxNodes.toNat text = .ok d ∧
      payload.IsCanonical d.root.name := by
  obtain ⟨d, hread, rfl, -⟩ := exists_document_of_ofText h
  exact ⟨d, hread, isCanonical_document (Xml.Document.hasLocalNames_of_ofText hread)⟩

/-- A document with an attribute, text on both sides of an element, and a repeated element. -/
def notedDebts : String := "<Case lang=\"de\"> open <Debt>1</Debt><Debt/> since May\n</Case>"

theorem isCanonical_of_notedDebts :
    ∃ d payload, Xml.Document.ofText 1000000 notedDebts = .ok d ∧
      (ofText {} notedDebts).outcome = .ok payload ∧
      payload = .element [("Case", .element [("@_lang", .scalar "de"),
        ("Debt", .sequence [.scalar "1", .scalar ""]), ("#text", .scalar "open  since May")])] ∧
      payload.IsCanonical d.root.name := by
  have hread : Xml.Document.ofText 1000000 notedDebts = .ok ⟨[], ⟨"Case", [("lang", "de")],
      [.text " open ", .element "Debt" [] [.text "1"], .element "Debt" [] [],
        .text " since May\n"]⟩, []⟩ := by cbv
  have hpayload := @outcome_ofText notedDebts _ {} (by decide +kernel) hread
    (by simp [Xml.Element.toNode, Xml.nesting])
  obtain ⟨d, hd, hcanonical⟩ := isCanonical_of_ofText hpayload
  refine ⟨d, _, hd, hpayload, ?_, hcanonical⟩
  cbv

end Payload

end StatementPress
