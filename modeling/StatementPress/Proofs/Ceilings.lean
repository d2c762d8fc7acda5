import Mathlib
import StatementPress.Proofs.Gates
import StatementPress.Proofs.Xml.Counting
import StatementPress.Proofs.Xml.Ways

/-!
# Ceilings on payloads

The three ceilings refuse payloads and do nothing else.  They are asked in turn, each is exact at its
boundary, and what passes all of them is the same payload under any ceilings (`ceilings_gate_exactly`).

Bytes are those of the encoded text.  Nesting is said of the document itself: it is too deep if there
is a way down in it, from the outermost element and wherever it leads, that passes through more
elements than the ceiling allows (`IsDescent`).  Nodes are counted as the reader of documents counts
them, and it counts no attributes.  So elements, attributes and texts together can go over the ceiling
on nodes: what remains below it is said in `parts_within_ceiling_iff`.
-/

namespace StatementPress

/-! ## Bytes -/

/-- The number of bytes is that of the text as it is encoded. -/
theorem Text.byteSize_toList (s : String) : Text.byteSize s.toList = s.utf8ByteSize := by
  induction s using String.push_induction with
  | empty => rfl
  | push s c ih =>
    rw [String.toList_push, String.utf8ByteSize_push, ← ih, Text.byteSize, Text.byteSize,
      List.foldl_append]
    rfl

namespace Xml

/-! ## Parts -/

/-- The number of texts in a list of trees. -/
def textCount : List Node → Nat
  | [] => 0
  | .element _ _ children :: rest => textCount children + textCount rest
  | .text _ :: rest => 1 + textCount rest
  | _ :: rest => textCount rest

/-- The number of comments and instructions in a list of trees. -/
def noteCount : List Node → Nat
  | [] => 0
  | .element _ _ children :: rest => noteCount children + noteCount rest
  | .text _ :: rest => noteCount rest
  | _ :: rest => 1 + noteCount rest

/-- **Every node is an element, a text, a comment or an instruction.** -/
theorem nodeCount_eq (nodes : List Node) :
    nodeCount nodes = (allElements nodes).length + textCount nodes + noteCount nodes := by
  induction nodes using nodes_induction with
  | nil => simp [textCount, noteCount]
  | element e rest ihchildren ihrest =>
    rw [nodeCount_toNode_cons, ihchildren, ihrest, allElements_toNode_cons, Element.toNode, textCount,
      noteCount, List.length_cons, List.length_append]
    omega
  | other node rest hnode ih =>
    rw [allElements_cons_of_ne hnode]
    cases node with
    | element name attributes children => exact absurd rfl (hnode ⟨name, attributes, children⟩)
    | _ =>
      simp only [nodeCount, textCount, noteCount, ih]
      omega

theorem nodeCount_append (nodes nodes' : List Node) :
    nodeCount (nodes ++ nodes') = nodeCount nodes + nodeCount nodes' := by
  induction nodes with
  | nil => simp
  | cons node nodes ih =>
    cases node <;> simp only [List.cons_append, nodeCount, ih] <;> omega

/-- The number of elements, attributes and texts of a document. -/
def Document.partCount (d : Document) : Nat :=
  (Xml.allElements d.nodes).length + attributeCount d.nodes + textCount d.nodes

/-- The size of a document: its elements, texts and notes, and the document itself. -/
theorem Document.size_eq (d : Document) :
    d.size = (Xml.allElements d.nodes).length + textCount d.nodes + noteCount d.nodes + 1 := by
  have hroot := nodeCount_append [d.root.toNode] d.after
  rw [List.singleton_append] at hroot
  rw [← nodeCount_eq, Document.nodes, nodeCount_append, hroot, Document.size]
  omega

/-- A document has no more parts than nodes exactly if it has no more attributes than one and one for
each comment and each instruction. -/
theorem Document.partCount_le_size_iff (d : Document) :
    d.partCount ≤ d.size ↔ attributeCount d.nodes ≤ noteCount d.nodes + 1 := by
  rw [Document.size_eq, Document.partCount]
  omega

end Xml

/-! ## The outcome behind each ceiling -/

/-- Whether none of the ceilings is higher than another one's. -/
structure Limits.IsWithin (limits limits' : Limits) : Prop where
  bytes : limits.maxBytes ≤ limits'.maxBytes
  depth : limits.maxDepth ≤ limits'.maxDepth
  nodes : limits.maxNodes ≤ limits'.maxNodes

namespace Payload

open Xml (Document IsDescent nesting)

variable {limits limits' : Limits} {text : String} {d : Document} {payload : Payload}

/-- A text with too many bytes is refused before it is read. -/
theorem outcome_ofText_of_large (h : limits.maxBytes.toNat < text.utf8ByteSize) :
    (ofText limits text).outcome = .error (.tooLarge text.utf8ByteSize limits.maxBytes.toNat) := by
  unfold ofText
  dsimp only
  rw [Text.byteSize_toList, if_pos h]
  rfl

/-- A text that is no document, or has too many nodes, is refused as such. -/
theorem outcome_ofText_of_malformed {e : Xml.Error} (hbytes : text.utf8ByteSize ≤ limits.maxBytes.toNat)
    (h : Document.ofText limits.maxNodes.toNat text = .error e) :
    (ofText limits text).outcome = .error (.malformed e) := by
  unfold ofText
  dsimp only
  rw [Text.byteSize_toList, if_neg (by omega), Run.outcome_bind, Run.outcome_ofExcept, h]
  rfl

/-- A document that is nested too deep is refused after it was read. -/
theorem outcome_ofText_of_deep (hbytes : text.utf8ByteSize ≤ limits.maxBytes.toNat)
    (h : Document.ofText limits.maxNodes.toNat text = .ok d)
    (hdepth : limits.maxDepth.toNat < nesting [d.root.toNode]) :
    (ofText limits text).outcome = .error (.tooDeep limits.maxDepth.toNat) := by
  unfold ofText
  dsimp only
  rw [Text.byteSize_toList, if_neg (by omega), Run.outcome_bind, Run.outcome_ofExcept, h,
    ok_mapError, ok_bind, ofDocument?_eq, if_neg (by omega)]
  rfl

/-- **What is read behind all three ceilings.** -/
theorem outcome_ofText_eq_ok_iff :
    (ofText limits text).outcome = .ok payload ↔
      text.utf8ByteSize ≤ limits.maxBytes.toNat ∧ ∃ d : Document,
        Document.ofText limits.maxNodes.toNat text = .ok d ∧
          nesting [d.root.toNode] ≤ limits.maxDepth.toNat ∧
            payload = .element (ofNodes [d.root.toNode]) := by
  constructor
  · intro h
    have hbytes : text.utf8ByteSize ≤ limits.maxBytes.toNat := by
      by_contra hlarge
      rw [outcome_ofText_of_large (Nat.lt_of_not_le hlarge)] at h
      cases h
    obtain ⟨d, hread, hpayload, -⟩ := exists_document_of_ofText h
    have hdepth : nesting [d.root.toNode] ≤ limits.maxDepth.toNat := by
      by_contra hdeep
      rw [outcome_ofText_of_deep hbytes hread (Nat.lt_of_not_le hdeep)] at h
      cases h
    exact ⟨hbytes, d, hread, hdepth, hpayload⟩
  · rintro ⟨hbytes, d, hread, hdepth, rfl⟩
    rw [← Text.byteSize_toList] at hbytes
    exact outcome_ofText hbytes hread hdepth

/-- **What is refused, and by which ceiling.** -/
theorem outcome_ofText_eq_error_iff {e : PayloadError} :
    (ofText limits text).outcome = .error e ↔
      limits.maxBytes.toNat < text.utf8ByteSize ∧
          e = .tooLarge text.utf8ByteSize limits.maxBytes.toNat ∨
        text.utf8ByteSize ≤ limits.maxBytes.toNat ∧
          ((∃ problem, Document.ofText limits.maxNodes.toNat text = .error problem ∧
              e = .malformed problem) ∨
            ∃ d : Document, Document.ofText limits.maxNodes.toNat text = .ok d ∧
              limits.maxDepth.toNat < nesting [d.root.toNode] ∧
                e = .tooDeep limits.maxDepth.toNat) := by
  constructor
  · intro h
    by_cases hbytes : text.utf8ByteSize ≤ limits.maxBytes.toNat
    · cases hread : Document.ofText limits.maxNodes.toNat text with
      | error problem =>
        rw [outcome_ofText_of_malformed hbytes hread] at h
        cases h
        exact .inr ⟨hbytes, .inl ⟨problem, rfl, rfl⟩⟩
      | ok d =>
        by_cases hdepth : nesting [d.root.toNode] ≤ limits.maxDepth.toNat
        · rw [outcome_ofText_eq_ok_iff.mpr ⟨hbytes, d, hread, hdepth, rfl⟩] at h
          cases h
        · have hdeep := Nat.lt_of_not_le hdepth
          rw [outcome_ofText_of_deep hbytes hread hdeep] at h
          cases h
          exact .inr ⟨hbytes, .inr ⟨d, rfl, hdeep, rfl⟩⟩
    · have hlarge := Nat.lt_of_not_le hbytes
      rw [outcome_ofText_of_large hlarge] at h
      cases h
      exact .inl ⟨hlarge, rfl⟩
  · rintro (⟨hlarge, rfl⟩ | ⟨hbytes, ⟨problem, hread, rfl⟩ | ⟨d, hread, hdeep, rfl⟩⟩)
    · exact outcome_ofText_of_large hlarge
    · exact outcome_ofText_of_malformed hbytes hread
    · exact outcome_ofText_of_deep hbytes hread hdeep

/-- **Higher ceilings change nothing** about a payload that was read. -/
theorem outcome_ofText_of_isWithin (h : (ofText limits text).outcome = .ok payload)
    (hwithin : limits.IsWithin limits') : (ofText limits' text).outcome = .ok payload := by
  obtain ⟨hbytes, d, hread, hdepth, hpayload⟩ := outcome_ofText_eq_ok_iff.mp h
  obtain ⟨hd, hsize⟩ := Document.ofText_eq_ok_iff.mp hread
  have hbytes' := UInt64.le_iff_toNat_le.mp hwithin.bytes
  have hdepth' := UInt64.le_iff_toNat_le.mp hwithin.depth
  have hnodes' := UInt32.le_iff_toNat_le.mp hwithin.nodes
  have hread' : Document.ofText limits'.maxNodes.toNat text = .ok d :=
    Document.ofText_eq_ok_iff.mpr ⟨hd, Nat.le_trans hsize hnodes'⟩
  exact outcome_ofText_eq_ok_iff.mpr
    ⟨Nat.le_trans hbytes hbytes', d, hread', Nat.le_trans hdepth hdepth', hpayload⟩

/-! ## The ceilings -/

/-- **The ceilings on a payload only gate, and each of them is exact.**  The payload is too large if
its text has more bytes than allowed; otherwise malformed if the text is refused under the ceiling on
nodes, which is if it is that of no document of at most so many nodes; otherwise too deep if some way
down in the document is longer than allowed; and otherwise it is read, as the payload of the document.
Nothing else can come out, and what was read is read as the same payload under all ceilings that are
no lower. -/
theorem ceilings_gate_exactly (limits : Limits) (text : String) :
    (∀ size limit, (ofText limits text).outcome = .error (.tooLarge size limit) ↔
      limits.maxBytes.toNat < text.utf8ByteSize ∧
        size = text.utf8ByteSize ∧ limit = limits.maxBytes.toNat) ∧
    (∀ e, (ofText limits text).outcome = .error (.malformed e) ↔
      text.utf8ByteSize ≤ limits.maxBytes.toNat ∧
        Document.ofText limits.maxNodes.toNat text = .error e) ∧
    ((∃ e, Document.ofText limits.maxNodes.toNat text = .error e) ↔
      ¬ ∃ d : Document, d.IsOf text ∧ d.size ≤ limits.maxNodes.toNat) ∧
    (∀ limit, (ofText limits text).outcome = .error (.tooDeep limit) ↔
      text.utf8ByteSize ≤ limits.maxBytes.toNat ∧ limit = limits.maxDepth.toNat ∧
        ∃ d, Document.ofText limits.maxNodes.toNat text = .ok d ∧
          ∃ way, IsDescent [d.root.toNode] way ∧ limits.maxDepth.toNat < way.length) ∧
    (∀ payload, (ofText limits text).outcome = .ok payload ↔
      text.utf8ByteSize ≤ limits.maxBytes.toNat ∧
        ∃ d, Document.ofText limits.maxNodes.toNat text = .ok d ∧
          (∀ way, IsDescent [d.root.toNode] way → way.length ≤ limits.maxDepth.toNat) ∧
            payload = .element (ofNodes [d.root.toNode])) ∧
    (∀ path, (ofText limits text).outcome ≠ .error (.relativePath path)) ∧
    (∀ payload, (ofText limits text).outcome = .ok payload →
      ∀ limits', limits.IsWithin limits' → (ofText limits' text).outcome = .ok payload) := by
  refine ⟨fun size limit => ?_, fun e => ?_, Document.exists_error_iff, fun limit => ?_,
    fun payload => ?_, outcome_ofText_ne_relativePath limits text,
    fun payload h limits' hwithin => outcome_ofText_of_isWithin h hwithin⟩
  · rw [outcome_ofText_eq_error_iff]
    simp
  · rw [outcome_ofText_eq_error_iff]
    simp
  · rw [outcome_ofText_eq_error_iff]
    simp only [← Xml.lt_nesting_iff]
    constructor
    · rintro (⟨-, hlimit⟩ | ⟨hbytes, ⟨problem, -, hlimit⟩ | ⟨d, hread, hdeep, hlimit⟩⟩)
      · cases hlimit
      · cases hlimit
      · cases hlimit
        exact ⟨hbytes, rfl, d, hread, hdeep⟩
    · rintro ⟨hbytes, rfl, d, hread, hdeep⟩
      exact .inr ⟨hbytes, .inr ⟨d, hread, hdeep, rfl⟩⟩
  · simp only [← Xml.nesting_le_iff]
    exact outcome_ofText_eq_ok_iff

/-! ## What the ceiling on nodes leaves out -/

/-- **The ceiling on nodes bounds elements, texts, comments and instructions, and no attributes.**  So
the elements, attributes and texts of a document stay below the ceiling, under all ceilings under
which its text is read, exactly if there are no more attributes than one and one for each comment and
each instruction. -/
theorem parts_within_ceiling_iff (h : (ofText limits text).outcome = .ok payload) :
    ∃ d : Document, d.IsOf text ∧ payload = .element (ofNodes [d.root.toNode]) ∧
      (Xml.allElements d.nodes).length + Xml.textCount d.nodes + Xml.noteCount d.nodes + 1 ≤
        limits.maxNodes.toNat ∧
      ((∀ limits' payload', (ofText limits' text).outcome = .ok payload' →
          d.partCount ≤ limits'.maxNodes.toNat) ↔
        Xml.attributeCount d.nodes ≤ Xml.noteCount d.nodes + 1) := by
  obtain ⟨hbytes, d, hread, hdepth, hpayload⟩ := outcome_ofText_eq_ok_iff.mp h
  obtain ⟨hd, hsize⟩ := Document.ofText_eq_ok_iff.mp hread
  refine ⟨d, hd, hpayload, ?_, ?_⟩
  · rwa [← Document.size_eq]
  · rw [← Document.partCount_le_size_iff]
    constructor
    · intro hall
      -- the lowest ceiling under which the text is read
      have hlimit : (UInt32.ofNat d.size).toNat = d.size :=
        UInt32.toNat_ofNat_of_lt' (Nat.lt_of_le_of_lt hsize limits.maxNodes.toNat_lt)
      have hread' : Document.ofText (UInt32.ofNat d.size).toNat text = .ok d :=
        Document.ofText_eq_ok_iff.mpr ⟨hd, Nat.le_of_eq hlimit.symm⟩
      have hlow : (ofText { limits with maxNodes := UInt32.ofNat d.size } text).outcome = .ok payload :=
        outcome_ofText_eq_ok_iff.mpr ⟨hbytes, d, hread', hdepth, hpayload⟩
      have hparts := hall _ _ hlow
      rwa [hlimit] at hparts
    · intro hparts limits' payload' h'
      obtain ⟨-, d', hread', -, -⟩ := outcome_ofText_eq_ok_iff.mp h'
      obtain ⟨hd', hsize'⟩ := Document.ofText_eq_ok_iff.mp hread'
      obtain rfl := hd.unique hd'
      exact Nat.le_trans hparts hsize'

/-- A document with an attribute, a text and a comment. -/
def notedAmount : String := "<Amount id=\"\">7<!----></Amount>"

theorem parts_within_ceiling_of_notedAmount : ∃ d : Document, d.IsOf notedAmount ∧
    d.partCount = 3 ∧ ∀ limits payload, (ofText limits notedAmount).outcome = .ok payload →
      d.partCount ≤ limits.maxNodes.toNat := by
  have hread : Document.ofText 1000000 notedAmount =
      .ok ⟨[], ⟨"Amount", [("id", "")], [.text "7", .comment]⟩, []⟩ := by cbv
  have hpayload := @outcome_ofText notedAmount _ {} (by decide +kernel) hread
    (by simp [Xml.Element.toNode, nesting])
  obtain ⟨d, hd, -, -, hiff⟩ := parts_within_ceiling_iff hpayload
  obtain rfl := hd.unique ⟨_, hread⟩
  refine ⟨_, hd, ?_, hiff.mpr ?_⟩
  · simp [Document.partCount, Document.nodes, Xml.Element.toNode, Xml.allElements, Xml.attributeCount,
      Xml.textCount]
  · simp [Document.nodes, Xml.Element.toNode, Xml.attributeCount, Xml.noteCount]

/-- An element with two attributes. -/
def twoAttributes : String := "<a b=\"\" c=\"\"/>"

/-- One element and two attributes are read where two nodes are allowed. -/
theorem not_parts_within_ceiling_of_twoAttributes : ∃ limits payload, ∃ d : Document,
    limits.maxNodes = 2 ∧ (ofText limits twoAttributes).outcome = .ok payload ∧
      Document.ofText limits.maxNodes.toNat twoAttributes = .ok d ∧
        limits.maxNodes.toNat < d.partCount := by
  have hread : Document.ofText 2 twoAttributes = .ok ⟨[], ⟨"a", [("b", ""), ("c", "")], []⟩, []⟩ := by
    cbv
  have hpayload := @outcome_ofText twoAttributes _ { maxNodes := 2 } (by decide +kernel) hread
    (by simp [Xml.Element.toNode, nesting])
  refine ⟨_, _, _, rfl, hpayload, hread, ?_⟩
  simp [Document.partCount, Document.nodes, Xml.Element.toNode, Xml.allElements, Xml.attributeCount,
    Xml.textCount]

end Payload

end StatementPress
