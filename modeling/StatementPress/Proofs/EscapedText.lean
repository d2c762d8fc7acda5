import Mathlib
import StatementPress.Proofs.Markup.Escaped
import StatementPress.Proofs.Payload.Nodes
import StatementPress.Proofs.Xml.Reading

/-!
# Escaped text is read back

A document of one element with an escaped string in it.  The reader accepts it whatever the string
is, and the text of the element is the string without the characters that no document may hold.  So
line ends, tabs, references and ends of literal sections come back as they were, and strings that
may stand in a document are told apart by their escaped forms.
-/

namespace StatementPress

open Markup

namespace Xml.Scanner

variable {limit count : Nat} {s rest : List Char}

/-- A closing tag without a qualifier closes the element of its name. -/
theorem closingTag_local (n : LocalName) (rest : List Char) :
    closingTag ⟨"", n.text⟩ ('<' :: '/' :: (n.text.toList ++ '>' :: rest)) = .ok ((), rest) := by
  have hname : name (n.text.toList ++ '>' :: rest) = _ :=
    name_local n fun c hc => by cases hc; rfl
  rw [closingTag, bind_of_ok (get_eq _), bind_of_ok (skip_eq _ _), List.drop_succ_cons,
    List.drop_succ_cons, List.drop_zero, bind_of_ok hname, bind_of_ok (skipSpaces_cons rfl _),
    bind_of_ok (char_cons _ _), if_neg (by simp)]
  rfl

/-- An element without attributes, and a passage in it. -/
theorem element_passage (n : LocalName) (p : Passage) (fuel : Nat) (rest : List Char)
    (hfuel : (p.chars ++ '<' :: '/' :: (n.text.toList ++ '>' :: rest)).length < fuel)
    (hlimit : count + 1 + nodeCount (readPassage p) ≤ limit) :
    element limit (fuel + 1) [] count
        ('<' :: (n.text.toList ++ '>' :: (p.chars ++ '<' :: '/' :: (n.text.toList ++ '>' :: rest)))) =
      .ok ((some ⟨n.text, [], readPassage p⟩, count + 1 + nodeCount (readPassage p)), rest) := by
  have hclose : ∀ b, ContentReads limit [] ⟨"", n.text⟩ b
      ('<' :: '/' :: (n.text.toList ++ '>' :: rest)) [] rest := by
    intro b fuel count hfuel _
    obtain ⟨fuel, rfl⟩ : ∃ k, fuel = k + 1 := ⟨fuel - 1, by omega⟩
    rw [content_closing, bind_of_ok (closingTag_local n rest), nodeCount]
    rfl
  have hinside := ContentReads.passage p hclose fun _ => rfl
  rw [List.append_nil] at hinside
  have hcontent := hinside fuel (count + 1) hfuel hlimit
  generalize p.chars ++ '<' :: '/' :: (n.text.toList ++ '>' :: rest) = inside at hfuel hcontent ⊢
  obtain ⟨fuel, rfl⟩ : ∃ k, fuel = k + 1 := ⟨fuel - 1, by omega⟩
  have hname : name (n.text.toList ++ '>' :: inside) = _ :=
    name_local n fun c hc => by cases hc; rfl
  have htag : tagRest (fuel + 1) {} ('>' :: inside) = .ok (({}, .opened), inside) := rfl
  rw [element, bind_of_ok (skip_eq _ _), List.drop_one, List.tail_cons, bind_of_ok (get_eq _),
    bind_of_ok hname, if_neg (by simp), bind_of_ok htag]
  dsimp only
  rw [if_neg (by simp), Scope.attributes, bind_of_ok (ofExcept_ok _ _), Scope.resolve,
    if_pos (by simp), bind_of_ok (ofExcept_ok _ _), bind_of_ok (countNode_of_lt (by omega) _),
    if_neg (by simp), List.append_nil, bind_of_ok hcontent]
  rfl

/-- A document that starts with the tag of an element, read without any limit on its start. -/
theorem document_element {n : LocalName} {root : Element} {kids : Nat} {inside : List Char}
    (helement : element limit (('<' :: (n.text.toList ++ inside)).length + 1) [] 1
      ('<' :: (n.text.toList ++ inside)) = .ok ((some root, kids), [])) :
    document limit ('<' :: (n.text.toList ++ inside)) = .ok (⟨[], root, []⟩, []) := by
  obtain ⟨c, cs, hcs⟩ := List.exists_cons_of_ne_nil (text_ne_nil n)
  -- the first character of a name starts neither a comment nor an instruction
  have hc : isNameStart c = true := by simpa [startsName, hcs] using startsName_text n
  have hne : ∀ d, isNameStart d = false → c ≠ d := by
    rintro d hd rfl
    rw [hc] at hd
    cases hd
  have hbang : c ≠ '!' := hne '!' rfl
  have hquestion : c ≠ '?' := hne '?' rfl
  rw [hcs, List.cons_append] at helement ⊢
  generalize hs : cs ++ inside = s at helement ⊢
  have hnext : ∀ expected : String, expected.toList.isPrefixOf ('<' :: c :: s) = false →
      comesNext expected ('<' :: c :: s) = .ok (false, '<' :: c :: s) := by
    intro expected h
    rw [comesNext, bind_of_ok (get_eq _), h]
    rfl
  have hmark := hnext "\uFEFF" rfl
  have hdeclaration := hnext "<?xml " (by simp [List.isPrefixOf, Ne.symm hquestion])
  have hcomment := hnext "<!--" (by simp [List.isPrefixOf, Ne.symm hbang])
  have hinstruction := hnext "<?" (by simp [List.isPrefixOf, Ne.symm hquestion])
  have hdoctype := hnext "<!DOCTYPE" (by simp [List.isPrefixOf, Ne.symm hbang])
  have htag : comesNext "<" ('<' :: c :: s) = .ok (true, '<' :: c :: s) := rfl
  have hspaces := skipSpaces_cons (c := '<') rfl (c :: s)
  have hmisc : ∀ fuel, misc limit (fuel + 1) 1 ('<' :: c :: s) = .ok (([], 1), '<' :: c :: s) := by
    intro fuel
    rw [misc, bind_of_ok hspaces, bind_of_ok hcomment, if_neg (by simp), bind_of_ok hinstruction,
      if_neg (by simp)]
    rfl
  have hend : ∀ fuel, misc limit (fuel + 1) kids [] = .ok (([], kids), []) := fun _ => rfl
  rw [document, bind_of_ok hmark, if_neg (by simp)]
  dsimp only
  rw [bind_of_ok hdeclaration, if_neg (by simp), bind_of_ok (get_eq _), bind_of_ok (hmisc _),
    bind_of_ok hspaces, bind_of_ok hdoctype, if_neg (by simp), bind_of_ok htag, if_pos rfl,
    bind_of_ok helement, bind_of_ok (hend _)]
  rfl

end Xml.Scanner

/-! ## One element -/

/-- The text of an element with an escaped string in it. -/
def textElement (name s : String) : String :=
  "<" ++ name ++ ">" ++ escape s ++ "</" ++ name ++ ">"

/-- The text nodes of an element whose text is `s`. -/
def textNodes (s : String) : List Xml.Node := if s = "" then [] else [.text s]

open Xml.Scanner

/-- What is kept of an escaped string is a text node, if there is any of it. -/
theorem readPassage_escaped (s : String) :
    readPassage (.escaped s) = textNodes (allowedPart s) := by
  have hchars : (Passage.escaped s).chars = [] ↔ allowedPart s = "" := by
    rw [Passage.chars_eq_nil_iff, ← List.map_eq_nil_iff (f := character), characters_escaped,
      allowedPart, String.ofList_eq_empty_iff]
  rw [readPassage, textNodes, contentText_escaped]
  simp only [hchars]

/-- A text has at most one node, and that node holds all of it. -/
theorem directText_textNodes (s : String) : Xml.directText (textNodes s) = s := by
  unfold textNodes
  split
  · rename_i h
    rw [h]
    rfl
  · simp [Xml.directText]

theorem nodeCount_textNodes_le (s : String) : Xml.nodeCount (textNodes s) ≤ 1 := by
  unfold textNodes
  split <;> simp [Xml.nodeCount]

theorem nesting_textNodes (s : String) : Xml.nesting (textNodes s) = 0 := by
  unfold textNodes
  split <;> simp [Xml.nesting]

theorem ofNodes_textNodes (s : String) : Payload.ofNodes (textNodes s) = [] := by
  unfold textNodes
  split <;> simp [Payload.ofNodes]

/-- The document of an element with a text in it. -/
def textDocument (name s : String) : Xml.Document := ⟨[], ⟨name, [], textNodes s⟩, []⟩

/-- Three nodes are enough: the document, the element and its text. -/
theorem ofText_textElement (n : LocalName) (s : String) {limit : Nat} (h : 3 ≤ limit) :
    Xml.Document.ofText limit (textElement n.text s) =
      .ok (textDocument n.text (allowedPart s)) := by
  have hcount := nodeCount_textNodes_le (allowedPart s)
  have htext : (textElement n.text s).toList = '<' :: (n.text.toList ++ '>' ::
      ((Passage.escaped s).chars ++ '<' :: '/' :: (n.text.toList ++ ['>']))) := by
    simp [textElement]
  have hfits : 1 + 1 + Xml.nodeCount (readPassage (.escaped s)) ≤ limit := by
    rw [readPassage_escaped]
    omega
  have helement := element_passage n (.escaped s) ('<' :: (n.text.toList ++ '>' ::
    ((Passage.escaped s).chars ++ '<' :: '/' :: (n.text.toList ++ ['>'])))).length []
    (by simp; omega) hfits
  rw [readPassage_escaped] at helement
  rw [Xml.Document.ofText, htext]
  simp only [StateT.run, document_element helement, textDocument]

/-- Read as a payload, the element is a text: the string, trimmed. -/
theorem outcome_ofText_textElement (n : LocalName) (s : String) {limits : Limits}
    (hbytes : Text.byteSize (textElement n.text s).toList ≤ limits.maxBytes.toNat)
    (hnodes : 3 ≤ limits.maxNodes.toNat) (hdepth : 1 ≤ limits.maxDepth.toNat) :
    (Payload.ofText limits (textElement n.text s)).outcome =
      .ok (.element [(n.text, .scalar (Text.trim (allowedPart s)))]) := by
  have hnesting : Xml.nesting [(textDocument n.text (allowedPart s)).root.toNode] = 1 := by
    simp [textDocument, Xml.Element.toNode, Xml.nesting, nesting_textNodes]
  rw [Payload.outcome_ofText hbytes (ofText_textElement n s hnodes) (by omega)]
  simp [textDocument, Xml.Element.toNode, Payload.ofNodes, ofNodes_textNodes, directText_textNodes,
    Payload.ofParts, Payload.group]

/-- **Escaped text is read back**, whatever the string is.  The element holds the string without the
characters that no document may hold, so a string without such characters comes back as it was, and
two such strings are escaped differently.  Read as a payload, the element is its text, trimmed. -/
theorem escaped_text_read_back (n : LocalName) (s : String) :
    (∀ limit, 3 ≤ limit →
      Xml.Document.ofText limit (textElement n.text s) =
        .ok ⟨[], ⟨n.text, [], textNodes (allowedPart s)⟩, []⟩) ∧
    Xml.directText (textNodes (allowedPart s)) = allowedPart s ∧
    (∀ limits : Limits,
      Text.byteSize (textElement n.text s).toList ≤ limits.maxBytes.toNat →
      3 ≤ limits.maxNodes.toNat → 1 ≤ limits.maxDepth.toNat →
        (Payload.ofText limits (textElement n.text s)).outcome =
          .ok (.element [(n.text, .scalar (Text.trim (allowedPart s)))])) ∧
    ((∀ c ∈ s.toList, Xml.isAllowed c = true) →
      allowedPart s = s ∧ ∀ s' : String, (∀ c ∈ s'.toList, Xml.isAllowed c = true) →
        escape s = escape s' → s = s') :=
  ⟨fun _ hlimit => ofText_textElement n s hlimit, directText_textNodes _,
    fun _ => outcome_ofText_textElement n s,
    fun hs => ⟨allowedPart_eq_self hs, fun _ hs' => eq_of_escape_eq hs hs'⟩⟩

/-- A string with line ends of three kinds, a tab, a reference and the end of a literal section. -/
def unusualText : String := "a\r\nb\rc\n\td&amp;]]>"

theorem escaped_text_read_back_of_unusualText :
    Xml.Document.ofText 3 (textElement "n" unusualText) =
        .ok ⟨[], ⟨"n", [], [.text unusualText]⟩, []⟩ ∧
      (Payload.ofText {} (textElement "n" unusualText)).outcome =
        .ok (.element [("n", .scalar unusualText)]) := by
  obtain ⟨hread, -, hpayload, hallowed⟩ := escaped_text_read_back (named "n") unusualText
  obtain ⟨hsame, -⟩ := hallowed (List.all_eq_true.mp (by decide))
  have hnodes := hread 3 (Nat.le_refl 3)
  have htext := hpayload {} (by decide +kernel) (by decide) (by decide)
  rw [hsame] at hnodes htext
  exact ⟨hnodes, htext⟩

end StatementPress
