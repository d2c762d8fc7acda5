import StatementPress.Proofs.Markup.Layout
import StatementPress.Proofs.Xml.Scanning

/-!
# Reading what markup writes

The reader run on the text of a tree.  `ContentReads` says that some text is read, as the content of
an element, into given document nodes.  It holds of a closing tag, and it is kept by putting a
passage, a single tag or an element in front; so by induction on the tree it holds of whatever
`Node.write` writes, with the nodes that `Node.read` names.

Whether a text node comes just before matters to text only, so statements about tags hold for both
values of `afterText`.
-/

namespace StatementPress.Xml.Scanner

open Markup

/-- Reading `s` as what is left of the content of element `n` gives `nodes` and leaves `rest`, as
long as the nodes stay within the limit. -/
def ContentReads (limit : Nat) (scope : Scope) (n : Name) (afterText : Bool) (s : List Char)
    (nodes : List Xml.Node) (rest : List Char) : Prop :=
  ∀ fuel count, s.length < fuel → count + nodeCount nodes ≤ limit →
    content limit fuel scope n afterText count s = .ok ((nodes, count + nodeCount nodes), rest)

section
variable {limit count : Nat} {scope : Scope} {n : Name} {nodes kids : List Xml.Node}
  {s tail rest : List Char}

/-! ## What the next characters decide -/

theorem content_text {c : Char} (h : c ≠ '<') (fuel count : Nat) (s : List Char) :
    content limit (fuel + 1) scope n false count (c :: s) =
      (do
        let t ← plainText
        let count ← countNode limit count
        let (rest, count) ← content limit fuel scope n true count
        pure (joinText t rest, count) : Scanner _) (c :: s) := by
  rw [content, bind_of_ok (get_eq _)]
  split <;> simp_all

theorem content_closing (b : Bool) (fuel count : Nat) (s : List Char) :
    content limit (fuel + 1) scope n b count ('<' :: '/' :: s) =
      (do
        closingTag n
        pure ([], count) : Scanner _) ('<' :: '/' :: s) := by
  rw [content, bind_of_ok (get_eq _)]
  rfl

theorem content_element (b : Bool) (fuel count : Nat) (s : List Char) :
    content limit (fuel + 1) scope n b count ('<' :: 'f' :: s) =
      (do
        match ← element limit fuel scope count with
        | (none, _) => failHere .unclosedRoot
        | (some e, count) => do
          let (rest, count) ← content limit fuel scope n false count
          pure (e.toNode :: rest, count) : Scanner _) ('<' :: 'f' :: s) := by
  rw [content, bind_of_ok (get_eq _)]
  rfl

/-! ## The parts of content -/

/-- A closing tag ends the content. -/
theorem contentReads_closing (name : LocalName) (b : Bool) (rest : List Char) :
    ContentReads limit scope ⟨"fo", name.text⟩ b (writeClosing name ++ rest) [] rest := by
  intro fuel count hfuel _
  obtain ⟨fuel, rfl⟩ : ∃ k, fuel = k + 1 := ⟨fuel - 1, by omega⟩
  have hclose := closingTag_writeClosing name rest
  obtain ⟨s, hs⟩ : ∃ s, writeClosing name ++ rest = '<' :: '/' :: s := ⟨_, rfl⟩
  rw [hs] at hclose ⊢
  rw [content_closing, bind_of_ok hclose, nodeCount]
  rfl

/-- A passage in front becomes a text node, if it holds anything. -/
theorem ContentReads.passage (p : Passage)
    (h : ∀ b, ContentReads limit scope n b ('<' :: tail) nodes rest)
    (hjoin : ∀ s, joinText s nodes = .text s :: nodes) :
    ContentReads limit scope n false (p.chars ++ '<' :: tail) (readPassage p ++ nodes) rest := by
  intro fuel count hfuel hlimit
  cases hp : p.chars with
  -- an empty passage leaves no text node
  | nil =>
    rw [hp] at hfuel
    rw [readPassage, if_pos hp] at hlimit ⊢
    exact h false fuel count hfuel hlimit
  | cons c cs =>
    have hc : c ≠ '<' := ne_of_isInert (Passage.isInert_of_mem_chars (p := p) (by simp [hp])) rfl
    have hplain := plainText_chars p tail
    have hcount : nodeCount (readPassage p ++ nodes) = 1 + nodeCount nodes := by
      rw [readPassage, if_neg (by simp [hp]), List.singleton_append, nodeCount]
      simp
    rw [hp] at hfuel hplain
    rw [hcount] at hlimit ⊢
    obtain ⟨fuel, rfl⟩ : ∃ k, fuel = k + 1 := ⟨fuel - 1, by omega⟩
    have htail := h true fuel (count + 1) (by simp at hfuel ⊢; omega) (by omega)
    rw [List.cons_append] at hplain ⊢
    rw [content_text hc, bind_of_ok hplain, bind_of_ok (countNode_of_lt (by omega) _),
      bind_of_ok htail, readPassage, if_neg (by simp [hp])]
    dsimp only
    rw [hjoin, Nat.add_assoc]
    rfl

/-! ## Elements -/

theorem resolve_qualifier (h : (scope.lookup "fo").isSome) (s : List Char) :
    ∃ uri, scope.resolve "fo" s = .ok uri := by
  obtain ⟨uri, huri⟩ := Option.isSome_iff_exists.mp h
  exact ⟨some uri, by simp [Scope.resolve, huri]⟩

/-- After the name of a tag comes no character of a name. -/
theorem not_isNameChar_head (entries : List (LocalName × Passage)) {s : List Char}
    (h : ∀ c ∈ s.head?, isNameChar c = false) :
    ∀ c ∈ (entries.flatMap writeAttribute ++ s).head?, isNameChar c = false := by
  cases entries with
  | nil => exact h
  | cons a entries =>
    intro c hc
    cases hc
    rfl

/-- A tag that ends: its attributes are kept, and what is in the element is read if it has any. -/
theorem element_tag (name : LocalName) (as : Attributes) {fuel count : Nat} {tagEnd : TagEnd}
    (hhead : ∀ c ∈ tail.head?, isNameChar c = false)
    (htag : tagRest fuel {} (as.entries.flatMap writeAttribute ++ tail) =
      .ok ((⟨[], scanned tail as.entries⟩, tagEnd), rest)) (hend : tagEnd ≠ .cut)
    (hscope : (scope.lookup "fo").isSome) (hlimit : count < limit) :
    element limit (fuel + 1) scope count ('<' :: (writeTag name as ++ tail)) =
      (if tagEnd = .closed then pure (some ⟨name.text, as.read, []⟩, count + 1)
      else do
        let (children, count) ← content limit fuel scope ⟨"fo", name.text⟩ false (count + 1)
        pure (some ⟨name.text, as.read, children⟩, count) : Scanner _) rest := by
  have hname := name_qualified name (not_isNameChar_head as.entries hhead)
  obtain ⟨uri, huri⟩ := resolve_qualifier hscope (writeTag name as ++ tail)
  have hshape : writeTag name as ++ tail =
      qualifierChars ++ (name.text.toList ++ (as.entries.flatMap writeAttribute ++ tail)) := by
    simp [writeTag]
  rw [element, bind_of_ok (skip_eq _ _), List.drop_one, List.tail_cons, bind_of_ok (get_eq _)]
  rw [hshape] at huri ⊢
  rw [bind_of_ok hname, if_neg (by simp), bind_of_ok htag]
  dsimp only
  rw [if_neg hend, List.nil_append, attributes_scanned, bind_of_ok (ofExcept_ok _ _), huri,
    bind_of_ok (ofExcept_ok _ _), bind_of_ok (countNode_of_lt hlimit _)]

/-- The opening tag of an element that has content. -/
theorem element_opened (name : LocalName) (as : Attributes) {fuel count : Nat} (s : List Char)
    (hscope : (scope.lookup "fo").isSome) (hfuel : as.entries.length < fuel)
    (hlimit : count < limit) :
    element limit (fuel + 1) scope count ('<' :: (writeTag name as ++ '>' :: s)) =
      (do
        let (children, count) ← content limit fuel scope ⟨"fo", name.text⟩ false (count + 1)
        pure (some ⟨name.text, as.read, children⟩, count) : Scanner _) s := by
  have hhead : ∀ c ∈ ('>' :: s).head?, isNameChar c = false := fun c hc => by
    cases hc
    rfl
  rw [element_tag name as hhead (tagRest_opened hfuel s) (by simp) hscope hlimit, if_neg (by simp)]

/-- The tag of an element that has no content. -/
theorem element_closed (name : LocalName) (as : Attributes) {fuel count : Nat} (spaced : Bool)
    (s : List Char) (hscope : (scope.lookup "fo").isSome) (hfuel : as.entries.length < fuel)
    (hlimit : count < limit) :
    element limit (fuel + 1) scope count
        ('<' :: (writeTag name as ++ ((if spaced then [' '] else []) ++ '/' :: '>' :: s))) =
      .ok ((some ⟨name.text, as.read, []⟩, count + 1), s) := by
  have hhead : ∀ c ∈ ((if spaced then [' '] else []) ++ '/' :: '>' :: s).head?,
      isNameChar c = false := fun c hc => by
    cases spaced <;> cases hc <;> rfl
  rw [element_tag name as hhead (tagRest_closed hfuel spaced s) (by simp) hscope hlimit, if_pos rfl]
  rfl

/-- Each attribute takes at least one character, so the fuel for attributes never runs out. -/
theorem length_flatMap_writeAttribute (entries : List (LocalName × Passage)) :
    entries.length ≤ (entries.flatMap writeAttribute).length := by
  induction entries with
  | nil => exact Nat.le_refl _
  | cons a entries ih =>
    rw [List.flatMap_cons, List.length_append, List.length_cons, writeAttribute]
    simp only [List.cons_append, List.length_cons]
    omega

theorem length_lt_writeTag (name : LocalName) (as : Attributes) :
    as.entries.length < (writeTag name as).length := by
  have hentries := length_flatMap_writeAttribute as.entries
  simp only [writeTag, qualifierChars, List.length_append, List.length_cons, List.length_nil]
  omega

theorem nodeCount_element_cons (name : String) (as : List (String × String))
    (kids nodes : List Xml.Node) :
    nodeCount (.element name as kids :: nodes) = 1 + nodeCount kids + nodeCount nodes := by
  rw [nodeCount]

/-- An element in front, with what its content is read into. -/
theorem ContentReads.opened (hscope : (scope.lookup "fo").isSome) (name : LocalName)
    (as : Attributes) {inner : List Char} {kids : List Xml.Node}
    (hinner : ContentReads limit scope ⟨"fo", name.text⟩ false inner kids tail)
    (hlength : tail.length ≤ inner.length)
    (h : ContentReads limit scope n false tail nodes rest) (b : Bool) :
    ContentReads limit scope n b ('<' :: (writeTag name as ++ '>' :: inner))
      (.element name.text as.read kids :: nodes) rest := by
  intro fuel count hfuel hlimit
  have htag := length_lt_writeTag name as
  rw [nodeCount_element_cons] at hlimit ⊢
  simp only [List.length_cons, List.length_append] at hfuel
  obtain ⟨fuel, rfl⟩ : ∃ k, fuel = k + 1 + 1 := ⟨fuel - 2, by omega⟩
  have hkids := hinner fuel (count + 1) (by omega) (by omega)
  -- the element takes its content and leaves `tail` to what comes after it
  have helement : element limit (fuel + 1) scope count ('<' :: (writeTag name as ++ '>' :: inner)) =
      .ok ((some ⟨name.text, as.read, kids⟩, count + 1 + nodeCount kids), tail) := by
    rw [element_opened name as inner hscope (by omega) (by omega), bind_of_ok hkids]
    rfl
  have htail := h (fuel + 1) (count + 1 + nodeCount kids) (by omega) (by omega)
  obtain ⟨s, hs⟩ : ∃ s, writeTag name as ++ '>' :: inner = 'f' :: s := ⟨_, rfl⟩
  rw [hs] at helement ⊢
  rw [content_element, bind_of_ok helement]
  dsimp only
  rw [bind_of_ok htail, Element.toNode, Nat.add_assoc, Nat.add_assoc, ← Nat.add_assoc 1]
  rfl

/-- An element of a single tag in front. -/
theorem ContentReads.closed (hscope : (scope.lookup "fo").isSome) (name : LocalName)
    (as : Attributes) (spaced : Bool) (h : ContentReads limit scope n false tail nodes rest)
    (b : Bool) :
    ContentReads limit scope n b
      ('<' :: (writeTag name as ++ ((if spaced then [' '] else []) ++ '/' :: '>' :: tail)))
      (.element name.text as.read [] :: nodes) rest := by
  intro fuel count hfuel hlimit
  have htag := length_lt_writeTag name as
  rw [nodeCount_element_cons, nodeCount] at hlimit ⊢
  simp only [List.length_cons, List.length_append] at hfuel
  obtain ⟨fuel, rfl⟩ : ∃ k, fuel = k + 1 + 1 := ⟨fuel - 2, by omega⟩
  have helement : element limit (fuel + 1) scope count
      ('<' :: (writeTag name as ++ ((if spaced then [' '] else []) ++ '/' :: '>' :: tail))) = _ :=
    element_closed name as spaced tail hscope (by omega) (by omega)
  have htail := h (fuel + 1) (count + 1) (by omega) (by omega)
  obtain ⟨s, hs⟩ : ∃ s, writeTag name as ++ ((if spaced then [' '] else []) ++ '/' :: '>' :: tail) =
    'f' :: s := ⟨_, rfl⟩
  rw [hs] at helement ⊢
  rw [content_element, bind_of_ok helement]
  dsimp only
  rw [bind_of_ok htail, Element.toNode, Nat.add_zero, ← Nat.add_assoc]
  rfl

/-! ## Trees -/

theorem joinText_element (name : String) (as : List (String × String)) (kids : List Xml.Node)
    (s : String) :
    joinText s (.element name as kids :: nodes) = .text s :: .element name as kids :: nodes := rfl

mutual

/-- What one tree writes is read as its nodes, before whatever else is read. -/
theorem contentReads_write (hscope : (scope.lookup "fo").isSome) : ∀ (node : Markup.Node)
    {n : Name} {tail rest : List Char} {nodes : List Xml.Node},
    ContentReads limit scope n false tail nodes rest →
      ContentReads limit scope n false (node.write ++ tail) (node.read ++ nodes) rest
  | .element before name as children text, n, tail, rest, nodes, h => by
    -- from the end of the element to its start, each part in front of what follows it
    have hclose : ∀ b, ContentReads limit scope ⟨"fo", name.text⟩ b (writeClosing name ++ tail) []
        tail := fun b => contentReads_closing name b tail
    have htext := ContentReads.passage text hclose fun _ => rfl
    have hinner := contentReads_writeAll hscope children htext
    have helement := ContentReads.opened hscope name as hinner (by simp; omega) h
    have hbefore := ContentReads.passage before helement (joinText_element _ _ _)
    simpa [Markup.Node.write, Markup.Node.read, writeClosing] using hbefore
  | .leaf before name as spaced, n, tail, rest, nodes, h => by
    have hleaf := ContentReads.closed hscope name as spaced h
    have hbefore := ContentReads.passage before hleaf (joinText_element _ _ _)
    simpa [Markup.Node.write, Markup.Node.read] using hbefore

/-- **What markup writes is read as the nodes of its tree**, whatever its passages hold. -/
theorem contentReads_writeAll (hscope : (scope.lookup "fo").isSome) :
    ∀ (children : List Markup.Node) {n : Name} {tail rest : List Char} {nodes : List Xml.Node},
    ContentReads limit scope n false tail nodes rest →
      ContentReads limit scope n false (Markup.Node.writeAll children ++ tail)
        (Markup.Node.readAll children ++ nodes) rest
  | [], _, _, _, _, h => h
  | node :: children, n, tail, rest, nodes, h => by
    have hrest := contentReads_writeAll hscope children h
    have hnode := contentReads_write hscope node hrest
    simpa [Markup.Node.writeAll, Markup.Node.readAll] using hnode

end

/-! ## Documents -/

open Compile

/-- The nodes in the outermost element of a document. -/
def rootChildren (nodes : List Markup.Node) : List Xml.Node :=
  Markup.Node.readAll nodes ++ readPassage (.fixed "\n")

/-- What a document is read as. -/
def documentOf (nodes : List Markup.Node) : Document := ⟨[], ⟨"root", [], rootChildren nodes⟩, []⟩

/-- What stands in the outermost element is read up to its closing tag. -/
theorem contentReads_root (nodes : List Markup.Node) :
    ContentReads limit [("fo", namespaceUri)] ⟨"fo", "root"⟩ false
      (Markup.Node.writeAll nodes ++ '\n' :: (writeClosing (named "root") ++ ['\n']))
      (rootChildren nodes) ['\n'] := by
  have hclose : ∀ b, ContentReads limit [("fo", namespaceUri)] ⟨"fo", "root"⟩ b
      (writeClosing (named "root") ++ ['\n']) [] ['\n'] := fun b =>
    contentReads_closing (named "root") b ['\n']
  have hend := ContentReads.passage (.fixed "\n") hclose fun _ => rfl
  rw [List.append_nil] at hend
  exact contentReads_writeAll rfl nodes hend

/-- The declaration of the qualifier of all elements, as the outermost tag has it. -/
theorem tagRest_root (fuel : Nat) (s : List Char) :
    tagRest (fuel + 2) {} (rootStart.drop 8 ++ s) =
      .ok ((⟨[("fo", namespaceUri)], []⟩, .opened), s) := rfl

/-- The outermost element declares the qualifier of all elements. -/
theorem element_root {fuel count : Nat} {inside : List Char}
    (hinside : ContentReads limit [("fo", namespaceUri)] ⟨"fo", "root"⟩ false inside kids rest)
    (hne : inside ≠ []) (hfuel : inside.length < fuel)
    (hlimit : count + 1 + nodeCount kids ≤ limit) :
    element limit (fuel + 1) [] count (rootStart ++ inside) =
      .ok ((some ⟨"root", [], kids⟩, count + 1 + nodeCount kids), rest) := by
  have hroot := hinside fuel (count + 1) hfuel hlimit
  have hlength := List.length_pos_iff.mpr hne
  obtain ⟨k, rfl⟩ : ∃ k, fuel = k + 2 := ⟨fuel - 2, by omega⟩
  have hname : name (rootStart.drop 1 ++ inside) =
      .ok (⟨"fo", "root"⟩, rootStart.drop 8 ++ inside) := rfl
  have htag := tagRest_root k inside
  have hshape : (rootStart ++ inside).drop 1 = rootStart.drop 1 ++ inside := rfl
  have hresolve : Scope.resolve [("fo", namespaceUri)] "fo" (rootStart.drop 1 ++ inside) =
      .ok (some namespaceUri) := rfl
  rw [element, bind_of_ok (skip_eq _ _), hshape, bind_of_ok (get_eq _), bind_of_ok hname,
    if_neg (by simp), bind_of_ok htag]
  dsimp only
  rw [if_neg (by simp), List.append_nil, Scope.attributes, bind_of_ok (ofExcept_ok _ _), hresolve,
    bind_of_ok (ofExcept_ok _ _), bind_of_ok (countNode_of_lt (by omega) _), if_neg (by simp),
    bind_of_ok hroot]
  rfl

theorem declaration_append (s : List Char) :
    declaration (declarationText.toList ++ s) = .ok ((), s) := rfl

/-- Between the declaration and the outermost element stands a line feed only. -/
theorem misc_beforeRoot (fuel count : Nat) (s : List Char) :
    misc limit (fuel + 1) count ('\n' :: (rootStart ++ s)) = .ok (([], count), rootStart ++ s) := rfl

theorem misc_afterRoot (fuel count : Nat) :
    misc limit (fuel + 1) count ['\n'] = .ok (([], count), []) := rfl

/-- A document is read if its outermost element is. -/
theorem document_documentChars (s : List Char)
    (hroot : ∀ fuel, s.length < fuel → element limit (fuel + 1) [] 1 (rootStart ++ s) =
      .ok ((some ⟨"root", [], kids⟩, count), ['\n'])) :
    document limit (declarationText.toList ++ '\n' :: (rootStart ++ s)) =
      .ok (⟨[], ⟨"root", [], kids⟩, []⟩, []) := by
  have hmark : comesNext "\uFEFF" (declarationText.toList ++ '\n' :: (rootStart ++ s)) =
      .ok (false, declarationText.toList ++ '\n' :: (rootStart ++ s)) := rfl
  have hdeclared : comesNext "<?xml " (declarationText.toList ++ '\n' :: (rootStart ++ s)) =
      .ok (true, declarationText.toList ++ '\n' :: (rootStart ++ s)) := rfl
  have hspaces : skipSpaces (rootStart ++ s) = .ok ((), rootStart ++ s) := rfl
  have hdoctype : comesNext "<!DOCTYPE" (rootStart ++ s) = .ok (false, rootStart ++ s) := rfl
  have htag : comesNext "<" (rootStart ++ s) = .ok (true, rootStart ++ s) := rfl
  have hlength : s.length < ('\n' :: (rootStart ++ s)).length := by
    simp only [List.length_cons, List.length_append]
    omega
  rw [document, bind_of_ok hmark, if_neg (by simp)]
  dsimp only
  rw [bind_of_ok hdeclared, if_pos rfl, bind_of_ok (declaration_append _), bind_of_ok (get_eq _)]
  rw [bind_of_ok (misc_beforeRoot _ _ _), bind_of_ok hspaces, bind_of_ok hdoctype, if_neg (by simp),
    bind_of_ok htag, if_pos rfl, bind_of_ok (hroot _ hlength), bind_of_ok (misc_afterRoot _ _)]
  rfl

/-- **The reader accepts the document of any trees**, if it may have as many nodes as that. -/
theorem ofText_documentChars {text : String} {nodes : List Markup.Node}
    (h : text.toList = documentChars nodes) (hlimit : (documentOf nodes).size ≤ limit) :
    Document.ofText limit text = .ok (documentOf nodes) := by
  have hlimit : 1 + 1 + nodeCount (rootChildren nodes) ≤ limit := by
    simp only [Document.size, documentOf, Element.toNode, nodeCount] at hlimit
    omega
  have hshape : documentChars nodes = declarationText.toList ++ '\n' :: (rootStart ++
      (Markup.Node.writeAll nodes ++ '\n' :: (writeClosing (named "root") ++ ['\n']))) := by
    simp only [documentChars, List.append_assoc, List.cons_append]
  have hdocument := document_documentChars _ fun _ hfuel =>
    element_root (contentReads_root nodes) (by simp) hfuel hlimit
  rw [← hshape, ← h] at hdocument
  simp only [Document.ofText, StateT.run, hdocument, documentOf]

end

end StatementPress.Xml.Scanner
