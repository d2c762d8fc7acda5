import StatementPress.Proofs.Markup.Tree
import StatementPress.Proofs.Outcome
import StatementPress.Xml.Reader

/-!
# Scanning the parts of markup

What each scanner below the level of elements does with the text that markup writes for it: names,
attributes, the ends of tags, closing tags and passages.  Every statement leaves open what follows,
so the statements chain along a document.
-/

namespace StatementPress.Xml.Scanner

open Markup

variable {α β : Type} {s s' rest : List Char}

/-! ## Steps -/

/-- After a scanner that succeeds the next one goes on with the rest. -/
theorem bind_of_ok {x : Scanner α} {a : α} (h : x s = .ok (a, s')) (f : α → Scanner β) :
    (x >>= f) s = f a s' := by
  change (x s >>= fun p => f p.1 p.2) = f a s'
  rw [h]
  rfl

theorem get_eq (s : List Char) : (get : Scanner (List Char)) s = .ok (s, s) := rfl

theorem next_cons (c : Char) (s : List Char) : next (c :: s) = .ok (c, c :: s) := rfl

theorem skip_eq (n : Nat) (s : List Char) : skip n s = .ok ((), s.drop n) := rfl

theorem ofExcept_ok (a : α) (s : List Char) : ofExcept (.ok a) s = .ok (a, s) := rfl

theorem char_cons (c : Char) (s : List Char) : char c (c :: s) = .ok ((), s) := by
  rw [char, bind_of_ok (next_cons c s), if_pos rfl]
  rfl

theorem quote_cons (s : List Char) : quote ('"' :: s) = .ok ('"', s) := rfl

theorem skipSpaces_cons {c : Char} (h : isSpace c = false) (s : List Char) :
    skipSpaces (c :: s) = .ok ((), c :: s) := by
  change Except.ok ((), (c :: s).dropWhile isSpace) = _
  rw [List.dropWhile_cons_of_neg (by simp [h])]

/-- Below the limit one more node is counted. -/
theorem countNode_of_lt {limit count : Nat} (h : count < limit) (s : List Char) :
    countNode limit count s = .ok (count + 1, s) := by
  rw [countNode, if_neg (by omega)]
  rfl

/-- Reading stops at the first character at which it does not go on. -/
theorem charsWhile_append {go : List Char → Bool} {cs : List Char} {c : Char}
    (h : ∀ d ∈ cs, isAllowed d = true ∧ ∀ t, go (d :: t) = true) (hc : isAllowed c = true)
    (hstop : go (c :: rest) = false) : charsWhile go (cs ++ c :: rest) = .ok (cs, c :: rest) := by
  induction cs with
  | nil => simp [charsWhile, hc, hstop]
  | cons d cs ih =>
    obtain ⟨hd, hgo⟩ := h d List.mem_cons_self
    have ih := ih fun e he => h e (List.mem_cons_of_mem d he)
    simp [charsWhile, hd, hgo, ih]

/-! ## Names -/

/-- Whether a character goes on a part of a name. -/
def isPart (c : Char) : Bool := c ≠ ':' && isNameChar c

theorem isPart_of_mem (n : LocalName) {c : Char} (h : c ∈ n.text.toList) : isPart c = true := by
  have hn := n.isName
  simp only [isLocalName, Bool.and_eq_true] at hn
  simpa [isPart] using List.all_eq_true.mp hn.2 c h

/-- What goes on a name means nothing else in a tag. -/
theorem special_of_isPart {c : Char} (h : isPart c = true) :
    isSpace c = false ∧ c ≠ '/' ∧ c ≠ '>' := by
  have hne : ∀ d, isPart d = false → c ≠ d := by
    rintro d hd rfl
    rw [h] at hd
    cases hd
  refine ⟨?_, hne '/' rfl, hne '>' rfl⟩
  simp [isSpace, hne ' ' rfl, hne '\t' rfl, hne '\n' rfl, hne '\r' rfl]

theorem startsName_text (n : LocalName) : startsName n.text.toList = true := by
  have hn := n.isName
  simp only [isLocalName, Bool.and_eq_true] at hn
  unfold startsName
  cases hs : n.text.toList with
  | nil => rfl
  | cons c cs => simpa [hs] using hn.1.2

theorem text_ne_nil (n : LocalName) : n.text.toList ≠ [] := by
  have hn := n.isName
  simp only [isLocalName, Bool.and_eq_true] at hn
  intro hs
  simp [hs] at hn

/-- No local name declares a namespace. -/
theorem text_ne_xmlns (n : LocalName) : n.text ≠ "xmlns" := by
  have hn := n.isName
  simp only [isLocalName, Bool.and_eq_true, bne_iff_ne] at hn
  exact hn.1.1

/-- A part of a name ends where the name does. -/
theorem takeWhile_isPart (n : LocalName) (h : ∀ c ∈ rest.head?, isPart c = false) :
    (n.text.toList ++ rest).takeWhile isPart = n.text.toList ∧
      (n.text.toList ++ rest).dropWhile isPart = rest := by
  have hall : ∀ c ∈ n.text.toList, isPart c = true := fun c hc => isPart_of_mem n hc
  rw [List.takeWhile_append_of_pos hall, List.dropWhile_append_of_pos hall]
  cases rest with
  | nil => simp
  | cons c rest =>
    have hc : isPart c = false := h c rfl
    simp [hc]

/-- A name without a qualifier. -/
theorem name_local (n : LocalName) (h : ∀ c ∈ rest.head?, isNameChar c = false) :
    name (n.text.toList ++ rest) = .ok (⟨"", n.text⟩, rest) := by
  have hpart : ∀ c ∈ rest.head?, isPart c = false := fun c hc => by simp [isPart, h c hc]
  obtain ⟨htake, hdrop⟩ := takeWhile_isPart n hpart
  have hne : n.text ≠ "" := fun he => text_ne_nil n (by rw [he]; rfl)
  rw [name, bind_of_ok (get_eq _)]
  dsimp only
  rw [show List.dropWhile (fun c => decide (c ≠ ':') && isNameChar c)
    (n.text.toList ++ rest) = rest from hdrop]
  split
  · -- a colon would go on the name
    have hcolon : isNameChar ':' = false := h ':' rfl
    cases hcolon
  · rw [show (List.takeWhile (fun c => decide (c ≠ ':') && isNameChar c)
      (n.text.toList ++ rest)) = n.text.toList from htake]
    simp only [startsName_text n, String.ofList_toList]
    rw [if_neg (by simp [hne])]
    rfl

/-- A name with the qualifier of all elements. -/
theorem name_qualified (n : LocalName) (h : ∀ c ∈ rest.head?, isNameChar c = false) :
    name (qualifierChars ++ (n.text.toList ++ rest)) = .ok (⟨"fo", n.text⟩, rest) := by
  have hpart : ∀ c ∈ rest.head?, isPart c = false := fun c hc => by simp [isPart, h c hc]
  obtain ⟨htake, hdrop⟩ := takeWhile_isPart n hpart
  have hne : n.text ≠ "" := fun he => text_ne_nil n (by rw [he]; rfl)
  have hcolon : rest.head? ≠ some ':' := by
    intro hr
    have hc : isNameChar ':' = false := h ':' hr
    cases hc
  rw [name, bind_of_ok (get_eq _)]
  change (if (List.dropWhile isPart (n.text.toList ++ rest)).head? = some ':' ∨
      (!startsName ['f', 'o']) = true ∨
      (List.takeWhile isPart (n.text.toList ++ rest)).isEmpty = true ∨
      (!startsName (List.takeWhile isPart (n.text.toList ++ rest))) = true then
    failHere .invalidName
  else do
    set (List.dropWhile isPart (n.text.toList ++ rest))
    pure ⟨"fo", String.ofList (List.takeWhile isPart (n.text.toList ++ rest))⟩ : Scanner Name) _ = _
  rw [htake, hdrop, if_neg (by simp [hcolon, startsName_text n, hne]; rfl), String.ofList_toList]
  rfl

/-! ## Attributes -/

/-- Characters of a passage are read on to a stop character that ends it. -/
theorem charsWhile_chars {go : List Char → Bool} {c : Char} (p : Passage)
    (hgo : ∀ d, isInert d = true → ∀ t, go (d :: t) = true) (hc : isAllowed c = true)
    (hstop : go (c :: rest) = false) :
    charsWhile go (p.chars ++ c :: rest) = .ok (p.chars, c :: rest) := by
  refine charsWhile_append (fun d hd => ?_) hc hstop
  have hd : isInert d = true := Passage.isInert_of_mem_chars hd
  refine ⟨?_, hgo d hd⟩
  simp only [isInert, Bool.and_eq_true] at hd
  exact hd.1.1.1

theorem ne_of_isInert {c d : Char} (h : isInert c = true) (hd : isInert d = false) : c ≠ d := by
  rintro rfl
  rw [h] at hd
  cases hd

/-- What `writeAttribute` writes, the blank apart, is one attribute. -/
theorem attributeParts_eq (a : LocalName × Passage) (rest : List Char) :
    attributeParts (a.1.text.toList ++ '=' :: '"' :: (a.2.chars ++ '"' :: rest)) =
      .ok ((⟨"", a.1.text⟩, a.2.chars ++ '"' :: rest, a.2.chars), rest) := by
  have hname : name (a.1.text.toList ++ '=' :: '"' :: (a.2.chars ++ '"' :: rest)) = _ :=
    name_local a.1 fun c hc => by cases hc; rfl
  have hvalue : charsWhile (fun s => s.head? ≠ some '"' && s.head? ≠ some '<')
      (a.2.chars ++ '"' :: rest) = .ok (a.2.chars, '"' :: rest) := by
    refine charsWhile_chars a.2 (fun d hd t => ?_) rfl (by simp)
    have hquote : d ≠ '"' := ne_of_isInert hd rfl
    have hless : d ≠ '<' := ne_of_isInert hd rfl
    simp [hquote, hless]
  rw [attributeParts, bind_of_ok hname, bind_of_ok (skipSpaces_cons rfl _),
    bind_of_ok (char_cons _ _), bind_of_ok (skipSpaces_cons rfl _), bind_of_ok (quote_cons _),
    bind_of_ok (get_eq _), bind_of_ok hvalue, bind_of_ok (char_cons _ _)]
  rfl

/-! ## Tags -/

/-- The attributes that a tag gets from written ones, before `tail`. -/
def scanned (tail : List Char) : List (LocalName × Passage) → List Attribute
  | [] => []
  | a :: rest =>
    ⟨⟨"", a.1.text⟩, a.2.valueText,
      (writeAttribute a ++ rest.flatMap writeAttribute ++ tail).drop 1⟩ ::
      scanned tail rest

theorem add_local (tag : Tag) (n : LocalName) (value : String) (start : List Char) :
    tag.add ⟨⟨"", n.text⟩, value, start⟩ =
      .ok { tag with attributes := tag.attributes ++ [⟨⟨"", n.text⟩, value, start⟩] } := by
  rw [Tag.add]
  simp [text_ne_xmlns n]

/-- One turn of reading a tag: an attribute is added. -/
theorem tagRest_attribute (fuel : Nat) (tag : Tag) (a : LocalName × Passage) (rest : List Char) :
    tagRest (fuel + 1) tag (writeAttribute a ++ rest) =
      tagRest fuel { tag with attributes := tag.attributes ++
        [⟨⟨"", a.1.text⟩, a.2.valueText, (writeAttribute a ++ rest).drop 1⟩] } rest := by
  obtain ⟨c, cs, hcs⟩ : ∃ c cs, a.1.text.toList = c :: cs :=
    List.exists_cons_of_ne_nil (text_ne_nil a.1)
  have hc : isPart c = true := isPart_of_mem a.1 (by rw [hcs]; exact List.mem_cons_self)
  obtain ⟨hspace, hslash, hclose⟩ := special_of_isPart hc
  have htext : writeAttribute a ++ rest =
      ' ' :: (a.1.text.toList ++ '=' :: '"' :: (a.2.chars ++ '"' :: rest)) := by
    simp [writeAttribute]
  have hskip : skipSpaces (' ' :: (a.1.text.toList ++ '=' :: '"' :: (a.2.chars ++ '"' :: rest))) =
      .ok ((), a.1.text.toList ++ '=' :: '"' :: (a.2.chars ++ '"' :: rest)) := by
    change Except.ok ((), List.dropWhile isSpace _) = _
    rw [hcs, List.dropWhile_cons_of_pos (by rfl), List.cons_append,
      List.dropWhile_cons_of_neg (by simp [hspace])]
  have hnext : next (a.1.text.toList ++ '=' :: '"' :: (a.2.chars ++ '"' :: rest)) =
      .ok (c, a.1.text.toList ++ '=' :: '"' :: (a.2.chars ++ '"' :: rest)) := by
    rw [hcs]
    rfl
  rw [htext, tagRest, bind_of_ok (get_eq _), if_neg (by simp), bind_of_ok hskip,
    bind_of_ok (get_eq _), bind_of_ok hnext, if_neg hslash, if_neg hclose, if_neg (by simp [isSpace]),
    bind_of_ok (attributeParts_eq a rest)]
  dsimp only
  rw [List.drop_left, Passage.decodeAttribute_chars, bind_of_ok (ofExcept_ok _ _), add_local,
    bind_of_ok (ofExcept_ok _ _)]
  rfl

/-- All attributes are added, and what follows them is read. -/
theorem tagRest_attributes (fuel : Nat) (entries : List (LocalName × Passage)) (tag : Tag)
    (tail : List Char) :
    tagRest (entries.length + fuel) tag (entries.flatMap writeAttribute ++ tail) =
      tagRest fuel { tag with attributes := tag.attributes ++ scanned tail entries } tail := by
  induction entries generalizing tag with
  | nil => simp [scanned]
  | cons a entries ih =>
    rw [List.length_cons, Nat.add_right_comm, List.flatMap_cons, List.append_assoc,
      tagRest_attribute, ih, scanned]
    simp

/-- The attributes of an opening tag are scanned one by one. -/
theorem tagRest_opened {fuel : Nat} {entries : List (LocalName × Passage)}
    (h : entries.length < fuel) (rest : List Char) :
    tagRest fuel {} (entries.flatMap writeAttribute ++ '>' :: rest) =
      .ok ((⟨[], scanned ('>' :: rest) entries⟩, .opened), rest) := by
  obtain ⟨k, rfl⟩ : ∃ k, fuel = entries.length + (k + 1) := ⟨fuel - entries.length - 1, by omega⟩
  rw [tagRest_attributes, tagRest, bind_of_ok (get_eq _), if_neg (by simp),
    bind_of_ok (skipSpaces_cons rfl _), bind_of_ok (get_eq _), bind_of_ok (next_cons _ _)]
  rfl

/-- So are those of a tag that is closed at once. -/
theorem tagRest_closed {fuel : Nat} {entries : List (LocalName × Passage)}
    (h : entries.length < fuel) (spaced : Bool) (rest : List Char) :
    tagRest fuel {} (entries.flatMap writeAttribute ++
        ((if spaced then [' '] else []) ++ '/' :: '>' :: rest)) =
      .ok ((⟨[], scanned ((if spaced then [' '] else []) ++ '/' :: '>' :: rest) entries⟩, .closed),
        rest) := by
  obtain ⟨k, rfl⟩ : ∃ k, fuel = entries.length + (k + 1) := ⟨fuel - entries.length - 1, by omega⟩
  have hskip : skipSpaces ((if spaced then [' '] else []) ++ '/' :: '>' :: rest) =
      .ok ((), '/' :: '>' :: rest) := by
    cases spaced <;> rfl
  rw [tagRest_attributes, tagRest, bind_of_ok (get_eq _), if_neg (by cases spaced <;> simp),
    bind_of_ok hskip, bind_of_ok (get_eq _), bind_of_ok (next_cons _ _)]
  rfl

/-- Attributes are kept if their names are new, also among each other. -/
theorem attributes_scanned_of_new (scope : Scope) (tail : List Char)
    {entries : List (LocalName × Passage)} {seen : List (Option String × String)}
    (hnodup : (entries.map (·.1.text)).Nodup) (hseen : ∀ e ∈ entries, (none, e.1.text) ∉ seen) :
    scope.attributes seen (scanned tail entries) =
      .ok (entries.map fun a => (a.1.text, a.2.valueText)) := by
  induction entries generalizing seen with
  | nil => rfl
  | cons a entries ih =>
    rw [List.map_cons, List.nodup_cons] at hnodup
    have hnew : (none, a.1.text) ∉ seen := hseen a List.mem_cons_self
    have hrest : ∀ e ∈ entries, (none, e.1.text) ∉ (none, a.1.text) :: seen := by
      intro e he
      have hne : e.1.text ≠ a.1.text := fun heq => hnodup.1 (heq ▸ List.mem_map.mpr ⟨e, he, rfl⟩)
      simp [hne, hseen e (List.mem_cons_of_mem a he)]
    simp [scanned, Scope.attributes, Scope.resolveAttribute, Scope.resolve, hnew, ih hnodup.2 hrest]

/-- A tag keeps its attributes: no two of them have one name. -/
theorem attributes_scanned (scope : Scope) (tail : List Char) (as : Attributes) :
    scope.attributes [] (scanned tail as.entries) = .ok as.read :=
  attributes_scanned_of_new scope tail as.distinct (by simp)

/-- A closing tag closes the element of its name. -/
theorem closingTag_writeClosing (n : LocalName) (rest : List Char) :
    closingTag ⟨"fo", n.text⟩ (writeClosing n ++ rest) = .ok ((), rest) := by
  have hname : name (qualifierChars ++ (n.text.toList ++ '>' :: rest)) = _ :=
    name_qualified n fun c hc => by cases hc; rfl
  have htext : (writeClosing n ++ rest).drop 2 =
      qualifierChars ++ (n.text.toList ++ '>' :: rest) := by
    simp [writeClosing]
  rw [closingTag, bind_of_ok (get_eq _), bind_of_ok (skip_eq _ _), htext, bind_of_ok hname,
    bind_of_ok (skipSpaces_cons rfl _), bind_of_ok (char_cons _ _), if_neg (by simp)]
  rfl

/-! ## Text -/

/-- A passage holds no angle bracket, so it does not end a literal section. -/
theorem contains_chars (p : Passage) : contains [']', ']', '>'] p.chars = false := by
  have hgreater : ∀ c ∈ p.chars, c ≠ '>' := fun c hc =>
    ne_of_isInert (Passage.isInert_of_mem_chars hc) rfl
  generalize p.chars = cs at hgreater
  -- wherever the end mark is looked for, its last character is missing
  induction cs with
  | nil => rfl
  | cons c cs ih =>
    have ih := ih fun d hd => hgreater d (List.mem_cons_of_mem c hd)
    rw [contains, ih, Bool.or_false, Bool.eq_false_iff]
    intro hprefix
    have hmem : '>' ∈ c :: cs := (List.isPrefixOf_iff_prefix.mp hprefix).subset (by simp)
    exact hgreater '>' hmem rfl

/-- A passage before a tag is read as its text. -/
theorem plainText_chars (p : Passage) (rest : List Char) :
    plainText (p.chars ++ '<' :: rest) = .ok (p.contentText, '<' :: rest) := by
  have hraw : charsWhile (fun s => s.head? ≠ some '<') (p.chars ++ '<' :: rest) =
      .ok (p.chars, '<' :: rest) := by
    refine charsWhile_chars p (fun d hd t => ?_) rfl (by simp)
    have hless : d ≠ '<' := ne_of_isInert hd rfl
    simp [hless]
  rw [plainText, bind_of_ok hraw, contains_chars, if_neg (by simp), bind_of_ok (get_eq _),
    Passage.decodeText_chars]
  rfl

end StatementPress.Xml.Scanner
