import StatementPress.Proofs.Markup.Passage

/-!
# What escaped strings are read as

Escaping leaves out the characters that no document may hold (`allowedPart`), and nothing else is
lost between tags: line ends are read as they were, because a carriage return is always referred to,
and the character after a reference is taken as it stands (`contentText_escaped`).

Between quotation marks a tab and a line feed stand for themselves, and a reader takes either for a
plain space (`valueText_escaped`).  So a string without them is read back (`flatten_eq_self_iff`).
-/

namespace StatementPress.Markup

open Xml (Piece isAllowed isSpace attributeText elementText pushPlain)

/-- A string without the characters that no document may hold. -/
def allowedPart (s : String) : String := String.ofList (s.toList.filter isAllowed)

/-- A string with a plain space for each tab and each line feed. -/
def flatten (s : String) : String :=
  String.ofList (s.toList.map fun c => if c = '\t' ∨ c = '\n' then ' ' else c)

/-- A string of allowed characters loses none. -/
theorem allowedPart_eq_self {s : String} (h : ∀ c ∈ s.toList, isAllowed c = true) :
    allowedPart s = s := by
  rw [allowedPart, List.filter_eq_self.mpr h, String.ofList_toList]

/-- Only tabs and line feeds keep a string from being as it was. -/
theorem flatten_eq_self_iff {s : String} :
    flatten s = s ↔ ∀ c ∈ s.toList, c ≠ '\t' ∧ c ≠ '\n' := by
  have hmap : flatten s = s ↔
      s.toList.map (fun c => if c = '\t' ∨ c = '\n' then ' ' else c) = s.toList.map id := by
    rw [flatten, ← String.toList_inj, String.toList_ofList, List.map_id]
  rw [hmap, List.map_inj_left]
  refine forall₂_congr fun c _ => ?_
  by_cases ht : c = '\t'
  · simp [ht]
  · by_cases hn : c = '\n' <;> simp [ht, hn]

/-! ## Pieces -/

/-- A list made of what is kept of each of its characters. -/
theorem flatMap_ite_singleton {p : Char → Bool} (f : Char → Char) (cs : List Char) :
    (cs.flatMap fun c => (if p c then [c] else []).map f) = (cs.filter p).map f := by
  induction cs with
  | nil => rfl
  | cons c cs ih =>
    rw [List.flatMap_cons, ih]
    cases hc : p c <;> simp [hc]

/-- The character of a piece. -/
def character : Piece → Char
  | .plain c | .referred c => c

theorem isAllowed_of_mem_reserved {c : Char} (h : c ∈ reserved) : isAllowed c = true := by
  have hall : reserved.all isAllowed = true := by decide
  exact List.all_eq_true.mp hall c h

/-- The pieces of an escaped string stand for its allowed characters, in order. -/
theorem characters_escaped (s : String) :
    (Passage.escaped s).pieces.map character = s.toList.filter isAllowed := by
  have hpieces : ∀ c, (Passage.escapedPieces c).map character =
      if isAllowed c then [c] else [] := by
    intro c
    unfold Passage.escapedPieces
    by_cases hc : c ∈ reserved
    · simp [hc, isAllowed_of_mem_reserved hc, character]
    · rw [if_neg hc]
      split <;> rfl
  have hkept := flatMap_ite_singleton (p := isAllowed) id s.toList
  simp only [List.map_id] at hkept
  rw [Passage.escaped, List.map_flatMap, ← hkept]
  exact congrArg (s.toList.flatMap ·) (funext hpieces)

/-- Every piece is written as something. -/
theorem Passage.chars_eq_nil_iff {p : Passage} : p.chars = [] ↔ p.pieces = [] := by
  have hwritten : ∀ q ∈ p.pieces, writePiece q ≠ [] := by
    intro q hq
    have hsound := p.sound q hq
    cases q with
    | plain c => simp [writePiece]
    | referred c =>
      obtain ⟨name, hname, -⟩ := reference?_escapeChar (List.contains_iff_mem.mp hsound)
      simp [writePiece, hname]
  rw [chars, List.flatMap_eq_nil_iff]
  constructor
  · intro h
    exact List.eq_nil_iff_forall_not_mem.mpr fun q hq => hwritten q hq (h q hq)
  · intro h q hq
    rw [h] at hq
    cases hq

/-- No carriage return of an escaped string stands for itself. -/
theorem ne_return_of_mem_escaped {s : String} {c : Char}
    (h : .plain c ∈ (Passage.escaped s).pieces) : c ≠ '\r' := by
  obtain ⟨d, -, hd⟩ := List.mem_flatMap.mp h
  unfold Passage.escapedPieces at hd
  split at hd
  · simp at hd
  · rename_i hreserved
    split at hd
    · rw [List.mem_singleton, Piece.plain.injEq] at hd
      rintro rfl
      exact hreserved (hd ▸ by decide)
    · cases hd

/-! ## Between tags -/

theorem pushPlain_of_ne_return {done : List Char} {c : Char} (hdone : done.head? ≠ some '\r')
    (hc : c ≠ '\r') (last : Bool) : pushPlain done c last = c :: done := by
  unfold pushPlain
  split
  · exact absurd rfl hdone
  · rw [if_neg (by simp [hc])]

/-- Text without plain carriage returns is the characters of its pieces.  A carriage return that was
just read came from a reference, so the next character is taken as it stands. -/
theorem elementText_eq {pieces : List Piece} (h : ∀ c, .plain c ∈ pieces → c ≠ '\r')
    (done : List Char) (literal : Bool) (hdone : literal = true ∨ done.head? ≠ some '\r') :
    elementText done literal pieces = done.reverse ++ pieces.map character := by
  induction pieces generalizing done literal with
  | nil => simp [elementText]
  | cons piece pieces ih =>
    have hrest : ∀ c, .plain c ∈ pieces → c ≠ '\r' := fun c hc => h c (List.mem_cons_of_mem _ hc)
    cases piece with
    | referred c =>
      rw [elementText, ih hrest _ _ (.inl rfl)]
      simp [character]
    | plain c =>
      have hc : c ≠ '\r' := h c List.mem_cons_self
      have hnext : (c :: done).head? ≠ some '\r' := by simpa using hc
      have hpush : elementText done literal (.plain c :: pieces) =
          elementText (c :: done) false pieces := by
        cases literal with
        | true => rw [elementText]
        | false =>
          rw [elementText, pushPlain_of_ne_return (hdone.resolve_left (by simp)) hc]
      rw [hpush, ih hrest _ _ (.inr hnext)]
      simp [character]

/-- **Between tags an escaped string is read as the string**, what is not allowed left out. -/
theorem contentText_escaped (s : String) : (Passage.escaped s).contentText = allowedPart s := by
  rw [Passage.contentText, elementText_eq (fun c => ne_return_of_mem_escaped) _ _ (.inr (by simp)),
    characters_escaped]
  rfl

/-! ## Between quotation marks -/

/-- The character that a piece of an attribute value stands for, carriage returns apart. -/
def valueCharacter : Piece → Char
  | .plain c => if isSpace c then ' ' else c
  | .referred c => c

/-- Pieces without a bare carriage return are read one by one. -/
theorem attributeText_eq {pieces : List Piece} (h : ∀ c, .plain c ∈ pieces → c ≠ '\r') :
    attributeText pieces = pieces.map valueCharacter := by
  induction pieces with
  | nil => rfl
  | cons piece pieces ih =>
    have hrest : ∀ c, .plain c ∈ pieces → c ≠ '\r' := fun c hc => h c (List.mem_cons_of_mem _ hc)
    cases piece with
    | referred c => rw [attributeText, ih hrest, List.map_cons, valueCharacter]
    | plain c =>
      have hc : c ≠ '\r' := h c List.mem_cons_self
      rw [attributeText, ih hrest, List.map_cons, valueCharacter]
      -- the rule for a carriage return with its line feed does not apply
      exact fun _ _ hreturn => hc hreturn

theorem valueCharacters_escapedPieces (c : Char) :
    (Passage.escapedPieces c).map valueCharacter =
      (if isAllowed c then [c] else []).map fun c => if c = '\t' ∨ c = '\n' then ' ' else c := by
  unfold Passage.escapedPieces
  by_cases hc : c ∈ reserved
  · have hplain : ¬ (c = '\t' ∨ c = '\n') := by
      rintro (rfl | rfl) <;> exact absurd hc (by decide)
    rw [if_pos hc, if_pos (isAllowed_of_mem_reserved hc)]
    simp [hplain, valueCharacter]
  · have hreturn : c ≠ '\r' := by
      rintro rfl
      exact hc (by decide)
    rw [if_neg hc]
    split
    · -- a plain space stays one, and a carriage return is reserved
      by_cases hspace : c = ' ' <;> simp [valueCharacter, isSpace, hreturn, hspace]
    · rfl

/-- Between quotation marks an escaped string is read flattened. -/
theorem valueCharacters_escaped (s : String) :
    (Passage.escaped s).pieces.map valueCharacter = (flatten (allowedPart s)).toList := by
  rw [Passage.escaped, List.map_flatMap, flatten, allowedPart, String.toList_ofList,
    String.toList_ofList, ← flatMap_ite_singleton]
  exact congrArg (s.toList.flatMap ·) (funext valueCharacters_escapedPieces)

/-- **Between quotation marks an escaped string is read with its tabs and line feeds as spaces**,
what is not allowed left out. -/
theorem valueText_escaped (s : String) :
    (Passage.escaped s).valueText = flatten (allowedPart s) := by
  rw [Passage.valueText, attributeText_eq fun c => ne_return_of_mem_escaped,
    valueCharacters_escaped, String.ofList_toList]

/-- So is an escaped string between fixed texts without white space. -/
theorem valueText_join_escaped (before after s : String)
    (hbefore : before.toList.all (fun c => isSound (.plain c)) = true)
    (hafter : after.toList.all (fun c => isSound (.plain c)) = true)
    (hspaces : (before.toList ++ after.toList).all (fun c => !isSpace c) = true) :
    (Passage.join [.fixed before hbefore, .escaped s, .fixed after hafter]).valueText =
      before ++ flatten (allowedPart s) ++ after := by
  have hfixed : ∀ cs : List Char, (∀ c ∈ cs, isSpace c = false) →
      (cs.map Piece.plain).map valueCharacter = cs := by
    intro cs hcs
    calc (cs.map Piece.plain).map valueCharacter
        = cs.map id := by
          rw [List.map_map]
          exact List.map_congr_left fun c hc => by simp [valueCharacter, hcs c hc]
      _ = cs := List.map_id cs
  have hspaces : ∀ c ∈ before.toList ++ after.toList, isSpace c = false := fun c hc => by
    simpa using List.all_eq_true.mp hspaces c hc
  obtain ⟨hbeforeSpaces, hafterSpaces⟩ := List.forall_mem_append.mp hspaces
  have hpieces : (Passage.join [.fixed before hbefore, .escaped s, .fixed after hafter]).pieces =
      before.toList.map .plain ++ ((Passage.escaped s).pieces ++ after.toList.map .plain) := by
    simp [Passage.join, Passage.fixed, Passage.plain]
  have hreturn : ∀ cs : List Char, (∀ c ∈ cs, isSpace c = false) →
      ∀ c, Piece.plain c ∈ cs.map Piece.plain → c ≠ '\r' := by
    rintro cs hcs c hc rfl
    have hspace := hcs '\r' (by simpa using hc)
    cases hspace
  have hplain : ∀ c, .plain c ∈ before.toList.map Piece.plain ++
      ((Passage.escaped s).pieces ++ after.toList.map Piece.plain) → c ≠ '\r' := by
    intro c hc
    rcases List.mem_append.mp hc with hc | hc
    · exact hreturn _ hbeforeSpaces c hc
    · rcases List.mem_append.mp hc with hc | hc
      · exact ne_return_of_mem_escaped hc
      · exact hreturn _ hafterSpaces c hc
  rw [Passage.valueText, hpieces, attributeText_eq hplain, List.map_append, List.map_append,
    hfixed _ hbeforeSpaces, hfixed _ hafterSpaces, valueCharacters_escaped]
  apply String.toList_injective
  simp

/-! ## Different strings -/

/-- Strings without forbidden characters are escaped differently. -/
theorem eq_of_escape_eq {s s' : String} (hs : ∀ c ∈ s.toList, isAllowed c = true)
    (hs' : ∀ c ∈ s'.toList, isAllowed c = true) (h : escape s = escape s') : s = s' := by
  have hread : ∀ t, Xml.decodeText (escape t).toList [] = .ok (allowedPart t) := by
    intro t
    rw [← Passage.chars_escaped, Passage.decodeText_chars, contentText_escaped]
  have heq : (Except.ok (allowedPart s) : Except Xml.Failure String) = .ok (allowedPart s') := by
    rw [← hread, ← hread, h]
  rw [Except.ok.injEq, allowedPart_eq_self hs, allowedPart_eq_self hs'] at heq
  exact heq

end StatementPress.Markup
