import StatementPress.Markup.Escape
import StatementPress.Markup.Length
import StatementPress.Xml.Text

/-!
# Passages of text in markup

A `Passage` is text as it stands between tags or between quotation marks: characters that stand for
themselves, and characters that markup only refers to.  Whatever is written as a passage holds no
angle bracket and no quotation mark, so it cannot end what it stands in, and a reader splits it back
into the same pieces (`pieces_chars`).

Passages come from three places: the fixed texts of the markup, lengths, and arbitrary strings
through `escape`.
-/

namespace StatementPress.Markup

open Xml (Piece isAllowed)

/-- The characters that markup refers to. -/
def reserved : List Char := ['&', '<', '>', '"', '\'', '\r']

/-- A piece as it is written. -/
def writePiece : Piece → List Char
  | .plain c => [c]
  | .referred c => escapeChar c

/-- Whether a character can stand in a passage without ending it. -/
def isInert (c : Char) : Bool := isAllowed c && c != '<' && c != '>' && c != '"'

/-- Whether a piece is written in a way that reads back as that piece. -/
def isSound : Piece → Bool
  | .plain c => isInert c && c != '&'
  | .referred c => reserved.contains c

/-- Text as it stands in markup. -/
structure Passage where
  pieces : List Piece
  /-- Each reads back as itself. -/
  sound : ∀ p ∈ pieces, isSound p = true

/-! ## Single pieces -/

/-- A reserved character is written as a reference to it. -/
theorem reference?_escapeChar {c : Char} (h : c ∈ reserved) :
    ∃ name, escapeChar c = '&' :: name ∧
      ∀ rest, Xml.reference? (name ++ rest) = some (.char c, rest) := by
  simp only [reserved, List.mem_cons, List.not_mem_nil, or_false] at h
  rcases h with rfl | rfl | rfl | rfl | rfl | rfl <;> exact ⟨_, rfl, fun _ => rfl⟩

/-- A character without an escape of its own is kept or dropped. -/
theorem escapeChar_of_not_reserved {c : Char} (h : c ∉ reserved) :
    escapeChar c = if isAllowed c then [c] else [] := by
  simp only [reserved, List.mem_cons, List.not_mem_nil, or_false, not_or] at h
  obtain ⟨h1, h2, h3, h4, h5, h6⟩ := h
  unfold escapeChar
  split <;> first | contradiction | rfl

/-- Escaping leaves no markup and no quotation mark. -/
theorem isInert_escapeChar {c d : Char} (h : d ∈ escapeChar c) : isInert d = true := by
  by_cases hc : c ∈ reserved
  · have hall : (reserved.all fun c => (escapeChar c).all isInert) = true := by decide
    exact List.all_eq_true.mp (List.all_eq_true.mp hall c hc) d h
  · rw [escapeChar_of_not_reserved hc] at h
    split at h
    · rename_i ha
      rw [List.mem_singleton] at h
      subst h
      simp only [reserved, List.mem_cons, List.not_mem_nil, or_false, not_or] at hc
      simp [isInert, ha, hc]
    · cases h

theorem isInert_of_mem_writePiece {p : Piece} (hp : isSound p = true) {d : Char}
    (h : d ∈ writePiece p) : isInert d = true := by
  cases p with
  | plain c =>
    rw [writePiece, List.mem_singleton] at h
    simp only [isSound, Bool.and_eq_true] at hp
    exact h ▸ hp.1
  | referred c => exact isInert_escapeChar h

/-- Splitting what was written gives back the pieces. -/
theorem pieces_flatMap_writePiece (after : List Char) {ps : List Piece}
    (hs : ∀ p ∈ ps, isSound p = true) :
    ∀ fuel, (ps.flatMap writePiece).length ≤ fuel →
      Xml.pieces after fuel (ps.flatMap writePiece) = .ok ps := by
  induction ps with
  | nil =>
    intro fuel _
    cases fuel <;> rfl
  | cons p ps ih =>
    intro fuel hf
    have hp : isSound p = true := hs p List.mem_cons_self
    have ih := ih fun q hq => hs q (List.mem_cons_of_mem p hq)
    rw [List.flatMap_cons] at hf ⊢
    cases p with
    | plain c =>
      simp only [isSound, Bool.and_eq_true, bne_iff_ne, ne_eq] at hp
      rw [writePiece, List.singleton_append] at hf ⊢
      cases fuel with
      | zero => simp at hf
      | succ fuel =>
        rw [Xml.pieces, if_neg hp.2, ih fuel (by simpa using hf)]
        rfl
    | referred c =>
      obtain ⟨name, hw, hr⟩ := reference?_escapeChar (List.contains_iff_mem.mp hp)
      rw [writePiece, hw, List.cons_append] at hf ⊢
      cases fuel with
      | zero => simp at hf
      | succ fuel =>
        simp only [List.length_cons, List.length_append] at hf
        rw [Xml.pieces, if_pos rfl, hr]
        dsimp only
        rw [ih fuel (by omega)]
        rfl

/-! ## Passages -/

namespace Passage

/-- A passage as it is written. -/
def chars (p : Passage) : List Char := p.pieces.flatMap writePiece

/-- The passage of no characters. -/
def empty : Passage := ⟨[], fun _ h => nomatch h⟩

/-- Characters that stand for themselves. -/
def plain (cs : List Char) (h : ∀ c ∈ cs, isSound (.plain c) = true) : Passage :=
  ⟨cs.map .plain, fun _ hp => by obtain ⟨c, hc, rfl⟩ := List.mem_map.mp hp; exact h c hc⟩

/-- A fixed text. -/
def fixed (s : String) (h : s.toList.all (fun c => isSound (.plain c)) = true := by decide) :
    Passage :=
  plain s.toList (List.all_eq_true.mp h)

/-- Passages one after another. -/
def join (ps : List Passage) : Passage :=
  ⟨ps.flatMap (·.pieces), fun r hr => by
    obtain ⟨p, -, hp⟩ := List.mem_flatMap.mp hr
    exact p.sound r hp⟩

/-- The pieces of an escaped character. -/
def escapedPieces (c : Char) : List Piece :=
  if c ∈ reserved then [.referred c] else if isAllowed c then [.plain c] else []

theorem flatMap_escapedPieces (c : Char) :
    (escapedPieces c).flatMap writePiece = escapeChar c := by
  unfold escapedPieces
  split
  · simp [writePiece]
  · rename_i hc
    rw [escapeChar_of_not_reserved hc]
    split <;> simp [writePiece]

/-- Any string, escaped. -/
def escaped (s : String) : Passage where
  pieces := s.toList.flatMap escapedPieces
  sound p hp := by
    obtain ⟨c, -, hc⟩ := List.mem_flatMap.mp hp
    unfold escapedPieces at hc
    split at hc
    · rename_i hr
      rw [List.mem_singleton] at hc
      subst hc
      exact List.contains_iff_mem.mpr hr
    · rename_i hr
      split at hc
      · rename_i ha
        rw [List.mem_singleton] at hc
        subst hc
        simp only [reserved, List.mem_cons, List.not_mem_nil, or_false, not_or] at hr
        simp [isSound, isInert, ha, hr]
      · cases hc

@[simp] theorem chars_empty : empty.chars = [] := rfl

@[simp] theorem chars_join (ps : List Passage) : (join ps).chars = ps.flatMap chars :=
  List.flatMap_assoc

@[simp] theorem chars_plain {cs : List Char} (h : ∀ c ∈ cs, isSound (.plain c) = true) :
    (plain cs h).chars = cs := by
  simp [chars, plain, List.flatMap_map, writePiece, List.flatMap_singleton']

@[simp] theorem chars_fixed (s : String) (h : s.toList.all (fun c => isSound (.plain c)) = true) :
    (fixed s h).chars = s.toList := chars_plain _

@[simp] theorem chars_escaped (s : String) : (escaped s).chars = (escape s).toList := by
  rw [escape, String.toList_ofList, chars, escaped, List.flatMap_assoc]
  exact congrArg (s.toList.flatMap ·) (funext flatMap_escapedPieces)

/-- **No passage holds a character that could end it.** -/
theorem isInert_of_mem_chars {p : Passage} {c : Char} (h : c ∈ p.chars) : isInert c = true := by
  obtain ⟨q, hq, hc⟩ := List.mem_flatMap.mp h
  exact isInert_of_mem_writePiece (p.sound q hq) hc

/-- A reader splits a passage back into its pieces. -/
theorem pieces_chars (p : Passage) (after : List Char) :
    Xml.pieces after p.chars.length p.chars = .ok p.pieces :=
  pieces_flatMap_writePiece after p.sound _ (Nat.le_refl _)

/-- What a passage stands for between quotation marks. -/
def valueText (p : Passage) : String := String.ofList (Xml.attributeText p.pieces)

/-- What a passage stands for between tags. -/
def contentText (p : Passage) : String := String.ofList (Xml.elementText [] false p.pieces)

/-- A passage is decoded as an attribute without a fault. -/
theorem decodeAttribute_chars (p : Passage) (after : List Char) :
    Xml.decodeAttribute p.chars after = .ok p.valueText := by
  rw [Xml.decodeAttribute, pieces_chars]
  rfl

/-- A passage is decoded as a text without a fault. -/
theorem decodeText_chars (p : Passage) (after : List Char) :
    Xml.decodeText p.chars after = .ok p.contentText := by
  rw [Xml.decodeText, pieces_chars]
  rfl

end Passage

end StatementPress.Markup
