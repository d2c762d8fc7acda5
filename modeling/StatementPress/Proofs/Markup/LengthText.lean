import StatementPress.Proofs.Markup.Passage
import StatementPress.Proofs.Markup.PlainNumber

/-!
# Lengths as passages

A length is made of few characters (`isLengthChar`), none of which markup reads as anything but
itself.  So a length reads back as it was written, also between quotation marks.
-/

namespace StatementPress.Markup

open Xml (Piece)

/-- The characters of lengths: digits, sign, point, and the letters of the two words and the unit. -/
def isLengthChar (c : Char) : Bool := c.isDigit || "-.Nainfpt".toList.contains c

theorem isLengthChar_of_isDigit {c : Char} (h : c.isDigit = true) : isLengthChar c = true := by
  simp [isLengthChar, h]

/-- A length character stands for itself and is no white space. -/
theorem isLengthChar_spec {c : Char} (h : isLengthChar c = true) :
    isSound (.plain c) = true ∧ Xml.isSpace c = false := by
  rw [isLengthChar, Bool.or_eq_true] at h
  rcases h with hd | hl
  · have hge : 48 ≤ c.toNat ∧ c.toNat ≤ 57 := by
      simpa [Char.isDigit, UInt32.le_iff_toNat_le] using hd
    have hne : ∀ d : Char, d.toNat < 48 ∨ 57 < d.toNat → c ≠ d := by
      rintro d hlt rfl
      omega
    have hspace : Xml.isSpace c = false := by
      simp [Xml.isSpace, hne]
    refine ⟨?_, hspace⟩
    have hallowed : Xml.isAllowed c = true := by
      rw [Xml.isAllowed, if_neg (by omega)]
      simp only [Bool.and_eq_true, bne_iff_ne, ne_eq]
      omega
    simp [isSound, isInert, hallowed, hne]
  · have hall : ("-.Nainfpt".toList.all fun c => isSound (.plain c) && !Xml.isSpace c) = true := by
      decide
    simpa using List.all_eq_true.mp hall c (List.contains_iff_mem.mp hl)

/-- The words in a length are made of length characters. -/
theorem isLengthChar_of_all {word : String} (h : word.toList.all isLengthChar = true) {c : Char}
    (hc : c ∈ word.toList) : isLengthChar c = true := List.all_eq_true.mp h c hc

theorem isLengthChar_positional {d : Decimal} {c : Char} (h : c ∈ d.positional []) :
    isLengthChar c = true := by
  rcases d.isPlainNumber_positional.isDigit_or_point h with hdigit | rfl
  · exact isLengthChar_of_isDigit hdigit
  · rfl

/-- A plain number consists of characters of lengths. -/
theorem isLengthChar_plainNumber {x : Binary64} {c : Char} (h : c ∈ (plainNumber x).toList) :
    isLengthChar c = true := by
  have hbody : ∀ c ∈ (if x.isFinite then String.ofList ((x.shortest .up).positional [])
      else "inf").toList, isLengthChar c = true := by
    intro c hc
    split at hc
    · rw [String.toList_ofList] at hc
      exact isLengthChar_positional hc
    · exact isLengthChar_of_all (by decide) hc
  unfold plainNumber at h
  split at h
  · exact isLengthChar_of_all (by decide) h
  · dsimp only at h
    split at h
    · rw [String.toList_append, List.mem_append] at h
      rcases h with hc | hc
      · exact isLengthChar_of_all (by decide) hc
      · exact hbody c hc
    · exact hbody c h

/-- **A length holds length characters only**, whatever the number is. -/
theorem isLengthChar_points {x : Binary64} {c : Char} (h : c ∈ (points x).toList) :
    isLengthChar c = true := by
  rw [points, String.toList_append, List.mem_append] at h
  rcases h with hc | hc
  · exact isLengthChar_plainNumber hc
  · exact isLengthChar_of_all (by decide) hc

/-- White space apart, what stands for itself is read as it stands, whatever follows it. -/
theorem attributeText_plain_append {cs : List Char} (h : ∀ c ∈ cs, Xml.isSpace c = false)
    (rest : List Piece) :
    Xml.attributeText (cs.map .plain ++ rest) = cs ++ Xml.attributeText rest := by
  induction cs with
  | nil => rfl
  | cons c cs ih =>
    have hc : Xml.isSpace c = false := h c List.mem_cons_self
    rw [List.map_cons, List.cons_append, Xml.attributeText, hc,
      ih fun d hd => h d (List.mem_cons_of_mem c hd)]
    · rfl
    · intro rest _ hcr
      rw [hcr] at hc
      cases hc

namespace Passage

/-- A length. -/
def length (x : Binary64) : Passage :=
  plain (points x).toList fun _ h => (isLengthChar_spec (isLengthChar_points h)).1

@[simp] theorem chars_length (x : Binary64) : (length x).chars = (points x).toList := chars_plain _

/-- Between quotation marks a length is read as it stands, whatever follows it. -/
theorem attributeText_length_append (x : Binary64) (rest : List Piece) :
    Xml.attributeText ((length x).pieces ++ rest) = (points x).toList ++ Xml.attributeText rest :=
  attributeText_plain_append (fun _ h => (isLengthChar_spec (isLengthChar_points h)).2) rest

/-- A length reads back between quotation marks. -/
@[simp] theorem valueText_length (x : Binary64) : (length x).valueText = points x := by
  have hread := attributeText_length_append x []
  rw [List.append_nil, Xml.attributeText, List.append_nil] at hread
  rw [valueText, hread, String.ofList_toList]

end Passage

end StatementPress.Markup
