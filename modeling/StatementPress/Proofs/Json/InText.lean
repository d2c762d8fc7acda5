import Mathlib.Data.List.Infix
import StatementPress.Json.Typed
import StatementPress.Proofs.Json.Fits
import StatementPress.Proofs.Outcome

/-!
# Readers stay in their text

A reader only goes forward, so what it leaves is a suffix of the text.  `Yields` says this together
with a property of the result, and has a rule for each way of composing readers.  The rules for
arrays and objects say that what holds of each item holds of all that are read.  So a value that is
read from a text fits (`yields_value`, `of_ofText`).

Nothing is said of readers that fail.
-/

namespace StatementPress.Json

namespace Reader

variable {α β : Type} {text : List Char} {P : α → Prop} {Q : β → Prop}

/-- **Whether a reader that starts in `text` stops in it**, with a result that has a property. -/
def Yields (text : List Char) (r : Reader α) (P : α → Prop) : Prop :=
  ∀ s a rest, s <:+ text → r s = .ok (a, rest) → rest <:+ text ∧ P a

/-- Whether a reader that starts in `text` stops in it. -/
abbrev Stays (text : List Char) (r : Reader α) : Prop := Yields text r fun _ => True

/-! ## Composing -/

theorem yields_pure {a : α} (h : P a) : Yields text (pure a) P := by
  intro s b rest hs hr
  cases hr
  exact ⟨hs, h⟩

/-- Readers one after the other: what the first one yields is given to the second. -/
theorem Yields.bind {r : Reader α} {f : α → Reader β} (hr : Yields text r P)
    (hf : ∀ a, P a → Yields text (f a) Q) : Yields text (r >>= f) Q := by
  intro s b rest hs h
  have h : (r s >>= fun p => f p.1 p.2) = .ok (b, rest) := h
  obtain ⟨p, hrs, h⟩ := exists_of_bind_eq_ok h
  obtain ⟨hp, ha⟩ := hr _ _ _ hs hrs
  exact hf p.1 ha _ _ _ hp h

theorem yields_failAt {problem : Problem} {rest : List Char} {ahead : Nat} :
    Yields text (failAt problem rest ahead) P := fun _ _ _ _ h => nomatch h

theorem yields_failNext {problem : Problem} : Yields text (failNext problem) P :=
  fun _ _ _ _ h => nomatch h

theorem yields_failHere {problem : Problem} : Yields text (failHere problem) P :=
  fun _ _ _ _ h => nomatch h

theorem yields_failFloating {problem : Problem} : Yields text (failFloating problem) P :=
  fun _ _ _ _ h => nomatch h

/-- Settling the place of a fault changes nothing about success. -/
theorem Yields.settle {r : Reader α} (hr : Yields text r P) : Yields text (settle r) P := by
  intro s a rest hs h
  unfold Reader.settle at h
  split at h
  · cases h
  · exact hr _ _ _ hs h

theorem yields_get : Yields text get (· <:+ text) := by
  intro s a rest hs h
  cases h
  exact ⟨hs, hs⟩

/-- Going back to a rest of the text stays in the text. -/
theorem stays_set {rest : List Char} (h : rest <:+ text) : Stays text (set rest) := by
  intro s a rest' _ hr
  cases hr
  exact ⟨h, trivial⟩

/-- What stands behind the next character is in the text too. -/
theorem suffix_of_cons {c : Char} {rest : List Char} (h : c :: rest <:+ text) : rest <:+ text :=
  (List.suffix_cons c rest).trans h

/-! ## Blanks, words, strings -/

theorem stays_skip : Stays text skip := by
  intro s a rest hs h
  cases h
  exact ⟨(List.drop_suffix 1 s).trans hs, trivial⟩

theorem stays_peek : Stays text peek := by
  intro s a rest hs h
  cases h
  exact ⟨(List.dropWhile_suffix isSpace).trans hs, trivial⟩

theorem stays_peekOr (problem : Problem) : Stays text (peekOr problem) := by
  refine stays_peek.bind fun c _ => ?_
  cases c with
  | none => exact yields_failNext
  | some c => exact yields_pure trivial

theorem stays_word (w : List Char) : Stays text (word w) := by
  induction w with
  | nil => exact yields_pure trivial
  | cons c w ih =>
    refine yields_get.bind fun s hs => ?_
    cases s with
    | nil => exact yields_failHere
    | cons d rest =>
      dsimp only
      split
      · exact (stays_set (suffix_of_cons hs)).bind fun _ _ => ih
      · exact yields_failNext

theorem stays_fourHex : Stays text fourHex := by
  refine yields_get.bind fun s hs => ?_
  split
  · exact yields_failAt
  · split
    · split
      · refine (stays_set ?_).bind fun _ _ => yields_pure trivial
        exact suffix_of_cons (suffix_of_cons (suffix_of_cons (suffix_of_cons hs)))
      · exact yields_failAt
    · exact yields_failAt

theorem stays_pairChar (c : Char) : Stays text (pairChar c) := by
  refine yields_get.bind fun s hs => ?_
  cases s with
  | nil => exact yields_failHere
  | cons d rest =>
    dsimp only
    split
    · exact stays_set (suffix_of_cons hs)
    · exact yields_failNext

theorem stays_codeEscape : Stays text codeEscape := by
  refine stays_fourHex.bind fun high _ => ?_
  split
  · exact yields_failHere
  · split
    · exact yields_pure trivial
    · refine (stays_pairChar _).bind fun _ _ => (stays_pairChar _).bind fun _ _ =>
        stays_fourHex.bind fun low _ => ?_
      split
      · exact yields_failHere
      · exact yields_pure trivial

theorem stays_escape : Stays text escape := by
  refine yields_get.bind fun s hs => ?_
  cases s with
  | nil => exact yields_failHere
  | cons c rest =>
    have hrest := stays_set (suffix_of_cons hs)
    dsimp only
    split
    · exact hrest.bind fun _ _ => stays_codeEscape
    · split
      · exact hrest.bind fun _ _ => yields_pure trivial
      · exact yields_failNext

theorem stays_stringChars (fuel : Nat) : Stays text (stringChars fuel) := by
  induction fuel with
  | zero => exact yields_failHere
  | succ fuel ih =>
    refine yields_get.bind fun s hs => ?_
    cases s with
    | nil => exact yields_failHere
    | cons c rest =>
      refine (stays_set (suffix_of_cons hs)).bind fun _ _ => ?_
      split
      · exact yields_pure trivial
      · split
        · exact stays_escape.bind fun _ _ => ih.bind fun _ _ => yields_pure trivial
        · split
          · exact yields_failHere
          · exact ih.bind fun _ _ => yields_pure trivial

theorem stays_stringBody : Stays text stringBody :=
  yields_get.bind fun _ _ => (stays_stringChars _).bind fun _ _ => yields_pure trivial

/-! ## Numbers -/

theorem takeDigits_suffix (limit n read : Nat) (s : List Char) :
    (takeDigits limit n read s).2.2 <:+ s := by
  induction s generalizing n read with
  | nil => exact List.suffix_refl []
  | cons c s ih =>
    rw [takeDigits]
    split
    · exact (ih _ _).trans (List.suffix_cons c s)
    · exact List.suffix_refl _

/-- Digits are taken only as long as the number stays within its limit. -/
theorem takeDigits_le {limit n : Nat} (h : n ≤ limit) (read : Nat) (s : List Char) :
    (takeDigits limit n read s).1 ≤ limit := by
  induction s generalizing n read with
  | nil => exact h
  | cons c s ih =>
    rw [takeDigits]
    split
    · rename_i hc
      exact ih hc.2 _
    · exact h

theorem digitValue_le {c : Char} (h : c.isDigit = true) : digitValue c ≤ maxSignificand := by
  have hc : digitValue c ≤ 9 := by
    rw [Char.isDigit, Bool.and_eq_true, decide_eq_true_eq, decide_eq_true_eq] at h
    have h9 : c.toNat ≤ 57 := UInt32.le_iff_toNat_le.mp h.2
    rw [digitValue]
    exact Nat.sub_le_sub_right h9 48
  exact hc.trans (by decide)

/-- A numeral beyond the doubles is refused, so what comes of it fits. -/
theorem yields_doubleOf (negative : Bool) (n : Nat) (e : Int) :
    Yields text (doubleOf negative n e) Number.Fits := by
  unfold doubleOf
  split
  · exact yields_failHere
  · split
    · exact yields_pure trivial
    · exact yields_failHere

theorem yields_exponentPart (negative : Bool) (n : Nat) (start : Int) :
    Yields text (exponentPart negative n start) Number.Fits := by
  refine yields_get.bind fun s hs => ?_
  split
  rename_i down digits hdigits
  have hdigits : digits <:+ text := by
    split at hdigits
    · cases hdigits
      exact suffix_of_cons hs
    · cases hdigits
      exact suffix_of_cons hs
    · cases hdigits
      exact hs
  split
  · exact yields_failAt
  · split
    · exact yields_failAt
    · have htaken := (takeDigits_suffix maxExponent 0 0 _).trans hdigits
      split
      rename_i htake
      rw [htake] at htaken
      split
      · split
        · exact yields_failAt
        · refine (stays_set ?_).bind fun _ _ => yields_doubleOf _ _ _
          exact (List.dropWhile_suffix _).trans htaken
      · exact (stays_set htaken).bind fun _ _ => yields_doubleOf _ _ _

theorem yields_exponentPart? (negative : Bool) (n : Nat) (start : Int) :
    Yields text (exponentPart? negative n start) Number.Fits := by
  refine yields_get.bind fun s hs => ?_
  split
  · exact (stays_set (suffix_of_cons hs)).bind fun _ _ => yields_exponentPart _ _ _
  · exact (stays_set (suffix_of_cons hs)).bind fun _ _ => yields_exponentPart _ _ _
  · exact yields_doubleOf _ _ _

theorem yields_fractionPart (negative : Bool) (n start : Nat) :
    Yields text (fractionPart negative n start) Number.Fits := by
  refine yields_get.bind fun s hs => ?_
  have hrest := (takeDigits_suffix maxSignificand n 0 s).trans hs
  split
  rename_i m read rest htake
  rw [htake] at hrest
  split
  · refine (stays_set ?_).bind fun _ _ => yields_exponentPart? _ _ _
    exact (List.dropWhile_suffix _).trans hrest
  · split
    · exact yields_failAt
    · exact (stays_set hrest).bind fun _ _ => yields_exponentPart? _ _ _

/-- A significand fits in 64 bits, and only a whole number that still fits gets a sign. -/
theorem yields_wholeOf (negative : Bool) {n : Nat} (h : n ≤ maxSignificand) :
    Yields text (wholeOf negative n) Number.Fits := by
  have hsize : maxSignificand = 2 ^ 64 - 1 := rfl
  unfold wholeOf
  split
  · exact yields_pure ⟨by omega, by omega⟩
  · split
    · exact yields_doubleOf _ _ _
    · rename_i hn
      have hhalf : UInt64.size / 2 = 2 ^ 63 := rfl
      exact yields_pure ⟨by omega, by omega⟩

/-- What starts with digits within the limit is a whole number, a double, or a fault. -/
theorem yields_afterWhole (negative : Bool) {n : Nat} (h : n ≤ maxSignificand) :
    Yields text (afterWhole negative n) Number.Fits := by
  refine yields_get.bind fun s hs => ?_
  split
  · exact (stays_set (suffix_of_cons hs)).bind fun _ _ => yields_fractionPart _ _ _
  · exact (stays_set (suffix_of_cons hs)).bind fun _ _ => yields_exponentPart _ _ _
  · exact (stays_set (suffix_of_cons hs)).bind fun _ _ => yields_exponentPart _ _ _
  · exact yields_wholeOf _ h

theorem yields_afterLongWhole (negative : Bool) (n extra : Nat) :
    Yields text (afterLongWhole negative n extra) Number.Fits := by
  refine yields_get.bind fun s hs => ?_
  split
  · exact (stays_set (suffix_of_cons hs)).bind fun _ _ => yields_fractionPart _ _ _
  · exact yields_exponentPart? _ _ _

theorem yields_numeral (negative : Bool) : Yields text (numeral negative) Number.Fits := by
  refine yields_get.bind fun s hs => ?_
  split
  · exact yields_failHere
  · rename_i c rest
    have hrest := suffix_of_cons hs
    split
    · split
      · exact yields_failAt
      · exact (stays_set hrest).bind fun _ _ => yields_afterWhole _ (Nat.zero_le _)
    · split
      · rename_i hdigit
        have hn := takeDigits_le (digitValue_le hdigit) 0 rest
        have htaken := (takeDigits_suffix maxSignificand (digitValue c) 0 rest).trans hrest
        split
        rename_i n read rest' htake
        rw [htake] at hn htaken
        refine (stays_set ((List.drop_suffix _ _).trans htaken)).bind fun _ _ => ?_
        split
        · exact yields_afterWhole _ hn
        · exact yields_afterLongWhole _ _ _
      · exact yields_failNext

/-- **Every number that is read fits.** -/
theorem yields_number : Yields text number Number.Fits := by
  refine yields_get.bind fun s hs => ?_
  split
  · exact (stays_set (suffix_of_cons hs)).bind fun _ _ => yields_numeral _
  · exact yields_numeral _

/-! ## Arrays, objects, values -/

theorem closeArray_suffix {s rest : List Char} (h : closeArray s = (rest, none)) : rest <:+ s := by
  have hs := List.dropWhile_suffix (l := s) isSpace
  unfold closeArray at h
  split at h
  · rename_i hclose
    cases h
    rw [hclose] at hs
    exact suffix_of_cons hs
  · simp only [Prod.mk.injEq] at h
    split at h <;> cases h.2
  · cases h
  · cases h

theorem closeObject_suffix {s rest : List Char} (h : closeObject s = (rest, none)) : rest <:+ s := by
  have hs := List.dropWhile_suffix (l := s) isSpace
  unfold closeObject at h
  split at h
  · rename_i hclose
    cases h
    rw [hclose] at hs
    exact suffix_of_cons hs
  · cases h
  · cases h
  · cases h

/-- What stands inside brackets is yielded once they are closed. -/
theorem Yields.closing {close : List Char → List Char × Option Problem} {inside : Reader α}
    (hclose : ∀ {s rest}, close s = (rest, none) → rest <:+ s) (h : Yields text inside P) :
    Yields text (closing close inside) P := by
  intro s a rest hs hr
  unfold Reader.closing at hr
  split at hr
  · rename_i b left hinside
    obtain ⟨hleft, hb⟩ := h _ _ _ hs hinside
    split at hr
    · rename_i hend
      cases hr
      exact ⟨(hclose hend).trans hleft, hb⟩
    · cases hr
  · cases hr
  · cases hr

theorem stays_nextItem (first : Bool) : Stays text (nextItem first) := by
  refine (stays_peekOr _).bind fun c _ => ?_
  split
  · exact yields_pure trivial
  · split
    · exact yields_pure trivial
    · split
      · refine stays_skip.bind fun _ _ => (stays_peekOr _).bind fun c _ => ?_
        split
        · exact yields_failNext
        · exact yields_pure trivial
      · exact yields_failNext

theorem stays_nextKey (first : Bool) : Stays text (nextKey first) := by
  refine (stays_peekOr _).bind fun c _ => ?_
  split
  · exact yields_pure trivial
  · split
    · split
      · exact yields_pure trivial
      · exact yields_failNext
    · split
      · refine stays_skip.bind fun _ _ => (stays_peekOr _).bind fun c _ => ?_
        split
        · exact yields_pure trivial
        · split
          · exact yields_failNext
          · exact yields_failNext
      · exact yields_failNext

theorem stays_key : Stays text key := stays_skip.bind fun _ _ => stays_stringBody

theorem stays_colon : Stays text colon := by
  refine (stays_peekOr _).bind fun c _ => ?_
  split
  · exact stays_skip
  · exact yields_failNext

/-- What holds of each item holds of all of them. -/
theorem Yields.items {item : Reader α} (h : Yields text item P) (fuel : Nat) (first : Bool) :
    Yields text (items item fuel first) fun as => ∀ a ∈ as, P a := by
  induction fuel generalizing first with
  | zero => exact yields_failNext
  | succ fuel ih =>
    refine (stays_nextItem first).bind fun more _ => ?_
    cases more with
    | false => exact yields_pure fun _ ha => nomatch ha
    | true =>
      refine h.bind fun a ha => (ih false).bind fun as has => yields_pure ?_
      exact List.forall_mem_cons.mpr ⟨ha, has⟩

/-- What holds of each member's value holds of all of them. -/
theorem Yields.members {value : Reader α} (h : Yields text value P) (fuel : Nat) (first : Bool) :
    Yields text (members value fuel first) fun ms => ∀ m ∈ ms, P m.2 := by
  induction fuel generalizing first with
  | zero => exact yields_failNext
  | succ fuel ih =>
    refine (stays_nextKey first).bind fun more _ => ?_
    cases more with
    | false => exact yields_pure fun _ hm => nomatch hm
    | true =>
      refine stays_key.bind fun k _ => stays_colon.bind fun _ _ => h.bind fun v hv =>
        (ih false).bind fun ms hms => yields_pure ?_
      exact List.forall_mem_cons.mpr ⟨hv, hms⟩

/-- The room for nesting has no influence on what is yielded. -/
theorem Yields.bounded {inside : Nat → Bool → Reader α}
    (h : ∀ fuel first, Yields text (inside fuel first) P) : Yields text (bounded inside) P :=
  yields_get.bind fun _ _ => h _ true

theorem yields_scalar (c : Char) : Yields text (scalar c) Fits := by
  unfold scalar
  split
  · exact (stays_word _).bind fun _ _ => yields_pure trivial
  · exact (stays_word _).bind fun _ _ => yields_pure trivial
  · exact (stays_word _).bind fun _ _ => yields_pure trivial
  · exact stays_skip.bind fun _ _ => stays_stringBody.bind fun _ _ => yields_pure trivial
  · split
    · exact yields_number.bind fun _ hn => yields_pure hn
    · exact yields_failNext

/-- **The reader of values stays in its text**, and what it reads fits. -/
theorem yields_value (room : Nat) : Yields text (value room) Fits := by
  induction room with
  | zero =>
    refine (stays_peekOr _).bind fun c _ => ?_
    split
    · exact yields_failNext
    · exact yields_scalar c
  | succ room ih =>
    refine (stays_peekOr _).bind fun c _ => ?_
    split
    · refine stays_skip.bind fun _ _ => Yields.bind ?_ fun items h =>
        yields_pure (P := Fits) (fitsItems_iff.mpr h)
      exact (Yields.bounded fun fuel first => ih.items fuel first).closing closeArray_suffix
    · split
      · refine stays_skip.bind fun _ _ => Yields.bind ?_ fun members h =>
          yields_pure (P := Fits) (fitsMembers_iff.mpr h)
        exact (Yields.bounded fun fuel first => ih.members fuel first).closing closeObject_suffix
      · exact yields_scalar c

/-! ## Passing over values -/

theorem stays_passEscape : Stays text passEscape := by
  refine yields_get.bind fun s hs => ?_
  split
  · exact yields_failHere
  · have hrest := stays_set (suffix_of_cons hs)
    split
    · exact hrest.bind fun _ _ => stays_fourHex.bind fun _ _ => yields_pure trivial
    · split
      · exact hrest
      · exact yields_failNext

theorem stays_passChars (fuel : Nat) : Stays text (passChars fuel) := by
  induction fuel with
  | zero => exact yields_failHere
  | succ fuel ih =>
    refine yields_get.bind fun s hs => ?_
    split
    · exact yields_failHere
    · have hrest := stays_set (suffix_of_cons hs)
      split
      · exact hrest
      · split
        · exact hrest.bind fun _ _ => stays_passEscape.bind fun _ _ => ih
        · split
          · exact yields_failHere
          · exact hrest.bind fun _ _ => ih

theorem stays_passString : Stays text passString := yields_get.bind fun _ _ => stays_passChars _

theorem stays_passDigits : Stays text passDigits := by
  intro s a rest hs h
  cases h
  exact ⟨(List.dropWhile_suffix _).trans hs, trivial⟩

theorem stays_passExponent : Stays text passExponent := by
  have hdigits : Stays text (do
      if startsWithDigit (← get) then passDigits else failNext .invalidNumber) := by
    refine yields_get.bind fun s _ => ?_
    split
    · exact stays_passDigits
    · exact yields_failNext
  refine yields_get.bind fun s hs => ?_
  dsimp only
  split
  · exact (stays_set (suffix_of_cons hs)).bind fun _ _ => hdigits
  · exact (stays_set (suffix_of_cons hs)).bind fun _ _ => hdigits
  · exact hdigits

theorem stays_passExponent? : Stays text passExponent? := by
  refine yields_get.bind fun s hs => ?_
  split
  · exact (stays_set (suffix_of_cons hs)).bind fun _ _ => stays_passExponent
  · exact (stays_set (suffix_of_cons hs)).bind fun _ _ => stays_passExponent
  · exact yields_pure trivial

theorem stays_passAfterWhole : Stays text passAfterWhole := by
  refine yields_get.bind fun s hs => ?_
  split
  · refine (stays_set (suffix_of_cons hs)).bind fun _ _ => ?_
    split
    · exact stays_passDigits.bind fun _ _ => stays_passExponent?
    · exact yields_failNext
  · exact stays_passExponent?

theorem stays_passNumeral : Stays text passNumeral := by
  refine yields_get.bind fun s hs => ?_
  split
  · split
    · exact yields_failAt
    · exact (stays_set (suffix_of_cons hs)).bind fun _ _ => stays_passAfterWhole
  · split
    · exact stays_passDigits.bind fun _ _ => stays_passAfterWhole
    · exact yields_failNext

theorem stays_passScalar (c : Char) : Stays text (passScalar c) := by
  unfold passScalar
  split
  · exact stays_word _
  · exact stays_word _
  · exact stays_word _
  · exact stays_skip.bind fun _ _ => stays_passString
  · exact stays_skip.bind fun _ _ => stays_passNumeral
  · split
    · exact stays_passNumeral
    · exact yields_failNext

theorem stays_toValue (b : Bracket) : Stays text (toValue b) := by
  cases b with
  | array => exact yields_pure trivial
  | object =>
    refine (stays_peekOr _).bind fun c _ => ?_
    split
    · exact stays_skip.bind fun _ _ => stays_passString.bind fun _ _ => stays_colon
    · exact yields_failNext

/-- The three steps of passing over a value, by their common fuel. -/
theorem stays_passing (fuel : Nat) :
    (∀ outer, Stays text (passValue fuel outer)) ∧
      (∀ b outer, Stays text (passOpened fuel b outer)) ∧
        ∀ outer, Stays text (passFollowing fuel outer) := by
  induction fuel with
  | zero =>
    refine ⟨fun _ => yields_failNext, fun _ _ => yields_failNext, fun outer => ?_⟩
    cases outer with
    | nil => exact yields_pure trivial
    | cons b outer => exact yields_failNext
  | succ fuel ih =>
    obtain ⟨hvalue, hopened, hfollowing⟩ := ih
    refine ⟨fun outer => ?_, fun b outer => ?_, fun outer => ?_⟩
    · refine (stays_peekOr _).bind fun c _ => ?_
      split
      · exact stays_skip.bind fun _ _ => hopened _ _
      · split
        · exact stays_skip.bind fun _ _ => hopened _ _
        · exact (stays_passScalar c).bind fun _ _ => hfollowing _
    · refine (stays_peekOr _).bind fun c _ => ?_
      split
      · exact stays_skip.bind fun _ _ => hfollowing _
      · exact (stays_toValue b).bind fun _ _ => hvalue _
    · cases outer with
      | nil => exact yields_pure trivial
      | cons b outer =>
        refine (stays_peekOr _).bind fun c _ => ?_
        split
        · exact stays_skip.bind fun _ _ => (stays_toValue b).bind fun _ _ => hvalue _
        · split
          · exact stays_skip.bind fun _ _ => hfollowing _
          · exact yields_failNext

/-- Passing over a value stays in the text. -/
theorem stays_pass : Stays text pass := yields_get.bind fun _ _ => (stays_passing _).1 []

end Reader

/-! ## Whole texts -/

/-- What a reader yields is what a whole text is read as. -/
theorem of_readText {α : Type} {reader : Nat → Reader α} {P : α → Prop} {text : String} {a : α}
    (h : ∀ room, Reader.Yields text.toList (reader room) P) (ha : readText reader text = .ok a) :
    P a := by
  unfold readText at ha
  dsimp only at ha
  split at ha
  · cases ha
  · cases ha
  · rename_i b rest hread
    split at ha
    · cases ha
      exact (h _ _ _ _ (List.suffix_refl _) hread).2
    · cases ha

/-- **A value that was read from a text is normal and fits.** -/
theorem of_ofText {text : String} {v : Json} (h : ofText text = .ok v) : v.IsNormal ∧ v.Fits := by
  unfold ofText at h
  cases hread : readText Reader.value text with
  | error e =>
    rw [hread] at h
    cases h
  | ok w =>
    rw [hread] at h
    cases h
    exact ⟨isNormal_normalize w, fits_normalize (of_readText Reader.yields_value hread)⟩

end StatementPress.Json
