import Mathlib
import StatementPress.Proofs.Json.Doubles
import StatementPress.Proofs.Json.InText
import StatementPress.Proofs.Json.Numerals

/-!
# Values that were written

The text of a value is read to its end.  Strings, whole numbers, keys and their order come back as
they were, and each double as what its own text is read as (`toOption_value_text`).  So the text is
refused only for a double out of range, or for nesting that is too deep.
-/

namespace StatementPress.Json

namespace Reader

variable {rest : List Char}

/-! ## Strings -/

/-- A hexadecimal digit is read as what it was written for. -/
theorem hexValue?_digitChar {n : Nat} (h : n < 16) : Text.hexValue? (Nat.digitChar n) = some n := by
  have hall : ∀ n < 16, Text.hexValue? (Nat.digitChar n) = some n := by decide
  exact hall n h

/-- A character takes at least one byte. -/
theorem length_le_byteSize (cs : List Char) : cs.length ≤ Text.byteSize cs := by
  have hgo : ∀ (cs : List Char) (n : Nat),
      n + cs.length ≤ cs.foldl (fun n c => n + c.utf8Size) n := by
    intro cs
    induction cs with
    | nil => exact fun n => le_rfl
    | cons c cs ih =>
      intro n
      have := c.utf8Size_pos
      have := ih (n + c.utf8Size)
      rw [List.length_cons, List.foldl_cons]
      omega
  exact (Nat.zero_add _).symm.trans_le (hgo cs 0)

/-- The escape of a control character gives its code. -/
theorem fourHex_control {n : Nat} (h : n < 0x20) :
    fourHex ('0' :: '0' :: Nat.digitChar (n / 16) :: Nat.digitChar (n % 16) :: rest) =
      .ok (n, rest) := by
  have hsize := length_le_byteSize
    ('0' :: '0' :: Nat.digitChar (n / 16) :: Nat.digitChar (n % 16) :: rest)
  have hzero : Text.hexValue? '0' = some 0 := by decide
  have hcode : ((0 * 16 + 0) * 16 + n / 16) * 16 + n % 16 = n := by omega
  rw [fourHex, get_bind, if_neg (by simp only [List.length_cons] at hsize; omega)]
  dsimp only
  rw [hzero, hexValue?_digitChar (by omega), hexValue?_digitChar (by omega)]
  dsimp only
  rw [hcode]
  rfl

/-- One escaped character is read as the character. -/
theorem stringChars_escapeChar (fuel : Nat) (c : Char) (s : List Char) :
    stringChars (fuel + 1) (escapeChar c ++ s) =
      (stringChars fuel >>= fun cs => pure (c :: cs)) s := by
  unfold escapeChar
  split
  · subst_vars
    rfl
  split
  · subst_vars
    rfl
  split
  · subst_vars
    rfl
  split
  · subst_vars
    rfl
  split
  · subst_vars
    rfl
  split
  · subst_vars
    rfl
  split
  · subst_vars
    rfl
  split
  · rename_i hcontrol
    have hcode : codeEscape ('0' :: '0' :: Nat.digitChar (c.toNat / 16) ::
        Nat.digitChar (c.toNat % 16) :: s) = .ok (c, s) := by
      rw [codeEscape, bind_of_ok (fourHex_control hcontrol), if_neg (by omega), if_pos (by omega),
        Char.ofNat_toNat]
      rfl
    have hescape : escape ('u' :: '0' :: '0' :: Nat.digitChar (c.toNat / 16) ::
        Nat.digitChar (c.toNat % 16) :: s) = .ok (c, s) := hcode
    change (escape >>= fun e => stringChars fuel >>= fun cs => pure (e :: cs)) _ = _
    exact bind_of_ok hescape
  · rename_i hquote hbackslash _ _ _ _ _ hcontrol
    rw [stringChars, get_bind]
    simp only [List.singleton_append, set_bind, hquote, hbackslash, hcontrol, if_false]

/-- Escaped characters are read up to the quotation mark behind them. -/
theorem stringChars_flatMap {cs : List Char} {fuel : Nat} (h : cs.length < fuel) :
    stringChars fuel (cs.flatMap escapeChar ++ '"' :: rest) = .ok (cs, rest) := by
  induction cs generalizing fuel with
  | nil =>
    obtain ⟨fuel, rfl⟩ := Nat.exists_eq_add_one_of_ne_zero (Nat.ne_of_gt h)
    rfl
  | cons c cs ih =>
    obtain ⟨fuel, rfl⟩ := Nat.exists_eq_add_one_of_ne_zero (Nat.ne_of_gt (Nat.zero_lt_of_lt h))
    rw [List.length_cons] at h
    rw [List.flatMap_cons, List.append_assoc, stringChars_escapeChar, bind_of_ok (ih (by omega))]
    rfl

theorem escapeChar_ne_nil (c : Char) : escapeChar c ≠ [] := by
  unfold escapeChar
  repeat' split
  all_goals exact List.cons_ne_nil _ _

theorem length_le_flatMap_escapeChar (cs : List Char) :
    cs.length ≤ (cs.flatMap escapeChar).length := by
  induction cs with
  | nil => exact le_rfl
  | cons c cs ih =>
    have := List.length_pos_iff.mpr (escapeChar_ne_nil c)
    rw [List.flatMap_cons, List.length_append, List.length_cons]
    omega

/-- **A string is read back.** -/
theorem stringBody_stringText (s : String) :
    (skip >>= fun _ => stringBody) ((stringText s).toList ++ rest) = .ok (s, rest) := by
  have hlength := length_le_flatMap_escapeChar s.toList
  have htext : (stringText s).toList ++ rest =
      '"' :: (s.toList.flatMap escapeChar ++ '"' :: rest) := by
    simp [stringText]
  rw [htext]
  change stringBody (s.toList.flatMap escapeChar ++ '"' :: rest) = _
  rw [stringBody, get_bind, bind_of_ok (stringChars_flatMap (by
    rw [List.length_append, List.length_cons]
    omega)), String.ofList_toList]
  rfl

/-! ## Steps -/

theorem toOption_bind {α β : Type} (r : Reader α) (f : α → Reader β) (s : List Char) :
    ((r >>= f) s).toOption = (r s).toOption.bind fun p => (f p.1 p.2).toOption := by
  change ((r s >>= fun p => f p.1 p.2) : Except Failure (β × List Char)).toOption = _
  cases r s <;> rfl

theorem peekOr_cons {c : Char} (hc : isSpace c = false) (problem : Problem) (s : List Char) :
    peekOr problem (c :: s) = .ok (c, c :: s) := by
  have hpeek : peek (c :: s) = .ok (some c, c :: s) := by
    rw [peek, List.dropWhile_cons_of_neg (by simp [hc])]
    rfl
  rw [peekOr, bind_of_ok hpeek]
  rfl

theorem skip_cons (c : Char) (s : List Char) : skip (c :: s) = .ok ((), s) := rfl

theorem nextItem_end (first : Bool) (s : List Char) :
    nextItem first (']' :: s) = .ok (false, ']' :: s) := by
  rw [nextItem, bind_of_ok (peekOr_cons (by decide) _ _)]
  rfl

theorem nextItem_first {c : Char} (hc : isSpace c = false) (hc' : c ≠ ']') (s : List Char) :
    nextItem true (c :: s) = .ok (true, c :: s) := by
  rw [nextItem, bind_of_ok (peekOr_cons hc _ _), if_neg hc']
  rfl

theorem nextItem_comma {c : Char} (hc : isSpace c = false) (hc' : c ≠ ']') (s : List Char) :
    nextItem false (',' :: c :: s) = .ok (true, c :: s) := by
  rw [nextItem, bind_of_ok (peekOr_cons (by decide) _ _), if_neg (by decide),
    if_neg Bool.false_ne_true, if_pos rfl, bind_of_ok (skip_cons _ _),
    bind_of_ok (peekOr_cons hc _ _), if_neg hc']
  rfl

theorem nextKey_end (first : Bool) (s : List Char) :
    nextKey first ('\x7d' :: s) = .ok (false, '\x7d' :: s) := by
  rw [nextKey, bind_of_ok (peekOr_cons (by decide) _ _)]
  rfl

theorem nextKey_first (s : List Char) : nextKey true ('"' :: s) = .ok (true, '"' :: s) := by
  rw [nextKey, bind_of_ok (peekOr_cons (by decide) _ _)]
  rfl

theorem nextKey_comma (s : List Char) : nextKey false (',' :: '"' :: s) = .ok (true, '"' :: s) := by
  rw [nextKey, bind_of_ok (peekOr_cons (by decide) _ _), if_neg (by decide),
    if_neg Bool.false_ne_true, if_pos rfl, bind_of_ok (skip_cons _ _),
    bind_of_ok (peekOr_cons (by decide) _ _), if_pos rfl]
  rfl

theorem colon_cons (s : List Char) : colon (':' :: s) = .ok ((), s) := by
  rw [colon, bind_of_ok (peekOr_cons (by decide) _ _)]
  rfl

/-- What is read inside brackets is read with the closing bracket behind it. -/
theorem toOption_closing {α : Type} {close : List Char → List Char × Option Problem}
    {inside : Reader α} {s left rest : List Char} {a : Option α}
    (hclose : close left = (rest, none)) (h : (inside s).toOption = a.map (·, left)) :
    (closing close inside s).toOption = a.map (·, rest) := by
  unfold closing
  cases hs : inside s with
  | error e =>
    rw [hs] at h
    cases a with
    | none => cases e <;> rfl
    | some a => cases h
  | ok p =>
    rw [hs] at h
    cases a with
    | none => cases h
    | some a =>
      cases h
      simp only [hclose]
      rfl

end Reader

/-! ## Values -/

/-- Whether no double of a value is refused when the value is read again. -/
def Readable (v : Json) : Prop := ∀ x ∈ v.doubles, x.reread.isFinite = true

instance (v : Json) : Decidable v.Readable := by
  unfold Readable
  infer_instance

/-- **What the text of a value is read as.** -/
def reread? (v : Json) : Option Json :=
  if v.Readable then some (v.mapDoubles Binary64.reread) else none

/-- What is read of each in a list is read of the list. -/
theorem mapM_eq_ite {α β : Type} {p : α → Prop} [DecidablePred p] {f : α → β} {g : α → Option β}
    (h : ∀ a, g a = if p a then some (f a) else none) (l : List α) :
    l.mapM g = if ∀ a ∈ l, p a then some (l.map f) else none := by
  induction l with
  | nil => simp
  | cons a l ih =>
    rw [List.mapM_cons, ih, h]
    by_cases ha : p a
    · by_cases hl : ∀ b ∈ l, p b
      · rw [if_pos ha, if_pos hl, if_pos (List.forall_mem_cons.mpr ⟨ha, hl⟩)]
        rfl
      · rw [if_pos ha, if_neg hl, if_neg fun hall => hl (List.forall_mem_cons.mp hall).2]
        rfl
    · rw [if_neg ha, if_neg fun hall => ha (List.forall_mem_cons.mp hall).1]
      rfl

/-- An array can be read exactly if its items can. -/
theorem readable_array_iff {items : List Json} :
    (array items).Readable ↔ ∀ item ∈ items, item.Readable := by
  rw [Readable, doubles, itemsDoubles_eq]
  simp only [List.mem_flatMap, Readable]
  exact ⟨fun h item hitem x hx => h x ⟨item, hitem, hx⟩, fun h x ⟨item, hitem, hx⟩ =>
    h item hitem x hx⟩

/-- An object can be read exactly if its members can. -/
theorem readable_object_iff {members : List (String × Json)} :
    (object members).Readable ↔ ∀ m ∈ members, m.2.Readable := by
  rw [Readable, doubles, membersDoubles_eq]
  simp only [List.mem_flatMap, Readable]
  exact ⟨fun h m hm x hx => h x ⟨m, hm, hx⟩, fun h x ⟨m, hm, hx⟩ => h m hm x hx⟩

theorem reread?_array (items : List Json) :
    (array items).reread? = (items.mapM reread?).map array := by
  rw [mapM_eq_ite (p := Readable) (g := reread?) fun _ => rfl, reread?, mapDoubles, mapItems_eq]
  simp only [readable_array_iff]
  split <;> rfl

/-- What a member is read as. -/
def rereadMember? (m : String × Json) : Option (String × Json) := m.2.reread?.map fun v => (m.1, v)

theorem reread?_object (members : List (String × Json)) :
    (object members).reread? = (members.mapM rereadMember?).map object := by
  have hmember : ∀ m, rereadMember? m =
      if m.2.Readable then some (m.1, m.2.mapDoubles Binary64.reread) else none := by
    intro m
    rw [rereadMember?, reread?]
    split <;> rfl
  rw [mapM_eq_ite (p := fun m : String × Json => m.2.Readable) hmember, reread?, mapDoubles,
    mapMembers_eq]
  simp only [readable_object_iff]
  split <;> rfl

/-- A value without doubles is read back as it is. -/
theorem reread?_of_doubles {v : Json} (h : v.doubles = []) (hv : v.mapDoubles Binary64.reread = v) :
    v.reread? = some v := by
  rw [reread?, if_pos (by rw [Readable, h]; exact fun _ hx => nomatch hx), hv]

/-! ## The text of a value -/

/-- The texts of the items behind the first one. -/
def moreItems (items : List Json) : List Char := items.flatMap fun item => ',' :: item.text.toList

/-- The text of a member. -/
def memberChars (m : String × Json) : List Char :=
  (stringText m.1).toList ++ ':' :: m.2.text.toList

/-- The texts of the members behind the first one. -/
def moreMembers (members : List (String × Json)) : List Char :=
  members.flatMap fun m => ',' :: memberChars m

theorem toList_itemsText_cons (item : Json) (rest : List Json) :
    (itemsText (item :: rest)).toList = item.text.toList ++ moreItems rest := by
  induction rest generalizing item with
  | nil => simp [itemsText, moreItems]
  | cons next rest ih => simp [itemsText, ih next, moreItems]

theorem toList_membersText_cons (m : String × Json) (rest : List (String × Json)) :
    (membersText (m :: rest)).toList = memberChars m ++ moreMembers rest := by
  induction rest generalizing m with
  | nil => simp [membersText, moreMembers, memberChars]
  | cons next rest ih => simp [membersText, ih next, moreMembers, memberChars]

/-- Whether a character can stand at the start of a value. -/
def StartsValue (c : Char) : Prop := Reader.isSpace c = false ∧ c ≠ ']'

theorem startsValue_of_numeral {c : Char} (h : c = '-' ∨ c.isDigit = true) :
    StartsValue c ∧ c ≠ '[' ∧ c ≠ '\x7b' ∧ c ≠ 'n' ∧ c ≠ 't' ∧ c ≠ 'f' ∧ c ≠ '"' := by
  have hspace : Reader.isSpace c = false := by
    rw [Reader.isSpace]
    by_contra hne
    simp only [Bool.or_eq_true, decide_eq_true_eq, Bool.not_eq_false] at hne
    rcases hne with ((rfl | rfl) | rfl) | rfl <;> exact absurd h (by decide)
  refine ⟨⟨hspace, ?_⟩, ?_, ?_, ?_, ?_, ?_, ?_⟩
  all_goals
    rintro rfl
    exact absurd h (by decide)

/-- The text of a value is not empty, and its first character says what kind it is. -/
theorem exists_text_eq_cons (v : Json) : ∃ c cs, v.text.toList = c :: cs ∧ StartsValue c := by
  cases v with
  | null => exact ⟨'n', ['u', 'l', 'l'], rfl, by decide, by decide⟩
  | bool b =>
    cases b with
    | true => exact ⟨'t', ['r', 'u', 'e'], rfl, by decide, by decide⟩
    | false => exact ⟨'f', ['a', 'l', 's', 'e'], rfl, by decide, by decide⟩
  | number n =>
    obtain ⟨c, cs, hc, hnumeral⟩ := Reader.exists_numberText_eq_cons n
    exact ⟨c, cs, hc, (startsValue_of_numeral hnumeral).1⟩
  | string s => exact ⟨'"', _, by rw [text, stringText, String.toList_ofList], by decide, by decide⟩
  | array items => exact ⟨'[', _, by simp [text]; rfl, by decide, by decide⟩
  | object members => exact ⟨'\x7b', _, by simp [text]; rfl, by decide, by decide⟩

namespace Reader

variable {rest : List Char}

theorem mayFollow_cons {c : Char} (h : c = ',' ∨ c = ']' ∨ c = '\x7d') (s : List Char) :
    MayFollow (c :: s) := by
  intro d hd
  cases hd
  exact h

/-! ## Scalars -/

theorem scalar_numeral {c : Char} (h : c = '-' ∨ c.isDigit = true) :
    scalar c = number >>= fun n => pure (.number n) := by
  obtain ⟨-, -, -, hn, ht, hf, hquote⟩ := startsValue_of_numeral h
  unfold scalar
  split
  · exact absurd rfl hn
  · exact absurd rfl ht
  · exact absurd rfl hf
  · exact absurd rfl hquote
  · rw [if_pos h]

/-- A value that starts with no bracket is read as a scalar. -/
theorem value_scalar {c : Char} (hc : isSpace c = false) (harray : c ≠ '[') (hobject : c ≠ '\x7b')
    (room : Nat) (s : List Char) : value room (c :: s) = scalar c (c :: s) := by
  cases room with
  | zero => rw [value, bind_of_ok (peekOr_cons hc _ _), if_neg (by simp [harray, hobject])]
  | succ room => rw [value, bind_of_ok (peekOr_cons hc _ _), if_neg harray, if_neg hobject]

/-- A number is read back as the decimal that it was written as. -/
theorem toOption_number {n : Number} (hn : n.Fits) (h : MayFollow rest) :
    ((number >>= fun n => pure (.number n)) (n.text.toList ++ rest)).toOption =
      (Json.number n).reread?.map (·, rest) := by
  cases n with
  | whole i =>
    rw [bind_of_ok (number_whole hn h), reread?_of_doubles rfl rfl]
    rfl
  | double x hx =>
    have hreadable : (Json.number (.double x hx)).Readable ↔ x.reread.isFinite = true := by
      simp [Readable, doubles]
    rw [toOption_bind, Number.text, number_doubleText hx h, toOption_doubleOf_written, reread?,
      mapDoubles, ofBinary64]
    by_cases hfinite : x.reread.isFinite = true
    · rw [dif_pos hfinite, if_pos (hreadable.mpr hfinite), dif_pos hfinite]
      rfl
    · rw [dif_neg hfinite, if_neg (mt hreadable.mp hfinite)]
      rfl

/-! ## Arrays and objects -/

/-- One item and then the others. -/
theorem toOption_items_cons {item : Reader Json} {v : Json} {l : List Json} {fuel : Nat}
    {first : Bool} {s : List Char}
    (hnext : nextItem first s = .ok (true, v.text.toList ++ (moreItems l ++ ']' :: rest)))
    (hitem : ∀ rest, MayFollow rest →
      (item (v.text.toList ++ rest)).toOption = v.reread?.map (·, rest))
    (hmore : (items item fuel false (moreItems l ++ ']' :: rest)).toOption =
      (l.mapM reread?).map (·, ']' :: rest)) :
    (items item (fuel + 1) first s).toOption = ((v :: l).mapM reread?).map (·, ']' :: rest) := by
  have hfollow : MayFollow (moreItems l ++ ']' :: rest) := by
    cases l with
    | nil => exact mayFollow_cons (by simp) _
    | cons w l => exact mayFollow_cons (by simp) _
  rw [items, bind_of_ok hnext, if_pos rfl, toOption_bind, hitem _ hfollow, List.mapM_cons]
  cases v.reread? with
  | none => rfl
  | some w =>
    rw [Option.map_some, Option.bind_some, toOption_bind, hmore]
    cases l.mapM reread? <;> rfl

/-- The items after the first one are read back one by one, if each of them is. -/
theorem toOption_moreItems {item : Reader Json} {l : List Json}
    (hitem : ∀ v ∈ l, ∀ rest, MayFollow rest →
      (item (v.text.toList ++ rest)).toOption = v.reread?.map (·, rest))
    {fuel : Nat} (hfuel : l.length < fuel) :
    (items item fuel false (moreItems l ++ ']' :: rest)).toOption =
      (l.mapM reread?).map (·, ']' :: rest) := by
  induction l generalizing fuel with
  | nil =>
    obtain ⟨fuel, rfl⟩ := Nat.exists_eq_add_one_of_ne_zero (Nat.ne_of_gt hfuel)
    rw [moreItems, List.flatMap_nil, List.nil_append, items, bind_of_ok (nextItem_end _ _)]
    rfl
  | cons v l ih =>
    obtain ⟨fuel, rfl⟩ := Nat.exists_eq_add_one_of_ne_zero (Nat.ne_of_gt (Nat.zero_lt_of_lt hfuel))
    obtain ⟨hv, hl⟩ := List.forall_mem_cons.mp hitem
    rw [List.length_cons] at hfuel
    refine toOption_items_cons ?_ hv (ih hl (by omega))
    obtain ⟨c, cs, hc, hspace, hbracket⟩ := exists_text_eq_cons v
    have htext : moreItems (v :: l) ++ ']' :: rest =
        ',' :: (v.text.toList ++ (moreItems l ++ ']' :: rest)) := by
      simp [moreItems]
    rw [htext, hc]
    exact nextItem_comma hspace hbracket _

/-- The items of an array, up to its closing bracket. -/
theorem toOption_items {item : Reader Json} {l : List Json}
    (hitem : ∀ v ∈ l, ∀ rest, MayFollow rest →
      (item (v.text.toList ++ rest)).toOption = v.reread?.map (·, rest))
    {fuel : Nat} (hfuel : l.length < fuel) :
    (items item fuel true ((itemsText l).toList ++ ']' :: rest)).toOption =
      (l.mapM reread?).map (·, ']' :: rest) := by
  obtain ⟨fuel, rfl⟩ := Nat.exists_eq_add_one_of_ne_zero (Nat.ne_of_gt (Nat.zero_lt_of_lt hfuel))
  cases l with
  | nil =>
    rw [itemsText, String.toList_empty, List.nil_append, items, bind_of_ok (nextItem_end _ _)]
    rfl
  | cons v l =>
    obtain ⟨hv, hl⟩ := List.forall_mem_cons.mp hitem
    rw [List.length_cons] at hfuel
    refine toOption_items_cons ?_ hv (toOption_moreItems hl (by omega))
    obtain ⟨c, cs, hc, hspace, hbracket⟩ := exists_text_eq_cons v
    rw [toList_itemsText_cons, List.append_assoc, hc]
    exact nextItem_first hspace hbracket _

/-- One member and then the others. -/
theorem toOption_members_cons {value : Reader Json} {m : String × Json}
    {l : List (String × Json)} {fuel : Nat} {first : Bool} {s : List Char}
    (hnext : nextKey first s = .ok (true, memberChars m ++ (moreMembers l ++ '\x7d' :: rest)))
    (hvalue : ∀ rest, MayFollow rest →
      (value (m.2.text.toList ++ rest)).toOption = m.2.reread?.map (·, rest))
    (hmore : (members value fuel false (moreMembers l ++ '\x7d' :: rest)).toOption =
      (l.mapM rereadMember?).map (·, '\x7d' :: rest)) :
    (members value (fuel + 1) first s).toOption =
      ((m :: l).mapM rereadMember?).map (·, '\x7d' :: rest) := by
  have hfollow : MayFollow (moreMembers l ++ '\x7d' :: rest) := by
    cases l with
    | nil => exact mayFollow_cons (by simp) _
    | cons n l => exact mayFollow_cons (by simp) _
  have hkey : key (memberChars m ++ (moreMembers l ++ '\x7d' :: rest)) =
      .ok (m.1, ':' :: (m.2.text.toList ++ (moreMembers l ++ '\x7d' :: rest))) := by
    rw [memberChars, List.append_assoc]
    exact stringBody_stringText m.1
  rw [members, bind_of_ok hnext, if_pos rfl, bind_of_ok hkey, bind_of_ok (colon_cons _),
    toOption_bind, hvalue _ hfollow, List.mapM_cons, rereadMember?]
  cases m.2.reread? with
  | none => rfl
  | some w =>
    rw [Option.map_some, Option.bind_some, toOption_bind, hmore]
    cases l.mapM rereadMember? <;> rfl

/-- The members after the first one are read back one by one, if each of their values is. -/
theorem toOption_moreMembers {value : Reader Json} {l : List (String × Json)}
    (hvalue : ∀ m ∈ l, ∀ rest, MayFollow rest →
      (value (m.2.text.toList ++ rest)).toOption = m.2.reread?.map (·, rest))
    {fuel : Nat} (hfuel : l.length < fuel) :
    (members value fuel false (moreMembers l ++ '\x7d' :: rest)).toOption =
      (l.mapM rereadMember?).map (·, '\x7d' :: rest) := by
  induction l generalizing fuel with
  | nil =>
    obtain ⟨fuel, rfl⟩ := Nat.exists_eq_add_one_of_ne_zero (Nat.ne_of_gt hfuel)
    rw [moreMembers, List.flatMap_nil, List.nil_append, members, bind_of_ok (nextKey_end _ _)]
    rfl
  | cons m l ih =>
    obtain ⟨fuel, rfl⟩ := Nat.exists_eq_add_one_of_ne_zero (Nat.ne_of_gt (Nat.zero_lt_of_lt hfuel))
    obtain ⟨hm, hl⟩ := List.forall_mem_cons.mp hvalue
    rw [List.length_cons] at hfuel
    refine toOption_members_cons ?_ hm (ih hl (by omega))
    have htext : moreMembers (m :: l) ++ '\x7d' :: rest =
        ',' :: (memberChars m ++ (moreMembers l ++ '\x7d' :: rest)) := by
      simp [moreMembers]
    have hkey : memberChars m = '"' :: (memberChars m).tail := by
      simp [memberChars, stringText]
    rw [htext, hkey]
    exact nextKey_comma _

/-- The members of an object, up to its closing bracket. -/
theorem toOption_members {value : Reader Json} {l : List (String × Json)}
    (hvalue : ∀ m ∈ l, ∀ rest, MayFollow rest →
      (value (m.2.text.toList ++ rest)).toOption = m.2.reread?.map (·, rest))
    {fuel : Nat} (hfuel : l.length < fuel) :
    (members value fuel true ((membersText l).toList ++ '\x7d' :: rest)).toOption =
      (l.mapM rereadMember?).map (·, '\x7d' :: rest) := by
  obtain ⟨fuel, rfl⟩ := Nat.exists_eq_add_one_of_ne_zero (Nat.ne_of_gt (Nat.zero_lt_of_lt hfuel))
  cases l with
  | nil =>
    rw [membersText, String.toList_empty, List.nil_append, members, bind_of_ok (nextKey_end _ _)]
    rfl
  | cons m l =>
    obtain ⟨hm, hl⟩ := List.forall_mem_cons.mp hvalue
    rw [List.length_cons] at hfuel
    refine toOption_members_cons ?_ hm (toOption_moreMembers hl (by omega))
    have hkey : memberChars m = '"' :: (memberChars m).tail := by
      simp [memberChars, stringText]
    rw [toList_membersText_cons, List.append_assoc, hkey]
    exact nextKey_first _

/-! ## Values -/

theorem length_le_moreItems (items : List Json) : items.length ≤ (moreItems items).length := by
  induction items with
  | nil => exact le_rfl
  | cons item rest ih =>
    rw [moreItems] at ih ⊢
    rw [List.flatMap_cons, List.length_append, List.length_cons, List.length_cons]
    omega

/-- Each item takes at least one character, so the fuel for items never runs out. -/
theorem length_le_itemsText (items : List Json) :
    items.length ≤ (itemsText items).toList.length := by
  cases items with
  | nil => exact Nat.zero_le _
  | cons item rest =>
    obtain ⟨c, cs, hc, -⟩ := exists_text_eq_cons item
    have := length_le_moreItems rest
    rw [toList_itemsText_cons, hc, List.length_append, List.length_cons, List.length_cons]
    omega

theorem length_le_moreMembers (members : List (String × Json)) :
    members.length ≤ (moreMembers members).length := by
  induction members with
  | nil => exact le_rfl
  | cons m rest ih =>
    rw [moreMembers] at ih ⊢
    rw [List.flatMap_cons, List.length_append, List.length_cons, List.length_cons]
    omega

/-- Each member takes at least one character. -/
theorem length_le_membersText (members : List (String × Json)) :
    members.length ≤ (membersText members).toList.length := by
  cases members with
  | nil => exact Nat.zero_le _
  | cons m rest =>
    have := length_le_moreMembers rest
    rw [toList_membersText_cons, List.length_append, memberChars, List.length_append,
      List.length_cons, List.length_cons]
    omega

/-- An array is read back if its items are, with one level of nesting used up. -/
theorem toOption_array {room : Nat} {l : List Json}
    (hitem : ∀ v ∈ l, ∀ rest, MayFollow rest →
      (value room (v.text.toList ++ rest)).toOption = v.reread?.map (·, rest)) :
    (value (room + 1) ((array l).text.toList ++ rest)).toOption =
      (array l).reread?.map (·, rest) := by
  have htext : (array l).text.toList ++ rest = '[' :: ((itemsText l).toList ++ ']' :: rest) := by
    simp [text]
  have hlength : l.length < ((itemsText l).toList ++ ']' :: rest).length + 1 := by
    have := length_le_itemsText l
    rw [List.length_append]
    omega
  have hinside : (closing closeArray (bounded (items (value room)))
      ((itemsText l).toList ++ ']' :: rest)).toOption = (l.mapM reread?).map (·, rest) :=
    toOption_closing rfl (toOption_items hitem hlength)
  rw [htext, value, bind_of_ok (peekOr_cons (by decide) _ _), if_pos rfl,
    bind_of_ok (skip_cons _ _), toOption_bind, hinside, reread?_array]
  cases l.mapM reread? <;> rfl

/-- An object is read back if its values are, with one level of nesting used up. -/
theorem toOption_object {room : Nat} {l : List (String × Json)}
    (hvalue : ∀ m ∈ l, ∀ rest, MayFollow rest →
      (value room (m.2.text.toList ++ rest)).toOption = m.2.reread?.map (·, rest)) :
    (value (room + 1) ((object l).text.toList ++ rest)).toOption =
      (object l).reread?.map (·, rest) := by
  have htext : (object l).text.toList ++ rest =
      '\x7b' :: ((membersText l).toList ++ '\x7d' :: rest) := by
    simp [text]
  have hlength : l.length < ((membersText l).toList ++ '\x7d' :: rest).length + 1 := by
    have := length_le_membersText l
    rw [List.length_append]
    omega
  have hinside : (closing closeObject (bounded (members (value room)))
      ((membersText l).toList ++ '\x7d' :: rest)).toOption =
        (l.mapM rereadMember?).map (·, rest) :=
    toOption_closing rfl (toOption_members hvalue hlength)
  rw [htext, value, bind_of_ok (peekOr_cons (by decide) _ _), if_neg (by decide), if_pos rfl,
    bind_of_ok (skip_cons _ _), toOption_bind, hinside, reread?_object]
  cases l.mapM rereadMember? <;> rfl

/-- A value without items or members is read whatever nesting is allowed. -/
theorem toOption_flat {v : Json} (hfits : v.Fits) (hflat : v.nesting = 0) (room : Nat)
    (h : MayFollow rest) :
    (value room (v.text.toList ++ rest)).toOption = v.reread?.map (·, rest) := by
  cases v with
  | null =>
    change (value room ('n' :: 'u' :: 'l' :: 'l' :: rest)).toOption = _
    rw [value_scalar (by decide) (by decide) (by decide), reread?_of_doubles rfl rfl]
    rfl
  | bool b =>
    cases b with
    | true =>
      change (value room ('t' :: 'r' :: 'u' :: 'e' :: rest)).toOption = _
      rw [value_scalar (by decide) (by decide) (by decide), reread?_of_doubles rfl rfl]
      rfl
    | false =>
      change (value room ('f' :: 'a' :: 'l' :: 's' :: 'e' :: rest)).toOption = _
      rw [value_scalar (by decide) (by decide) (by decide), reread?_of_doubles rfl rfl]
      rfl
  | number n =>
    obtain ⟨c, cs, hc, hnumeral⟩ := exists_numberText_eq_cons n
    obtain ⟨⟨hspace, -⟩, harray, hobject, -⟩ := startsValue_of_numeral hnumeral
    have hnumber := toOption_number hfits h
    rw [text, hc, List.cons_append] at *
    rw [value_scalar hspace harray hobject, scalar_numeral hnumeral, hnumber]
  | string s =>
    have htext : (stringText s).toList = '"' :: (stringText s).toList.tail := by
      simp [stringText]
    have hbody : (skip >>= fun _ => stringBody) ((stringText s).toList ++ rest) = .ok (s, rest) :=
      stringBody_stringText s
    rw [htext, List.cons_append] at hbody
    rw [text, htext, List.cons_append, value_scalar (by decide) (by decide) (by decide),
      reread?_of_doubles rfl rfl]
    have hscalar : scalar '"' = (skip >>= fun _ => stringBody) >>= fun s => pure (.string s) := by
      rw [bind_assoc]
      rfl
    rw [hscalar, bind_of_ok hbody]
    rfl
  | array items =>
    rw [nesting] at hflat
    omega
  | object members =>
    rw [nesting] at hflat
    omega

/-- **The text of a value is read to its end, as `reread?` tells.** -/
theorem toOption_value_text {room : Nat} {v : Json} (hfits : v.Fits) (hnesting : v.nesting ≤ room)
    (h : MayFollow rest) :
    (value room (v.text.toList ++ rest)).toOption = v.reread?.map (·, rest) := by
  induction room generalizing v rest with
  | zero => exact toOption_flat hfits (Nat.le_zero.mp hnesting) 0 h
  | succ room ih =>
    cases v with
    | array items =>
      exact toOption_array fun v hv rest h =>
        ih (fits_of_mem_array hfits hv) (nesting_array_le_iff.mp hnesting v hv) h
    | object members =>
      exact toOption_object fun m hm rest h =>
        ih (fitsMembers_iff.mp hfits m hm) (nesting_object_le_iff.mp hnesting m hm) h
    | null => exact toOption_flat hfits rfl _ h
    | bool b => exact toOption_flat hfits rfl _ h
    | number n => exact toOption_flat hfits rfl _ h
    | string s => exact toOption_flat hfits rfl _ h

end Reader

/-- **What a text is read as that was written of a value.** -/
theorem toOption_ofText_text {v : Json} (hfits : v.Fits)
    (hnesting : v.nesting ≤ Reader.maxNesting) :
    (ofText v.text).toOption = v.reread?.map normalize := by
  have hread : (Reader.value Reader.maxNesting (v.text.toList ++ [])).toOption =
      v.reread?.map (·, []) := Reader.toOption_value_text hfits hnesting Reader.mayFollow_nil
  rw [List.append_nil] at hread
  unfold ofText readText
  dsimp only
  cases hvalue : Reader.value Reader.maxNesting v.text.toList with
  | error e =>
    rw [hvalue] at hread
    cases hv : v.reread? with
    | none => cases e <;> rfl
    | some w =>
      rw [hv] at hread
      cases hread
  | ok p =>
    rw [hvalue] at hread
    cases hv : v.reread? with
    | none =>
      rw [hv] at hread
      cases hread
    | some w =>
      rw [hv] at hread
      cases hread
      rfl

/-- **A text that was written of a value is read**, if no double of the value is refused. -/
theorem ofText_text {v : Json} (hfits : v.Fits) (hnesting : v.nesting ≤ Reader.maxNesting)
    (hreadable : v.Readable) : ofText v.text = .ok (v.mapDoubles Binary64.reread).normalize := by
  have hread := toOption_ofText_text hfits hnesting
  rw [reread?, if_pos hreadable, Option.map_some] at hread
  cases htext : ofText v.text with
  | error e =>
    rw [htext] at hread
    cases hread
  | ok w =>
    rw [htext] at hread
    cases hread
    rfl

/-! ## What was read before -/

namespace Reader

theorem yields_scalar_flat (text : List Char) (c : Char) :
    Yields text (scalar c) (·.nesting = 0) := by
  unfold scalar
  split
  · exact (stays_word _).bind fun _ _ => yields_pure rfl
  · exact (stays_word _).bind fun _ _ => yields_pure rfl
  · exact (stays_word _).bind fun _ _ => yields_pure rfl
  · exact stays_skip.bind fun _ _ => stays_stringBody.bind fun _ _ => yields_pure rfl
  · split
    · exact yields_number.bind fun _ _ => yields_pure rfl
    · exact yields_failNext

/-- A value is nested no deeper than was allowed. -/
theorem yields_nesting (text : List Char) (room : Nat) :
    Yields text (value room) (·.nesting ≤ room) := by
  have hscalar : ∀ room c, Yields text (scalar c) (·.nesting ≤ room) := by
    intro room c s v rest hs h
    obtain ⟨hrest, hflat⟩ := yields_scalar_flat text c s v rest hs h
    exact ⟨hrest, hflat.trans_le (Nat.zero_le room)⟩
  induction room with
  | zero =>
    refine (stays_peekOr _).bind fun c _ => ?_
    split
    · exact yields_failNext
    · exact hscalar 0 c
  | succ room ih =>
    refine (stays_peekOr _).bind fun c _ => ?_
    split
    · refine stays_skip.bind fun _ _ => Yields.bind ?_ fun items h =>
        yields_pure (P := fun v : Json => v.nesting ≤ room + 1) (nesting_array_le_iff.mpr h)
      exact (Yields.bounded fun fuel first => ih.items fuel first).closing closeArray_suffix
    · split
      · refine stays_skip.bind fun _ _ => Yields.bind ?_ fun members h =>
          yields_pure (P := fun v : Json => v.nesting ≤ room + 1) (nesting_object_le_iff.mpr h)
        exact (Yields.bounded fun fuel first => ih.members fuel first).closing closeObject_suffix
      · exact hscalar (room + 1) c

end Reader

/-- **A value that was read from a text is nested no deeper than may be read.** -/
theorem nesting_le_of_ofText {text : String} {v : Json} (h : ofText text = .ok v) :
    v.nesting ≤ Reader.maxNesting := by
  unfold ofText readText at h
  dsimp only at h
  split at h
  · cases h
  · cases h
  · rename_i w rest hread
    split at h
    · cases h
      exact (nesting_normalize_le w).trans
        (Reader.yields_nesting text.toList _ _ _ _ (List.suffix_refl _) hread).2
    · cases h

end StatementPress.Json
