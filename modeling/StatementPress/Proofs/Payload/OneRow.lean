import StatementPress.Proofs.Payload.Nodes

/-!
# Payloads that differ in one row

The rows at a path are the nodes that its names lead to.  Two payloads may differ in one of them and in
nothing else (`DiffersInRow`).  Then the other rows are the same (`DiffersInRow.exists_set`), and so is
the text at every path that does not go on from the row path (`DiffersInRow.text_lookup`).
-/

namespace StatementPress.Payload

/-- Whether two payloads differ in nothing but the `i`-th of the rows that names lead to.  The text that
an element has for its own is no row. -/
inductive DiffersInRow (i : Nat) : List String → Payload → Payload → Prop
  /-- The rows are the nodes of a sequence. -/
  | item (rows : List Payload) (row : Payload) :
      DiffersInRow i [] (.sequence rows) (.sequence (rows.set i row))
  /-- There is one row. -/
  | single {row row' : Payload} :
      i = 0 → row.IsSingle → row'.IsSingle → DiffersInRow i [] row row'
  /-- The rows are further down in an entry of an element. -/
  | entry {before after : List (String × Payload)} {key : String} {inner inner' : Payload}
      {rest : List String} :
      key ∉ before.map (·.1) →
      (key = textKey → inner.isScalar = false ∧ inner'.isScalar = false) →
      DiffersInRow i rest inner inner' →
      DiffersInRow i (key :: rest) (.element (before ++ (key, inner) :: after))
        (.element (before ++ (key, inner') :: after))
  /-- The rows are further down in the first node of a sequence. -/
  | first {entries entries' : List (String × Payload)} {others : List Payload} {key : String}
      {rest : List String} :
      DiffersInRow i (key :: rest) (.element entries) (.element entries') →
      DiffersInRow i (key :: rest) (.sequence (.element entries :: others))
        (.sequence (.element entries' :: others))

variable {i : Nat} {names others : List String} {m n inner inner' : Payload}
  {before after : List (String × Payload)} {key : String}

/-! ## Entries -/

/-- A key that has not come up before leads to its own entry. -/
theorem lookup_entry (h : key ∉ before.map (·.1)) (inner : Payload)
    (after : List (String × Payload)) :
    (before ++ (key, inner) :: after).lookup key = some inner := by
  induction before with
  | nil => rw [List.nil_append, List.lookup_cons, beq_self_eq_true]
  | cons e before ih =>
    rw [List.map_cons, List.mem_cons, not_or] at h
    rw [List.cons_append, List.lookup_cons, beq_eq_false_iff_ne.mpr h.1]
    exact ih h.2

/-- What stands under other keys does not depend on one entry. -/
theorem lookup_entry_of_ne {other : String} (h : other ≠ key) (inner inner' : Payload) :
    (before ++ (key, inner) :: after).lookup other =
      (before ++ (key, inner') :: after).lookup other := by
  have hkey : (other == key) = false := beq_eq_false_iff_ne.mpr h
  rw [List.lookup_append, List.lookup_append, List.lookup_cons, List.lookup_cons, hkey]

theorem text_eq_empty_of_entry (h : textKey ∉ before.map (·.1)) (hinner : inner.isScalar = false) :
    (Payload.element (before ++ (textKey, inner) :: after)).text = "" := by
  rw [text, lookup_entry h]
  cases inner with
  | scalar s => cases hinner
  | _ => rfl

/-- The text of an element does not depend on entries under other keys. -/
theorem text_entry_of_ne (h : textKey ≠ key) (inner inner' : Payload) :
    (Payload.element (before ++ (key, inner) :: after)).text =
      (Payload.element (before ++ (key, inner') :: after)).text := by
  rw [text, text, lookup_entry_of_ne h inner inner']

/-! ## What is the same -/

namespace DiffersInRow

/-- **All rows but one are the same**, and there are as many of them. -/
theorem exists_set (h : DiffersInRow i names m n) :
    ∃ row, items (n.lookup names) = (items (m.lookup names)).set i row := by
  induction h with
  | item rows row => exact ⟨row, rfl⟩
  | @single row row' hi hrow hrow' =>
    refine ⟨row', ?_⟩
    rw [lookup, lookup, items_of_isSingle hrow, items_of_isSingle hrow', hi]
    rfl
  | entry hkey _ _ ih =>
    rw [lookup_element_cons, lookup_element_cons, lookup_entry hkey, lookup_entry hkey]
    exact ih
  | first _ ih =>
    rw [lookup_sequence_cons (isSingle_element _), lookup_sequence_cons (isSingle_element _)]
    exact ih

/-- **The text at a path that does not go on from the row path is the same.** -/
theorem text_lookup (h : DiffersInRow i names m n) (hothers : ¬ names <+: others) :
    (m.lookup others).map text = (n.lookup others).map text := by
  induction h generalizing others with
  | item => exact absurd List.nil_prefix hothers
  | single => exact absurd List.nil_prefix hothers
  | @entry before after key inner inner' rest hkey htext _ ih =>
    cases others with
    | nil =>
      refine congrArg some ?_
      by_cases hown : textKey = key
      · subst hown
        rw [text_eq_empty_of_entry hkey (htext rfl).1, text_eq_empty_of_entry hkey (htext rfl).2]
      · exact text_entry_of_ne hown inner inner'
    | cons other others =>
      rw [lookup_element_cons, lookup_element_cons]
      by_cases hsame : other = key
      · subst hsame
        rw [lookup_entry hkey, lookup_entry hkey]
        exact ih fun hbelow => hothers (List.cons_prefix_cons.mpr ⟨rfl, hbelow⟩)
      · rw [lookup_entry_of_ne hsame inner inner']
  | first _ ih =>
    cases others with
    | nil => exact ih hothers
    | cons other others =>
      rw [lookup_sequence_cons (isSingle_element _), lookup_sequence_cons (isSingle_element _)]
      exact ih hothers

end DiffersInRow

end StatementPress.Payload
