import StatementPress.Proofs.CanonicalPayloads
import StatementPress.Proofs.Tables

/-!
# The first row

A path that goes on from the row path can be walked in two ways: from the payload, where a sequence on
the way counts as its first node, or from the first row, along the rest of the path put together anew.
No node of a sequence is a sequence in a payload that was read, so both ways lead to the same text
(`Payload.textAt_first_row`), and the first row of a table shows what its bindings stand for.
-/

namespace StatementPress

open Markup StatementPress.Path

namespace Payload

variable {payload node found row : Payload} {names : List String} {rows : List Payload}

/-! ## Rows are single nodes -/

theorem within_of_first? {inner : Payload} (hfirst : node.first? = some inner)
    (h : Within found inner) : Within found node := by
  cases node with
  | sequence items => exact .item (List.mem_of_head? hfirst) h
  | _ =>
    cases hfirst
    exact h

/-- What names lead to stands in the node they start from. -/
theorem within_of_lookup (h : node.lookup names = some found) : Within found node := by
  induction names generalizing node with
  | nil =>
    cases h
    exact .self
  | cons name names ih =>
    obtain ⟨entries, inner, hfirst, hentry, h⟩ := exists_of_lookup_cons h
    exact within_of_first? hfirst (.entry hentry (ih h))

/-- In a payload that was read no row is a sequence. -/
theorem isSingle_of_mem_nodesAt {limits : Limits} {text path : String}
    (h : (ofText limits text).outcome = .ok payload) (hrow : row ∈ payload.nodesAt path) :
    row.IsSingle := by
  obtain ⟨d, -, rfl, -⟩ := exists_document_of_ofText h
  obtain ⟨found, hfound, hitems⟩ := exists_lookup_of_mem_nodesAt hrow
  rw [hitems] at hrow
  cases found with
  | sequence items =>
    exact isSingle_of_ne_sequence ((canonicalItems_of_within (within_of_lookup hfound)).flat row hrow)
  | _ =>
    rw [List.mem_singleton.mp hrow]
    rfl

/-! ## Two ways to a text -/

/-- Names lead to the same text from a node as from the first of its rows. -/
theorem text_lookup_first (hitems : items (some found) = row :: rows) (hrow : row.IsSingle)
    (names : List String) : (found.lookup names).map text = (row.lookup names).map text := by
  cases found with
  | sequence nodes =>
    have hnodes : nodes = row :: rows := hitems
    rw [hnodes]
    cases names with
    | nil => rfl
    | cons name names => rw [lookup_sequence_cons hrow]
  | _ =>
    cases hitems
    rfl

/-- **A path that goes on from the row path leads to the same text from the payload as its rest does from
the first row.** -/
theorem textAt_first_row {rowPath path : String} {rest : List String}
    (hrows : payload.nodesAt rowPath = row :: rows) (hrow : row.IsSingle)
    (hpath : parts path = parts rowPath ++ rest) :
    row.textAt (ofSegments rest) = payload.textAt path := by
  have hsegments : ∀ name ∈ rest, IsSegment name := by
    intro name hname
    have hmem : name ∈ parts path := hpath ▸ List.mem_append_right _ hname
    exact isSegment_of_mem_parts hmem
  have hfirst : row ∈ payload.nodesAt rowPath := hrows ▸ List.mem_cons_self
  obtain ⟨found, hfound, hitems⟩ := exists_lookup_of_mem_nodesAt hfirst
  rw [hrows] at hitems
  rw [textAt, textAt, hpath, parts_ofSegments hsegments, lookup_append, hfound, Option.bind_some,
    text_lookup_first hitems.symm hrow]

end Payload

/-! ## Cells of the first row -/

namespace TableComponent

variable {c : TableComponent} {payload row : Payload} {rows : List Payload}

/-- A cell of the first row shows what the binding of its column stands for. -/
theorem cellShown_first_row (hrows : c.rows payload = row :: rows) (hrow : row.IsSingle)
    (column : TableColumn) : c.cellShown payload row column = column.binding.shown payload := by
  unfold cellShown
  rcases column.source_cases (parts c.rowBinding.path) with ⟨rest, hpath, hsource⟩ | ⟨-, hsource⟩
  · rw [hsource, CellSource.shown, Payload.textAt_first_row hrows hrow hpath]
    rfl
  · rw [hsource]
    rfl

/-- **The first row shows what the bindings stand for.**  In a payload that was read, if a table has rows,
each cell of the first of them shows what the binding of its column stands for in the payload as a whole:
what a text shows that has this binding and no content of its own. -/
theorem first_row_shows_values {limits : Limits} {text : String}
    (h : (Payload.ofText limits text).outcome = .ok payload)
    (hrow : IsAbsolute c.rowBinding.path)
    (hcolumns : ∀ column ∈ c.columns, IsAbsolute column.binding.path)
    (hrows : payload.resolveAll c.rowBinding.path = .ok (row :: rows)) :
    ∃ first others, (c.grid payload).outcome = .ok (first :: others) ∧
      c.ReadsAs payload ((first :: others).map (·.map allowedPart)) ∧
      List.Forall₂ (fun column shown =>
        (column.binding.value payload).outcome = .ok shown ∧
          ∀ t : TextComponent, t.binding = some column.binding → t.content.getD "" = "" →
            (t.value payload).outcome = .ok shown) c.columns first := by
  have hbindings := isAbsolute_bindings hrow hcolumns
  rw [Payload.resolveAll_of_isAbsolute hrow, Except.ok.injEq] at hrows
  have hsingle : row.IsSingle :=
    Payload.isSingle_of_mem_nodesAt h (hrows ▸ List.mem_cons_self)
  have hgrid : c.gridShown payload = c.columns.map (c.cellShown payload row) ::
      rows.map fun row => c.columns.map (c.cellShown payload row) := by
    rw [gridShown, TableComponent.rows, hrows, List.map_cons]
  refine ⟨_, _, (outcome_grid hbindings payload).trans (congrArg _ hgrid), ?_, ?_⟩
  · rw [← hgrid]
    exact readsAs_bodyRead payload hrow hcolumns
  · rw [List.forall₂_map_right_iff, List.forall₂_same]
    intro column hcolumn
    rw [cellShown_first_row hrows hsingle]
    refine ⟨Binding.outcome_value (hcolumns column hcolumn) payload, fun t ht hcontent => ?_⟩
    rw [TextComponent.outcome_value, TextComponent.shown, hcontent, ht]
    · simp
    · intro b hb
      rw [ht] at hb
      cases hb
      exact hcolumns column hcolumn

/-- A document with two rows, of which the first has a text and an element in it. -/
def debtsText : String :=
  "<Case><Name>A &amp; B</Name><Debt> late <Sum>1</Sum></Debt><Debt>&lt;2&gt;</Debt></Case>"

theorem first_row_shows_values_of_debtsText :
    (Payload.ofText {} debtsText).outcome = .ok (debtsPayload (.scalar "<2>")) ∧
      ∃ first others,
        (debtsTable.grid (debtsPayload (.scalar "<2>"))).outcome = .ok (first :: others) ∧
        first = ["1", "late", "A & B", "none"] ∧
        List.Forall₂ (fun column shown =>
          (column.binding.value (debtsPayload (.scalar "<2>"))).outcome = .ok shown)
          debtsTable.columns first := by
  have hread : Xml.Document.ofText 1000000 debtsText = .ok ⟨[], ⟨"Case", [],
      [.element "Name" [] [.text "A & B"],
        .element "Debt" [] [.text " late ", .element "Sum" [] [.text "1"]],
        .element "Debt" [] [.text "<2>"]]⟩, []⟩ := by cbv
  have hpayload : (Payload.ofText {} debtsText).outcome = .ok (debtsPayload (.scalar "<2>")) := by
    rw [@Payload.outcome_ofText debtsText _ {} (by decide +kernel) hread
      (by simp [Xml.Element.toNode, Xml.nesting])]
    cbv
  obtain ⟨first, others, hgrid, -, hvalues⟩ := first_row_shows_values (c := debtsTable) hpayload
    (by decide) (by decide) rfl
  have hdrawn := hgrid.symm.trans (outcome_grid (by decide) (debtsPayload (.scalar "<2>")))
  have hshown : debtsTable.gridShown (debtsPayload (.scalar "<2>")) =
      [["1", "late", "A & B", "none"], ["-", "<2>", "A & B", "none"]] := by decide +kernel
  rw [hshown, Except.ok.injEq] at hdrawn
  exact ⟨hpayload, first, others, hgrid, (List.cons.inj hdrawn).1, hvalues.imp fun _ _ h => h.1⟩

end TableComponent

end StatementPress
