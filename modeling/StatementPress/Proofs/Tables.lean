import StatementPress.Proofs.JoinedPaths
import StatementPress.Proofs.Markup.Skeleton
import StatementPress.Proofs.Payload.OneRow
import StatementPress.Proofs.Xml.Fragments

/-!
# Tables are read back

The markup of a table, read by itself, is a table: its columns, then one body with a row of headers and
one row for each row of the payload, each with one cell for each column (`TableComponent.ReadsAs`).
What a body cell holds is said by the paths of its column and of the rows (`TableColumn.Finds`): a
column whose path goes on from the row path is read in the row, any other in the payload as a whole.
So two payloads that differ in one row have tables that differ in that row only, and there only in the
columns that are read in it.
-/

namespace StatementPress

open Markup StatementPress.Path
open Xml (elements elementsAt elementsNamed)
open Xml.Scanner (fragmentDocument ofText_inRoot)

/-! ## Texts of cells -/

/-- All text in nodes, at any depth. -/
def Xml.innerText : List Xml.Node → String
  | [] => ""
  | .text s :: rest => s ++ innerText rest
  | .element _ _ children :: rest => innerText children ++ innerText rest
  | _ :: rest => innerText rest

/-- The texts in the cells of the body of a table, row by row. -/
def Xml.Element.grid (table : Xml.Element) : List (List String) :=
  (elementsAt ["table-body", "table-row"] table.children).map fun row =>
    (elementsNamed "table-cell" row.children).map fun cell => innerText cell.children

/-- The text nodes of a string hold the string. -/
theorem Xml.innerText_textNodes (s : String) : innerText (textNodes s) = s := by
  unfold textNodes
  split
  · rename_i h
    rw [h, innerText]
  · simp [innerText]

namespace Markup

/-- What is read in an element that a tree draws: the elements of its trees. -/
theorem elementsNamed_readAll (name : String) (nodes : List Node) (text : Passage) :
    elementsNamed name (Node.readAll nodes ++ readPassage text) =
      (nodes.map Node.asElement).filter (·.name == name) := by
  rw [elementsNamed, Xml.elements_append, Node.elements_readAll, elements_readPassage, List.append_nil]

/-- What is read in an element, all of whose elements have one name. -/
theorem elementsNamed_readAll_of_forall {name : String} {nodes : List Node}
    (h : ∀ node ∈ nodes, node.asElement.name = name) (text : Passage) :
    elementsNamed name (Node.readAll nodes ++ readPassage text) = nodes.map Node.asElement := by
  rw [elementsNamed_readAll, List.filter_eq_self.mpr]
  intro e he
  obtain ⟨node, hnode, rfl⟩ := List.mem_map.mp he
  exact beq_iff_eq.mpr (h node hnode)

/-- A cell holds its text, what no document may hold left out. -/
theorem innerText_cellNode (as : Attributes) (text : String) :
    Xml.innerText (cellNode as text).asElement.children = allowedPart text := by
  have hempty : readPassage .empty = [] := rfl
  simp [cellNode, textBlock, Node.asElement, Node.readAll, Node.read, hempty, Xml.innerText,
    readPassage_escaped, Xml.innerText_textNodes]

/-- A row has a cell for each of its texts. -/
theorem cellTexts_rowNode (as : Attributes) (texts : List String) :
    (elementsNamed "table-cell" (rowNode as texts).asElement.children).map
      (fun cell => Xml.innerText cell.children) = texts.map allowedPart := by
  have hcells : ∀ node ∈ texts.map (cellNode as), node.asElement.name = "table-cell" := by
    intro node hnode
    obtain ⟨text, -, rfl⟩ := List.mem_map.mp hnode
    rfl
  rw [rowNode, Node.asElement, elementsNamed_readAll_of_forall hcells, List.map_map, List.map_map]
  exact List.map_congr_left fun text _ => innerText_cellNode as text

end Markup

namespace TableComponent

variable {c : TableComponent} {payload : Payload}

/-- A table that is read again has one body. -/
theorem elementsNamed_body (c : TableComponent) (payload : Payload) :
    elementsNamed "table-body" (c.node payload).asElement.children =
      [(c.bodyNode payload).asElement] := by
  have hcolumns : (c.columns.map fun column => (columnNode column).asElement).filter
      (fun e => e.name == "table-body") = [] := by
    simp [columnNode, Node.asElement, named]
  rw [node, Node.asElement, elementsNamed_readAll, List.map_append, List.filter_append, List.map_map]
  exact congrArg (· ++ [(c.bodyNode payload).asElement]) hcolumns

/-- **The grid that is read is the headers and the grid that is drawn**, what no document may hold left
out. -/
theorem grid_asElement (c : TableComponent) (payload : Payload) :
    (c.node payload).asElement.grid =
      c.columns.map (fun column => allowedPart column.header) ::
        (c.gridShown payload).map (·.map allowedPart) := by
  have hrows : ∀ node ∈ rowNode boldAttributes (c.columns.map (·.header)) ::
      (c.gridShown payload).map (rowNode (attributes [])), node.asElement.name = "table-row" := by
    intro node hnode
    rcases List.mem_cons.mp hnode with rfl | hnode
    · rfl
    · obtain ⟨texts, -, rfl⟩ := List.mem_map.mp hnode
      rfl
  rw [Xml.Element.grid, elementsAt, elementsNamed_body, List.head?_cons]
  dsimp only
  rw [elementsAt, bodyNode, Node.asElement, elementsNamed_readAll_of_forall hrows, List.map_map,
    List.map_cons, List.map_map]
  refine congrArg₂ List.cons ((cellTexts_rowNode _ _).trans List.map_map) ?_
  exact List.map_congr_left fun texts _ => cellTexts_rowNode _ texts

/-- Whether the markup of a table, read by itself, is one table with the columns and the headers of the
component and with given texts in the rows below the headers. -/
def ReadsAs (c : TableComponent) (payload : Payload) (body : List (List String)) : Prop :=
  ∃ (markup : String) (table : Xml.Element), (c.markup payload).outcome = .ok markup ∧
    (∀ limit, (fragmentDocument [table.toNode]).size ≤ limit →
      Xml.Document.ofText limit (inRoot markup) = .ok (fragmentDocument [table.toNode])) ∧
    outlines [table.toNode] = [tableSkeleton c.columns.length body.length] ∧
    table.grid = c.columns.map (fun column => allowedPart column.header) :: body

/-- The texts that are read in the body of a table. -/
def bodyRead (c : TableComponent) (payload : Payload) : List (List String) :=
  (c.gridShown payload).map (·.map allowedPart)

/-- A table is read in one way only. -/
theorem ReadsAs.unique {body body' : List (List String)} (h : c.ReadsAs payload body)
    (h' : c.ReadsAs payload body') : body = body' := by
  obtain ⟨markup, table, hmarkup, hread, -, hgrid⟩ := h
  obtain ⟨markup', table', hmarkup', hread', -, hgrid'⟩ := h'
  rw [hmarkup, Except.ok.injEq] at hmarkup'
  subst hmarkup'
  have hsame := (hread _ (Nat.le_max_left _ _)).symm.trans (hread' _ (Nat.le_max_right _ _))
  cases table
  cases table'
  cases hsame
  exact (List.cons.inj (hgrid.symm.trans hgrid')).2

/-- The body has as many rows as there are nodes at the row path. -/
theorem length_bodyRead (c : TableComponent) (payload : Payload) :
    (c.bodyRead payload).length = (c.rows payload).length := by
  rw [bodyRead, List.length_map, gridShown, List.length_map]

/-- **A table is read as it is drawn.** -/
theorem readsAs_bodyRead (payload : Payload) (hrow : IsAbsolute c.rowBinding.path)
    (hcolumns : ∀ column ∈ c.columns, IsAbsolute column.binding.path) :
    c.ReadsAs payload (c.bodyRead payload) := by
  have hread : Node.readAll [c.node payload] = [(c.node payload).asElement.toNode] := by
    rw [Node.readAll, Node.readAll, List.append_nil]
    rfl
  have htext : Node.writeAll [c.node payload] = (c.node payload).write := by
    rw [Node.writeAll, Node.writeAll, List.append_nil]
  refine ⟨_, (c.node payload).asElement, outcome_markup (isAbsolute_bindings hrow hcolumns) payload,
    fun limit hlimit => ?_, ?_, grid_asElement c payload⟩
  · rw [← hread] at hlimit ⊢
    rw [← htext]
    exact ofText_inRoot hlimit
  · rw [← hread, Node.outlines_readAll, Node.outlineAll, Node.outlineAll, outline_node,
      length_bodyRead]

end TableComponent

/-! ## What cells show -/

/-- What a column finds for a row.  If its path goes on from the row path it is what the rest leads to
from the row, and otherwise what the whole path leads to from the payload. -/
inductive TableColumn.Finds (column : TableColumn) (rowPath : String) (payload row : Payload)
    (found : String) : Prop
  | inRow {rest : List String} :
      parts column.binding.path = parts rowPath ++ rest →
      row.resolve (ofSegments rest) = .ok found → Finds column rowPath payload row found
  | inPayload :
      ¬ parts rowPath <+: parts column.binding.path →
      payload.resolve column.binding.path = .ok found → Finds column rowPath payload row found

variable {c : TableComponent} {column : TableColumn} {payload changed row row' : Payload}

/-- A column finds its text in the row or in the document, whichever its path says. -/
theorem TableColumn.finds_source (h : IsAbsolute column.binding.path) (rowPath : String)
    (payload row : Payload) :
    column.Finds rowPath payload row ((column.source (parts rowPath)).shown row payload) := by
  rcases column.source_cases (parts rowPath) with ⟨rest, hpath, hsource⟩ | ⟨hbelow, hsource⟩
  · rw [hsource]
    exact .inRow hpath (Payload.resolve_of_isAbsolute (isAbsolute_ofSegments rest) row)
  · rw [hsource]
    exact .inPayload hbelow (Payload.resolve_of_isAbsolute h payload)

namespace TableComponent

/-- Whether texts are what the columns show for a row: what they find, or their fallbacks where that is
empty. -/
def ShowsRow (c : TableComponent) (payload row : Payload) (texts : List String) : Prop :=
  List.Forall₂ (fun column text => ∃ found, column.Finds c.rowBinding.path payload row found ∧
    text = allowedPart (if found = "" then column.binding.fallback else found)) c.columns texts

/-- Each row that is read back shows its row of the payload. -/
theorem forall₂_bodyRead (hcolumns : ∀ column ∈ c.columns, IsAbsolute column.binding.path)
    (payload : Payload) :
    List.Forall₂ (c.ShowsRow payload) (c.rows payload) (c.bodyRead payload) := by
  rw [bodyRead, gridShown, List.map_map, List.forall₂_map_right_iff, List.forall₂_same]
  intro row _
  rw [ShowsRow, Function.comp_apply, List.map_map, List.forall₂_map_right_iff, List.forall₂_same]
  intro column hcolumn
  refine ⟨_, TableColumn.finds_source (hcolumns column hcolumn) _ payload row, ?_⟩
  simp [cellShown]

/-! ## A change in one row -/

/-- The text in a cell of a grid. -/
def cellAt (grid : List (List String)) (i j : Nat) : Option String := grid[i]?.bind (·[j]?)

/-- The cell of a row and a column is the allowed part of what the column shows of the row. -/
theorem cellAt_bodyRead (c : TableComponent) (payload : Payload) (k j : Nat) :
    cellAt (c.bodyRead payload) k j = (c.rows payload)[k]?.bind fun row =>
      c.columns[j]?.map fun column => allowedPart (c.cellShown payload row column) := by
  rw [cellAt, bodyRead, gridShown, List.map_map, List.getElem?_map, Option.bind_map]
  refine Option.bind_congr fun row _ => ?_
  simp only [Function.comp_apply, List.getElem?_map, Option.map_map]
  rfl

/-- A cell depends on its row only if its column is read there, and on the payload only if it is not. -/
theorem cellShown_congr
    (hrow : parts c.rowBinding.path <+: parts column.binding.path → row = row')
    (hpayload : ¬ parts c.rowBinding.path <+: parts column.binding.path →
      payload.textAt column.binding.path = changed.textAt column.binding.path) :
    c.cellShown payload row column = c.cellShown changed row' column := by
  unfold cellShown
  rcases column.source_cases (parts c.rowBinding.path) with ⟨rest, hpath, hsource⟩ | ⟨hbelow, hsource⟩
  · rw [hsource, CellSource.shown, CellSource.shown, hrow ⟨rest, hpath.symm⟩]
  · rw [hsource, CellSource.shown, CellSource.shown, hpayload hbelow]

/-- Payloads that differ in one row have the same rows otherwise. -/
theorem exists_rows_eq_set {i : Nat}
    (h : Payload.DiffersInRow i (parts c.rowBinding.path) payload changed) :
    ∃ row', c.rows changed = (c.rows payload).set i row' := by
  obtain ⟨row', hset⟩ := h.exists_set
  exact ⟨row', by rw [rows, rows, Payload.nodesAt_eq, Payload.nodesAt_eq, hset]⟩

/-- **A change in one row of the payload changes at most what that row shows in the columns that are read
in it.** -/
theorem cellAt_bodyRead_of_differsInRow {i k j : Nat}
    (h : Payload.DiffersInRow i (parts c.rowBinding.path) payload changed)
    (hcolumn : c.columns[j]? = some column)
    (hother : k = i → ¬ parts c.rowBinding.path <+: parts column.binding.path) :
    cellAt (c.bodyRead changed) k j = cellAt (c.bodyRead payload) k j := by
  obtain ⟨row', hrows⟩ := exists_rows_eq_set h
  have htext : ¬ parts c.rowBinding.path <+: parts column.binding.path →
      changed.textAt column.binding.path = payload.textAt column.binding.path := by
    intro hbelow
    rw [Payload.textAt, Payload.textAt, h.text_lookup hbelow]
  rw [cellAt_bodyRead, cellAt_bodyRead, hcolumn, hrows]
  by_cases hk : k = i
  · -- in the row that changed only the columns read in the payload as a whole count
    subst hk
    rw [List.getElem?_set_self']
    cases (c.rows payload)[k]? with
    | none => rw [Option.map_eq_map, Option.map_none, Option.bind_none, Option.bind_none]
    | some row =>
      have hcell : c.cellShown changed row' column = c.cellShown payload row column :=
        cellShown_congr (fun hbelow => absurd hbelow (hother rfl)) htext
      rw [Option.map_eq_map, Option.map_some, Option.bind_some, Option.bind_some, Option.map_some,
        Option.map_some, Function.const_apply, hcell]
  · rw [List.getElem?_set_ne (Ne.symm hk)]
    refine Option.bind_congr fun row _ => ?_
    rw [Option.map_some, Option.map_some, cellShown_congr (fun _ => rfl) htext]

/-- **Tables are read back.**  If the paths of a table are absolute it is drawn for every payload, and its
markup read by itself is one table with the headers and a row for each row of the payload, which holds what
the columns show for it.  A payload that differs in one row gives a table that differs at most in that row,
and there at most in the columns that are read in it. -/
theorem tables_read_back (hrow : IsAbsolute c.rowBinding.path)
    (hcolumns : ∀ column ∈ c.columns, IsAbsolute column.binding.path) (payload : Payload) :
    ∃ rows body, payload.resolveAll c.rowBinding.path = .ok rows ∧ c.ReadsAs payload body ∧
      List.Forall₂ (c.ShowsRow payload) rows body ∧
      ∀ i changed, Payload.DiffersInRow i (parts c.rowBinding.path) payload changed →
        ∃ body', c.ReadsAs changed body' ∧ body'.length = body.length ∧
          ∀ k j column, c.columns[j]? = some column →
            (k = i → ¬ parts c.rowBinding.path <+: parts column.binding.path) →
              cellAt body' k j = cellAt body k j := by
  refine ⟨c.rows payload, c.bodyRead payload, Payload.resolveAll_of_isAbsolute hrow payload,
    readsAs_bodyRead payload hrow hcolumns, forall₂_bodyRead hcolumns payload,
    fun i changed h => ⟨c.bodyRead changed, readsAs_bodyRead changed hrow hcolumns, ?_, ?_⟩⟩
  · obtain ⟨row', hrows⟩ := exists_rows_eq_set h
    rw [length_bodyRead, length_bodyRead, hrows, List.length_set]
  · intro k j column hcolumn hother
    exact cellAt_bodyRead_of_differsInRow h hcolumn hother

/-- A table with two columns that are read in each row and two that are not. -/
def debtsTable : TableComponent where
  id := "debts"
  position := ⟨0, 0, 400, 100⟩
  rowBinding := { path := "/Case//Debt/" }
  columns := [
    { id := "sum", header := "Sum <€>", width := 50, binding := ⟨"/Case/Debt/Sum", "-"⟩ },
    { id := "debt", header := "Debt", width := 50, binding := ⟨"/Case/Debt", ""⟩ },
    { id := "name", header := "Name", width := 50, binding := ⟨"//Case/Name", ""⟩ },
    { id := "debtor", header := "Debtor", width := 50, binding := ⟨"/Case/Debtor", "none"⟩ }]

/-- A payload with two rows. -/
def debtsPayload (second : Payload) : Payload :=
  .element [("Case", .element [("Name", .scalar "A & B"), ("Debt", .sequence
    [.element [("Sum", .scalar "1"), ("#text", .scalar "late")], second])])]

theorem debtsPayload_differsInRow (second second' : Payload) :
    Payload.DiffersInRow 1 ["Case", "Debt"] (debtsPayload second) (debtsPayload second') :=
  @Payload.DiffersInRow.entry 1 [] [] "Case" _ _ _ List.not_mem_nil (fun _ => ⟨rfl, rfl⟩)
    (@Payload.DiffersInRow.entry 1 [("Name", .scalar "A & B")] [] "Debt" _ _ _ (by decide)
      (fun _ => ⟨rfl, rfl⟩) (.item [_, second] second'))

theorem tables_read_back_of_debtsTable :
    ∃ body body',
      debtsTable.ReadsAs (debtsPayload (.scalar "<2>")) body ∧
      body = [["1", "late", "A & B", "none"], ["-", "<2>", "A & B", "none"]] ∧
      debtsTable.ReadsAs (debtsPayload (.element [("Sum", .scalar "2")])) body' ∧
      cellAt body' 0 0 = some "1" ∧ cellAt body' 1 2 = some "A & B" := by
  obtain ⟨rows, body, -, hreads, -, hchange⟩ :=
    tables_read_back (c := debtsTable) (by decide) (by decide) (debtsPayload (.scalar "<2>"))
  obtain ⟨body', hreads', -, hcells⟩ :=
    hchange 1 _ (debtsPayload_differsInRow _ (.element [("Sum", .scalar "2")]))
  have hbody : body = [["1", "late", "A & B", "none"], ["-", "<2>", "A & B", "none"]] := by
    have hdrawn := readsAs_bodyRead (c := debtsTable) (debtsPayload (.scalar "<2>")) (by decide)
      (by decide)
    rw [hreads.unique hdrawn]
    decide +kernel
  have hfirst := hcells 0 0 _ rfl (by decide)
  have hname := hcells 1 2 _ rfl (by decide)
  rw [hbody] at hfirst hname
  exact ⟨body, body', hreads, hbody, hreads', hfirst, hname⟩

end TableComponent

end StatementPress
