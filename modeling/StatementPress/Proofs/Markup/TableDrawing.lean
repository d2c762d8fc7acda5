import StatementPress.Proofs.Markup.Drawing

/-!
# What tables draw

A cell is read in its row if the path of its column continues the row path, and in the payload as a
whole otherwise.  Paths inside a row are put together while drawing, and they are absolute whatever
segments they are made of.  So a table whose bindings are absolute always draws
(`TableComponent.outcome_markup`).
-/

namespace StatementPress

open Markup StatementPress.Path

/-! ## Cells -/

/-- The path at which a source is read. -/
def CellSource.path : CellSource → String
  | .row path | .document path => path

/-- The text at a source. -/
def CellSource.shown (row payload : Payload) : CellSource → String
  | .row path => row.textAt path
  | .document path => payload.textAt path

/-- Where the cells of a column are read, given the segments of the row path. -/
def TableColumn.source (rowSegments : List String) (c : TableColumn) : CellSource :=
  if rowSegments.isPrefixOf (parts c.binding.path) then
    .row (ofSegments ((parts c.binding.path).drop rowSegments.length))
  else .document c.binding.path

variable {c : TableColumn}

/-- A column with an absolute path has a source. -/
theorem CellSource.ofColumn_of_isAbsolute (h : IsAbsolute c.binding.path)
    (rowSegments : List String) :
    CellSource.ofColumn rowSegments c = .ok (c.source rowSegments) := by
  rw [CellSource.ofColumn, segments_of_isAbsolute h, ok_bind]
  rfl

theorem TableColumn.isAbsolute_source (h : IsAbsolute c.binding.path) (rowSegments : List String) :
    IsAbsolute (c.source rowSegments).path := by
  unfold TableColumn.source
  split
  · exact isAbsolute_ofSegments _
  · exact h

/-- A column is read in the row, at the rest of its path, if the path goes on from the row path, and in the
payload as a whole if it does not. -/
theorem TableColumn.source_cases (c : TableColumn) (rowSegments : List String) :
    (∃ rest, parts c.binding.path = rowSegments ++ rest ∧
        c.source rowSegments = .row (ofSegments rest)) ∨
      ¬ rowSegments <+: parts c.binding.path ∧ c.source rowSegments = .document c.binding.path := by
  unfold TableColumn.source
  split
  · rename_i hbelow
    rw [List.isPrefixOf_iff_prefix, List.prefix_iff_eq_append] at hbelow
    exact .inl ⟨_, hbelow.symm, rfl⟩
  · rename_i hbelow
    rw [List.isPrefixOf_iff_prefix] at hbelow
    exact .inr ⟨hbelow, rfl⟩

/-- Reading a cell at an absolute path does not fail. -/
theorem CellSource.read_of_isAbsolute {s : CellSource} (h : IsAbsolute s.path)
    (row payload : Payload) : s.read row payload = .ok (s.shown row payload) := by
  cases s with
  | row path => exact Payload.resolve_of_isAbsolute h row
  | document path => exact Payload.resolve_of_isAbsolute h payload

namespace TableComponent

variable {c : TableComponent}

/-- The rows of a table. -/
def rows (c : TableComponent) (payload : Payload) : List Payload :=
  payload.nodesAt c.rowBinding.path

/-- The text of a cell. -/
def cellShown (c : TableComponent) (payload row : Payload) (column : TableColumn) : String :=
  let found := (column.source (parts c.rowBinding.path)).shown row payload
  if found.isEmpty then column.binding.fallback else found

/-- The text of every cell of the body, row by row. -/
def gridShown (c : TableComponent) (payload : Payload) : List (List String) :=
  (c.rows payload).map fun row => c.columns.map (c.cellShown payload row)

theorem isAbsolute_bindings (hrow : IsAbsolute c.rowBinding.path)
    (hcolumns : ∀ column ∈ c.columns, IsAbsolute column.binding.path) :
    ∀ b ∈ (Component.table c).bindings, IsAbsolute b.path :=
  List.forall_mem_cons.mpr ⟨hrow, List.forall_mem_map.mpr hcolumns⟩

/-- A cell shows the text of its source, or the fallback. -/
theorem outcome_cell {column : TableColumn} (h : IsAbsolute column.binding.path)
    (payload row : Payload) :
    (cell row payload (column, column.source (parts c.rowBinding.path))).outcome =
      .ok (c.cellShown payload row column) := by
  rw [cell, Run.outcome_bind, Run.outcome_ofExcept,
    CellSource.read_of_isAbsolute (TableColumn.isAbsolute_source h _), ok_bind,
    Binding.outcome_orFallback]
  rfl

/-- A table with absolute paths has a grid, whatever the payload. -/
theorem outcome_grid (h : ∀ b ∈ (Component.table c).bindings, IsAbsolute b.path)
    (payload : Payload) : (c.grid payload).outcome = .ok (c.gridShown payload) := by
  have hrow : IsAbsolute c.rowBinding.path := h _ List.mem_cons_self
  have hcolumn : ∀ column ∈ c.columns, IsAbsolute column.binding.path := fun column hc =>
    h _ (List.mem_cons_of_mem _ (List.mem_map_of_mem hc))
  have hsources : c.columns.mapM (CellSource.ofColumn (parts c.rowBinding.path)) =
      .ok (c.columns.map (TableColumn.source (parts c.rowBinding.path))) :=
    mapM_of_ok fun column hc => CellSource.ofColumn_of_isAbsolute (hcolumn column hc) _
  have hcells : ∀ row, (cells (c.columns.map fun column =>
      (column, column.source (parts c.rowBinding.path))) payload row).outcome =
        .ok (c.columns.map (c.cellShown payload row)) := by
    intro row
    rw [cells, List.mapM_map]
    exact Run.outcome_mapM_of_ok fun column hc => outcome_cell (hcolumn column hc) payload row
  simp only [grid, Run.outcome_bind, Run.outcome_ofExcept, segments_of_isAbsolute hrow, hsources,
    Payload.resolveAll_of_isAbsolute hrow, Run.outcome_record, ok_bind, ← List.map_prod_left_eq_zip]
  exact Run.outcome_mapM_of_ok fun row _ => hcells row

end TableComponent

/-! ## Trees -/

namespace Markup

/-- A cell of a table. -/
def cellNode (attributes' : Attributes) (text : String) : Node :=
  .element .empty (named "table-cell") (attributes [(named "padding", .fixed "2pt")])
    [textBlock attributes' (.escaped text)] .empty

/-- A row of a table. -/
def rowNode (attributes' : Attributes) (texts : List String) : Node :=
  .element .empty (named "table-row") (attributes []) (texts.map (cellNode attributes')) .empty

/-- The declaration of a column. -/
def columnNode (c : TableColumn) : Node :=
  .leaf .empty (named "table-column") (attributes [(named "column-width", .length c.width)]) false

theorem toList_headerCell (text : String) :
    (headerCell text).toList = (cellNode boldAttributes text).write := by
  unfold headerCell
  simp [cellNode, boldAttributes, Node.write, Node.writeAll, attr, writeTag, writeClosing,
    writeAttribute, qualifierChars, named, attributes]

theorem toList_bodyCell (text : String) :
    (bodyCell text).toList = (cellNode (attributes []) text).write := by
  unfold bodyCell
  simp [cellNode, Node.write, Node.writeAll, attr, writeTag, writeClosing, writeAttribute,
    qualifierChars, named, attributes]

/-- A row of a table is what its tree writes. -/
theorem toList_tableRow {as : Attributes} {cell : String → String}
    (h : ∀ text, (cell text).toList = (cellNode as text).write) (texts : List String) :
    (tableRow (texts.map cell)).toList = (rowNode as texts).write := by
  unfold tableRow
  simp [rowNode, Node.write, Node.writeAll_eq_flatMap, List.flatMap_map, h, writeTag, writeClosing,
    qualifierChars, named, attributes]

end Markup

namespace TableComponent

variable {c : TableComponent}

/-- The body of a table: the headers, then a row for each row of the payload. -/
def bodyNode (c : TableComponent) (payload : Payload) : Node :=
  .element .empty (named "table-body") (attributes [])
    (rowNode boldAttributes (c.columns.map (·.header)) ::
      (c.gridShown payload).map (rowNode (attributes []))) .empty

/-- The tree of a table. -/
def node (c : TableComponent) (payload : Payload) : Node :=
  .element .empty (named "table")
    (attributes [(named "table-layout", .fixed "fixed"), (named "width", .fixed "100%")])
    (c.columns.map columnNode ++ [c.bodyNode payload]) .empty

/-- The markup of a table is what its tree writes. -/
theorem outcome_markup (h : ∀ b ∈ (Component.table c).bindings, IsAbsolute b.path)
    (payload : Payload) :
    (c.markup payload).outcome = .ok (String.ofList (c.node payload).write) := by
  unfold markup
  rw [Run.outcome_bind, outcome_grid h, ok_bind, Run.outcome_pure]
  refine congrArg Except.ok (eq_ofList ?_)
  have hheader : (tableRow (c.columns.map fun column => headerCell column.header)).toList =
      (rowNode boldAttributes (c.columns.map (·.header))).write := by
    rw [← toList_tableRow toList_headerCell, List.map_map]
    rfl
  simp [hheader, node, bodyNode, Node.write, Node.writeAll, Node.writeAll_eq_flatMap,
    List.flatMap_map, columnNode, toList_tableRow toList_bodyCell, attr, writeTag, writeClosing,
    writeAttribute, qualifierChars, named, attributes]

end TableComponent

end StatementPress
