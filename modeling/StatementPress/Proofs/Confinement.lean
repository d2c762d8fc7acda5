import Mathlib
import StatementPress.Proofs.Payload.Nodes
import StatementPress.Proofs.Gates

/-!
# What a document can depend on

The binding paths of a template are all that drawing reads.  Two payloads that have the same nodes
at each of these paths are drawn alike, records included, so nothing else in a payload has any
influence on the document.

A cell may be read at a path that is put together while drawing.  Such a path starts inside a row,
and the rows are what stands at the row path, so it needs no place of its own among the binding
paths.
-/

namespace StatementPress

open Compile

/-! ## Reading at a path -/

namespace Payload

/-- Whether two payloads have the same nodes at each of some paths. -/
def AgreeAt (paths : List String) (m n : Payload) : Prop :=
  ∀ path ∈ paths, m.resolveAll path = n.resolveAll path

/-- The text at a path is that of the first node there. -/
theorem resolve_eq_map_resolveAll (node : Payload) (path : String) :
    node.resolve path =
      (node.resolveAll path).map fun nodes => (nodes.head?.map text).getD "" := by
  unfold resolve resolveAll
  cases Path.segments path with
  | error e => rfl
  | ok segments =>
    rw [ok_bind, ok_bind]
    cases node.lookup segments with
    | none => rfl
    | some found =>
      cases found with
      | sequence items => cases items <;> simp [Except.map, pure, Except.pure, text]
      | _ => rfl

/-- The text at a path is that of the nodes there. -/
theorem resolve_congr {m n : Payload} {path : String} (h : m.resolveAll path = n.resolveAll path) :
    m.resolve path = n.resolve path := by
  rw [resolve_eq_map_resolveAll, h, ← resolve_eq_map_resolveAll]

end Payload

open Payload

variable {m n : Payload}

/-! ## Components -/

theorem Binding.value_congr {b : Binding} (h : m.resolveAll b.path = n.resolveAll b.path) :
    b.value m = b.value n := by
  rw [Binding.value, Binding.value, resolve_congr h]

theorem TextComponent.value_congr {c : TextComponent}
    (h : AgreeAt (c.binding.toList.map (·.path)) m n) : c.value m = c.value n := by
  obtain ⟨frame, content, binding, style⟩ := c
  cases binding with
  | none => cases content <;> rfl
  | some b =>
    have hb : b.value m = b.value n := Binding.value_congr (h b.path (by simp))
    cases content <;> simp only [TextComponent.value, hb]

/-- A source outside the rows is read at the path of its column. -/
theorem CellSource.path_of_ofColumn {rowSegments : List String} {column : TableColumn}
    {path : String} (h : CellSource.ofColumn rowSegments column = .ok (.document path)) :
    path = column.binding.path := by
  unfold CellSource.ofColumn at h
  obtain ⟨segments, -, h⟩ := exists_of_bind_eq_ok h
  split at h <;> cases h
  rfl

namespace TableComponent

/-- A cell of a given row is read in the row, or at the path of its column. -/
theorem cell_congr {column : TableColumn} {source : CellSource} {rowSegments : List String}
    (hsource : CellSource.ofColumn rowSegments column = .ok source)
    (h : m.resolveAll column.binding.path = n.resolveAll column.binding.path) (row : Payload) :
    cell row m (column, source) = cell row n (column, source) := by
  have hread : source.read row m = source.read row n := by
    cases source with
    | row path => rfl
    | document path =>
      rw [CellSource.path_of_ofColumn hsource]
      exact resolve_congr h
  rw [cell, cell, hread]

/-- The cells of a row depend, besides the row, on the paths of their columns only. -/
theorem cells_congr {columns : List TableColumn} {sources : List CellSource}
    {rowSegments : List String}
    (hsources : columns.mapM (CellSource.ofColumn rowSegments) = .ok sources)
    (h : AgreeAt (columns.map (·.binding.path)) m n) (row : Payload) :
    cells (columns.zip sources) m row = cells (columns.zip sources) n row := by
  refine mapM_congr fun (column, source) hmem => ?_
  have hsource := (List.forall₂_iff_zip.mp (forall₂_of_mapM hsources)).2 hmem
  exact cell_congr hsource (h _ (List.mem_map_of_mem (List.of_mem_zip hmem).1)) row

/-- A table depends on the paths of its rows and of its columns only. -/
theorem grid_congr {c : TableComponent}
    (h : AgreeAt ((Component.table c).bindings.map (·.path)) m n) : c.grid m = c.grid n := by
  obtain ⟨hrows, hcolumns⟩ := List.forall_mem_cons.mp h
  rw [List.map_map] at hcolumns
  unfold grid
  rw [hrows]
  refine bind_congr fun rowSegments => ?_
  -- the sources are only known to come from the columns where taking them succeeds
  cases hsources : c.columns.mapM (CellSource.ofColumn rowSegments) with
  | error e => rfl
  | ok sources =>
    rw [Run.ofExcept_ok, pure_bind, pure_bind]
    refine bind_congr fun rows => bind_congr fun _ => ?_
    exact mapM_congr fun row _ => cells_congr hsources hcolumns row

end TableComponent

/-! ## Documents -/

/-- **What a component draws depends on its binding paths only.** -/
theorem Component.markup?_congr {c : Component} (h : AgreeAt (c.bindings.map (·.path)) m n) :
    c.markup? m = c.markup? n := by
  cases c with
  | text c => rw [markup?, markup?, TextComponent.markup, TextComponent.markup,
      TextComponent.value_congr h]
  | table c => rw [markup?, markup?, TableComponent.markup, TableComponent.markup,
      TableComponent.grid_congr h]
  | totals c => rw [markup?, markup?, TotalsComponent.markup, TotalsComponent.markup,
      Binding.value_congr (h _ List.mem_cons_self)]
  | payment c => rw [markup?, markup?, PaymentComponent.markup, PaymentComponent.markup,
      Binding.value_congr (h _ List.mem_cons_self)]
  | _ => rfl

/-- **A component draws the same from payloads that agree at its binding paths**, and leaves the
same records. -/
theorem Component.fragment_congr {c : Component} (h : AgreeAt (c.bindings.map (·.path)) m n) :
    c.fragment m = c.fragment n := by
  rw [fragment, fragment, markup?_congr h]

/-- What a page draws depends on the binding paths of its components only. -/
theorem Compile.pageSequence_congr {page : Page}
    (h : ∀ c ∈ page.components, AgreeAt (c.bindings.map (·.path)) m n) :
    pageSequence m page = pageSequence n page := by
  have hpart : ∀ part ∈ page.regions, pagePart m page part = pagePart n page part := by
    intro part hpart
    have hregion : regionMarkup m part.2 = regionMarkup n part.2 := by
      unfold regionMarkup
      rw [mapM_congr fun c hc =>
        Component.fragment_congr (h c (List.mem_flatMap.mpr ⟨part, hpart, hc⟩))]
    rw [pagePart, pagePart, hregion]
  rw [pageSequence, pageSequence, mapM_congr hpart]

/-- **The binding paths are all that a document depends on.**  Payloads with the same nodes at every
binding path of a template are compiled with the same outcome. -/
theorem compile_eq_of_resolveAll_eq (config : CompilerConfig) (t : Template)
    (text text' : String) (payload payload' : Payload)
    (h : (Payload.ofText config.limits text).outcome = .ok payload)
    (h' : (Payload.ofText config.limits text').outcome = .ok payload')
    (hpaths : ∀ path ∈ t.bindingPaths, payload.resolveAll path = payload'.resolveAll path) :
    (config.compile t text).outcome = (config.compile t text').outcome := by
  have hpages : (inOrder t.pages).mapM (pageSequence payload) =
      (inOrder t.pages).mapM (pageSequence payload') := by
    refine mapM_congr fun page hpage => pageSequence_congr fun c hc path hpath => ?_
    have hc := Template.mem_components (Template.mem_pages_of_mem_inOrder hpage) hc
    exact hpaths path (List.mem_flatMap.mpr ⟨c, hc, hpath⟩)
  simp only [CompilerConfig.compile, Run.outcome_bind, Run.outcome_mapError, Run.outcome_record, h,
    h', ok_mapError, ok_bind, hpages]

/-- A template with a table that reads one column in its rows and one outside, and a bound text. -/
def debts : Template where
  schemaVersion := schemaVersion
  tenantId := "tenant"
  templateId := "template"
  name := "Debts"
  status := .draft
  version := 1
  pages := [
    { id := "page", pageNumber := 1
      header := { components := [.text
        { id := "name", position := ⟨0, 0, 1, 1⟩, binding := some { path := "/Case/Name" },
          style := {} }] }
      body := { components := [.table
        { id := "debts", position := ⟨0, 1, 1, 1⟩, rowBinding := { path := "/Case/Debt" },
          columns := [
            { id := "sum", header := "Sum", width := 1, binding := { path := "/Case/Debt/@_sum" } },
            { id := "name", header := "Name", width := 1
              binding := { path := "/Case/Name" } }] }] } }]
  createdBy := "author"
  updatedBy := "author"

/-- A payload with a note that no path of `debts` leads to. -/
def noted (note : String) : Payload :=
  .element [("Case", .element [("@_note", .scalar note), ("Name", .scalar "A"),
    ("Debt", .element [("@_sum", .scalar "2")])])]

theorem ofNodes_noted (note : String) :
    Payload.element (ofNodes [.element "Case" [("note", note)]
      [.element "Name" [] [.text "A"], .element "Debt" [("sum", "2")] []]]) = noted note := by
  have hempty : Text.trim "" = "" := by decide
  have hname : Text.trim "A" = "A" := by decide
  simp [noted, ofNodes, ofParts, group, gather, attributeMark, Xml.directText, List.eraseDups_cons,
    hempty, hname]

theorem compile_debts_eq_of_unbound_note :
    (Payload.ofText {} "<Case note='1'><Name>A</Name><Debt sum='2'/></Case>").outcome =
      .ok (noted "1") ∧
    (Payload.ofText {} "<Case note='9'><Name>A</Name><Debt sum='2'/></Case>").outcome =
      .ok (noted "9") ∧
    (∀ path ∈ debts.bindingPaths, (noted "1").resolveAll path = (noted "9").resolveAll path) ∧
    (CompilerConfig.compile {} debts
        "<Case note='1'><Name>A</Name><Debt sum='2'/></Case>").outcome =
      (CompilerConfig.compile {} debts
        "<Case note='9'><Name>A</Name><Debt sum='2'/></Case>").outcome := by
  have hread : Xml.Document.ofText 1000000 "<Case note='1'><Name>A</Name><Debt sum='2'/></Case>" =
      .ok ⟨[], ⟨"Case", [("note", "1")], [.element "Name" [] [.text "A"],
        .element "Debt" [("sum", "2")] []]⟩, []⟩ := by cbv
  have hread' : Xml.Document.ofText 1000000 "<Case note='9'><Name>A</Name><Debt sum='2'/></Case>" =
      .ok ⟨[], ⟨"Case", [("note", "9")], [.element "Name" [] [.text "A"],
        .element "Debt" [("sum", "2")] []]⟩, []⟩ := by cbv
  have hpayload : (Payload.ofText {} _).outcome = _ :=
    Payload.outcome_ofText (by decide) hread (by simp [Xml.Element.toNode, Xml.nesting])
  have hpayload' : (Payload.ofText {} _).outcome = _ :=
    Payload.outcome_ofText (by decide) hread' (by simp [Xml.Element.toNode, Xml.nesting])
  rw [Xml.Element.toNode, ofNodes_noted] at hpayload hpayload'
  have hpaths : ∀ path ∈ debts.bindingPaths,
      (noted "1").resolveAll path = (noted "9").resolveAll path := by
    simp only [show debts.bindingPaths = ["/Case/Name", "/Case/Debt", "/Case/Debt/@_sum",
      "/Case/Name"] from rfl, List.forall_mem_cons]
    exact ⟨rfl, rfl, rfl, rfl, List.forall_mem_nil _⟩
  exact ⟨hpayload, hpayload', hpaths,
    compile_eq_of_resolveAll_eq {} debts _ _ _ _ hpayload hpayload' hpaths⟩

end StatementPress
