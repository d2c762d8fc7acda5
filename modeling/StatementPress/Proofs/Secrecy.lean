import Mathlib
import StatementPress.Proofs.Confinement

/-!
# What log records give away

Records tell what the compiler does and never what it reads.  Suppose the texts of two payloads have
one size and outermost elements of one name, every table has as many rows in both, and whatever
drawing reads, a bound text or a cell, is empty in both payloads or in neither.  Then compiling a
template leaves the same records for both, however much the texts in them differ
(`log_compile_eq_of_gapsAgree`).

The two runs are followed side by side.  `Run.Alike` says of two steps that they leave the same
records and that their results are related.  It has a rule for each way of composing steps, so a
statement about a larger step is put together as the step itself is.
-/

namespace StatementPress

open Compile

/-! ## Two runs side by side -/

section

variable {ε ε' α α' β β' : Type}

/-- Outcomes that are both failures, or successes with related results. -/
inductive Similar (R : α → β → Prop) : Except ε α → Except ε β → Prop
  | ok {a : α} {b : β} (h : R a b) : Similar R (.ok a) (.ok b)
  | error (e e' : ε) : Similar R (.error e) (.error e')

/-- Steps that leave the same records and come to similar outcomes. -/
structure Run.Alike (R : α → β → Prop) (x : Run ε α) (y : Run ε β) : Prop where
  log : x.log = y.log
  outcome : Similar R x.outcome y.outcome

/-- Steps that leave the same records and either both succeed or both fail. -/
abbrev Run.SameRecords (x : Run ε α) (y : Run ε β) : Prop := Run.Alike (fun _ _ => True) x y

variable {R : α → α' → Prop} {S : β → β' → Prop}

namespace Run

theorem alike_pure {a : α} {a' : α'} (h : R a a') : Alike R (pure a : Run ε α) (pure a') :=
  ⟨rfl, .ok h⟩

theorem alike_ofExcept {x : Except ε α} {y : Except ε α'} (h : Similar R x y) :
    Alike R (ofExcept x) (ofExcept y) := ⟨rfl, h⟩

/-- A step that reads nothing is like itself. -/
theorem alike_self (x : Run ε α) : Alike (fun a b => a = b ∧ x.outcome = .ok a) x x := by
  refine ⟨rfl, ?_⟩
  cases x.outcome with
  | ok a => exact .ok ⟨rfl, rfl⟩
  | error e => exact .error e e

variable {x : Run ε α} {y : Run ε α'}

theorem Alike.mapError (h : Alike R x y) (f : ε → ε') : Alike R (x.mapError f) (y.mapError f) := by
  obtain ⟨logX, outcomeX⟩ := x
  obtain ⟨logY, outcomeY⟩ := y
  obtain ⟨hlog, houtcome⟩ := h
  refine ⟨hlog, ?_⟩
  cases houtcome with
  | ok hab => exact .ok hab
  | error e e' => exact .error (f e) (f e')

/-- **Like steps followed by like steps are alike.** -/
theorem Alike.bind {f : α → Run ε β} {g : α' → Run ε β'}
    (h : Alike R x y) (hfg : ∀ a b, R a b → Alike S (f a) (g b)) :
    Alike S (x >>= f) (y >>= g) := by
  obtain ⟨logX, outcomeX⟩ := x
  obtain ⟨logY, outcomeY⟩ := y
  obtain ⟨hlog, houtcome⟩ := h
  cases houtcome with
  | ok hab =>
    rw [bind_of_ok rfl, bind_of_ok rfl]
    obtain ⟨hlog', houtcome'⟩ := hfg _ _ hab
    exact ⟨congrArg₂ (· ++ ·) hlog hlog', houtcome'⟩
  | error e e' =>
    rw [bind_of_error rfl, bind_of_error rfl]
    exact ⟨hlog, .error e e'⟩

theorem alike_map_some {x y : Run ε α} (h : SameRecords x y) :
    Alike (fun a b => a.isSome = b.isSome) (some <$> x) (some <$> y) := by
  rw [map_eq_pure_bind, map_eq_pure_bind]
  exact h.bind fun _ _ _ => alike_pure rfl

/-- After the same failure nothing follows in either run. -/
theorem sameRecords_error_bind (e : ε) (f : α → Run ε β) (g : α' → Run ε β') :
    SameRecords (ofExcept (.error e) >>= f) (ofExcept (.error e) >>= g) :=
  Alike.bind (R := fun _ _ => False) (alike_ofExcept (.error e e)) fun _ _ h => h.elim

/-- Steps for the items of two lists, like item by item. -/
theorem sameRecords_mapM {f : α → Run ε β} {g : α' → Run ε β'} {as : List α} {bs : List α'}
    (h : List.Forall₂ R as bs) (hfg : ∀ a b, R a b → SameRecords (f a) (g b)) :
    SameRecords (as.mapM f) (bs.mapM g) := by
  induction h with
  | nil => exact alike_pure trivial
  | cons hab _ ih =>
    rw [List.mapM_cons, List.mapM_cons]
    exact (hfg _ _ hab).bind fun _ _ _ => ih.bind fun _ _ _ => alike_pure trivial

/-- Steps for the items of one list. -/
theorem sameRecords_mapM_self {f g : α → Run ε β} {as : List α}
    (h : ∀ a ∈ as, SameRecords (f a) (g a)) : SameRecords (as.mapM f) (as.mapM g) := by
  have hself : List.Forall₂ (fun a b => a = b ∧ a ∈ as) as as :=
    List.forall₂_same.mpr fun a ha => ⟨rfl, ha⟩
  refine sameRecords_mapM hself ?_
  rintro a _ ⟨rfl, ha⟩
  exact h a ha

end Run

end

/-! ## Gaps -/

/-- Texts that are both empty or both not. -/
abbrev SameGap (s s' : String) : Prop := s.isEmpty = s'.isEmpty

/-- The bindings of a component that are shown, the cells of tables apart.  A binding that a fixed
text hides is not among them. -/
def Component.shownBindings : Component → List Binding
  | .text c => if c.content.any (!·.isEmpty) then [] else c.binding.toList
  | .totals c => [c.amountBinding]
  | .payment c => [c.accountBinding]
  | .image _ | .divider _ | .table _ | .callout _ | .unknown _ => []

/-- Two payloads that give a table as many rows, with the same cells empty. -/
structure TableComponent.GapsAgree (c : TableComponent) (m n : Payload) : Prop where
  rowCount : Similar (fun rows rows' : List Payload => rows.length = rows'.length)
    (m.resolveAll c.rowBinding.path) (n.resolveAll c.rowBinding.path)
  cells : ∀ rowSegments rows rows', Path.segments c.rowBinding.path = .ok rowSegments →
    m.resolveAll c.rowBinding.path = .ok rows → n.resolveAll c.rowBinding.path = .ok rows' →
      ∀ column ∈ c.columns, ∀ source, CellSource.ofColumn rowSegments column = .ok source →
        ∀ pair ∈ rows.zip rows', Similar SameGap (source.read pair.1 m) (source.read pair.2 n)

/-- **Two payloads that have their gaps in the same places of a component**: what it shows of a
binding is empty in both or in neither, and so are the cells of a table. -/
structure Component.GapsAgree (c : Component) (m n : Payload) : Prop where
  bindings : ∀ b ∈ c.shownBindings, Similar SameGap (m.resolve b.path) (n.resolve b.path)
  table : ∀ table, c = .table table → table.GapsAgree m n

variable {m n : Payload}

/-! ## Components -/

theorem Binding.alike_orFallback (b : Binding) {s s' : String} (h : SameGap s s') :
    Run.SameRecords (b.orFallback s) (b.orFallback s') := by
  unfold Binding.orFallback
  rw [← h]
  by_cases hs : s.isEmpty = true
  · rw [if_pos hs, if_pos hs]
    exact (Run.alike_self _).bind fun _ _ _ => Run.alike_pure trivial
  · rw [if_neg hs, if_neg hs]
    exact Run.alike_pure trivial

theorem Binding.alike_value {b : Binding}
    (h : Similar SameGap (m.resolve b.path) (n.resolve b.path)) :
    Run.SameRecords (b.value m) (b.value n) :=
  (Run.alike_ofExcept h).bind fun _ _ hs => b.alike_orFallback hs

theorem TextComponent.alike_value {c : TextComponent} (h : (Component.text c).GapsAgree m n) :
    Run.SameRecords (c.value m) (c.value n) := by
  obtain ⟨frame, content, binding, style⟩ := c
  obtain ⟨hbindings, -⟩ := h
  -- a fixed text that is not empty is shown without a look at the payload
  rcases content with _ | content
  · rcases binding with _ | b
    · exact Run.alike_pure trivial
    · exact Binding.alike_value (hbindings b (by simp [Component.shownBindings]))
  · unfold TextComponent.value
    dsimp only
    by_cases hcontent : content.isEmpty = true
    · rw [if_pos hcontent, if_pos hcontent]
      rcases binding with _ | b
      · exact Run.alike_pure trivial
      · refine Binding.alike_value (hbindings b ?_)
        simp [Component.shownBindings, hcontent]
    · rw [if_neg hcontent, if_neg hcontent]
      exact Run.alike_pure trivial

namespace TableComponent

/-- Row by row the same cells are empty. -/
theorem GapsAgree.rows {c : TableComponent} (h : c.GapsAgree m n)
    (hrow : Path.IsAbsolute c.rowBinding.path) {sources : List CellSource}
    (hsources : c.columns.mapM (CellSource.ofColumn (Path.parts c.rowBinding.path)) = .ok sources) :
    List.Forall₂ (fun row row' => ∀ column ∈ c.columns.zip sources,
        Similar SameGap (column.2.read row m) (column.2.read row' n))
      (m.nodesAt c.rowBinding.path) (n.nodesAt c.rowBinding.path) := by
  obtain ⟨hcount, hcells⟩ := h
  rw [Payload.resolveAll_of_isAbsolute hrow, Payload.resolveAll_of_isAbsolute hrow] at hcount
  obtain ⟨hlength⟩ := hcount
  refine List.forall₂_iff_zip.mpr ⟨hlength, fun hpair => ?_⟩
  rintro ⟨column, source⟩ hcolumn
  have hsource := (List.forall₂_iff_zip.mp (forall₂_of_mapM hsources)).2 hcolumn
  exact hcells _ _ _ (Path.segments_of_isAbsolute hrow) (Payload.resolveAll_of_isAbsolute hrow m)
    (Payload.resolveAll_of_isAbsolute hrow n) column (List.of_mem_zip hcolumn).1 source hsource _
    hpair

theorem alike_cell {column : TableColumn × CellSource} {row row' : Payload}
    (h : Similar SameGap (column.2.read row m) (column.2.read row' n)) :
    Run.SameRecords (cell row m column) (cell row' n column) :=
  (Run.alike_ofExcept h).bind fun _ _ hs => column.1.binding.alike_orFallback hs

/-- **Tables with their gaps in the same places are drawn with the same records.** -/
theorem alike_grid {c : TableComponent} (h : c.GapsAgree m n) :
    Run.SameRecords (c.grid m) (c.grid n) := by
  unfold grid
  by_cases hrow : Path.IsAbsolute c.rowBinding.path
  · rw [Path.segments_of_isAbsolute hrow, Payload.resolveAll_of_isAbsolute hrow,
      Payload.resolveAll_of_isAbsolute hrow, Run.ofExcept_ok, Run.ofExcept_ok, Run.ofExcept_ok,
      pure_bind, pure_bind]
    cases hsources : c.columns.mapM (CellSource.ofColumn (Path.parts c.rowBinding.path)) with
    | error e => exact Run.sameRecords_error_bind e _ _
    | ok sources =>
      have hrows := h.rows hrow hsources
      rw [Run.ofExcept_ok, pure_bind, pure_bind, pure_bind, pure_bind, hrows.length_eq]
      refine (Run.alike_self _).bind fun _ _ _ => ?_
      refine Run.sameRecords_mapM hrows fun row row' hcells => ?_
      exact Run.sameRecords_mapM_self fun column hcolumn => alike_cell (hcells column hcolumn)
  · rw [Path.segments_of_not_isAbsolute hrow]
    exact Run.sameRecords_error_bind _ _ _

end TableComponent

namespace Component

/-- The contents of a component, where there are any, are drawn with the same records. -/
theorem alike_markup? {c : Component} (h : c.GapsAgree m n) :
    Run.Alike (fun content content' => content.isSome = content'.isSome) (c.markup? m)
      (c.markup? n) := by
  cases c with
  | text c =>
    exact Run.alike_map_some ((TextComponent.alike_value h).bind fun _ _ _ => Run.alike_pure trivial)
  | table c =>
    refine Run.alike_map_some ((TableComponent.alike_grid (h.table c rfl)).bind fun _ _ _ => ?_)
    exact Run.alike_pure trivial
  | totals c =>
    have hvalue := Binding.alike_value (h.bindings c.amountBinding List.mem_cons_self)
    exact Run.alike_map_some (hvalue.bind fun _ _ _ => Run.alike_pure trivial)
  | payment c =>
    have hvalue := Binding.alike_value (h.bindings c.accountBinding List.mem_cons_self)
    exact Run.alike_map_some (hvalue.bind fun _ _ _ => Run.alike_pure trivial)
  | image c => exact Run.alike_pure rfl
  | divider c => exact Run.alike_pure rfl
  | callout c => exact Run.alike_pure rfl
  | unknown c => exact Run.alike_pure rfl

/-- **A component is drawn with the same records from payloads with their gaps in the same places.** -/
theorem alike_fragment {c : Component} (h : c.GapsAgree m n) :
    Run.SameRecords (c.fragment m) (c.fragment n) := by
  unfold fragment
  refine (alike_markup? h).bind fun content content' hsome => ?_
  cases content with
  | none =>
    cases content' with
    | none => exact (Run.alike_self _).bind fun _ _ _ => Run.alike_pure trivial
    | some _ => cases hsome
  | some _ =>
    cases content' with
    | none => cases hsome
    | some _ =>
      cases c.position? with
      | none => exact (Run.alike_self _).bind fun _ _ _ => Run.alike_pure trivial
      | some p => exact (Run.alike_self _).bind fun _ _ _ => Run.alike_pure trivial

end Component

/-! ## Documents -/

theorem Compile.alike_pageSequence {page : Page} (h : ∀ c ∈ page.components, c.GapsAgree m n) :
    Run.SameRecords (pageSequence m page) (pageSequence n page) := by
  refine (Run.sameRecords_mapM_self fun part hpart => ?_).bind fun _ _ _ => Run.alike_pure trivial
  have hregion : Run.SameRecords (regionMarkup m part.2) (regionMarkup n part.2) := by
    refine Run.Alike.bind (Run.sameRecords_mapM_self fun c hc => ?_) fun _ _ _ =>
      Run.alike_pure trivial
    exact Component.alike_fragment (h c (List.mem_flatMap.mpr ⟨part, hpart, hc⟩))
  exact hregion.bind fun _ _ _ => (Run.alike_self _).bind fun _ _ _ => Run.alike_pure trivial

/-- The name of the outermost element of the document of a payload, under which all else stands. -/
def Payload.documentName? : Payload → Option String
  | .element ((name, _) :: _) => some name
  | _ => none

/-- Reading a payload leaves a record of its size and of the name of its outermost element. -/
theorem Payload.log_ofText {limits : Limits} {text : String} {payload : Payload}
    (h : (ofText limits text).outcome = .ok payload) :
    ∃ name, payload.documentName? = some name ∧
      (ofText limits text).log = [⟨.debug, "parsed XML payload: " ++
        Text.decimal (Text.byteSize text.toList) ++ " bytes, root <" ++ name ++ ">"⟩] := by
  obtain ⟨d, -, rfl, hlog⟩ := exists_document_of_ofText h
  exact ⟨d.root.name, by rw [Xml.Element.toNode, ofNodes, documentName?], hlog⟩

/-- **Log records do not depend on the texts of a payload.**  Two payloads of one size, with outermost
elements of one name, leave the same records if, where a template is drawn at all, its tables have as
many rows in both, and what its components read is empty in both or in neither. -/
theorem log_compile_eq_of_gapsAgree (config : CompilerConfig) (t : Template)
    (text text' : String) (payload payload' : Payload)
    (hsize : Text.byteSize text.toList = Text.byteSize text'.toList)
    (h : (Payload.ofText config.limits text).outcome = .ok payload)
    (h' : (Payload.ofText config.limits text').outcome = .ok payload')
    (hname : payload.documentName? = payload'.documentName?)
    (hgaps : t.validate.outcome = .ok () → (∀ path ∈ t.bindingPaths, Path.IsAbsolute path) →
      ∀ c ∈ t.components, c.GapsAgree payload payload') :
    (config.compile t text).log = (config.compile t text').log := by
  have hread : Run.Alike (fun p p' => p = payload ∧ p' = payload')
      (Payload.ofText config.limits text) (Payload.ofText config.limits text') := by
    obtain ⟨name, hn, hlog⟩ := Payload.log_ofText h
    obtain ⟨name', hn', hlog'⟩ := Payload.log_ofText h'
    rw [hn, hn', Option.some.injEq] at hname
    refine ⟨?_, ?_⟩
    · rw [hlog, hlog', hsize, hname]
    · rw [h, h']
      exact .ok ⟨rfl, rfl⟩
  refine Run.Alike.log (R := fun _ _ => True) ?_
  -- the first two steps read the template only, and drawing begins where both succeed
  refine (Run.alike_self _).bind fun _ _ ⟨_, hvalid⟩ => ?_
  refine (Run.alike_self _).bind fun _ _ ⟨_, hpaths⟩ => ?_
  rw [Run.outcome_mapError] at hvalid
  rw [Run.outcome_ofExcept] at hpaths
  refine (hread.mapError _).bind fun p p' hp => ?_
  rw [hp.1, hp.2, hsize]
  refine (Run.alike_self _).bind fun _ _ _ => ?_
  have hpages : Run.SameRecords ((inOrder t.pages).mapM (pageSequence payload))
      ((inOrder t.pages).mapM (pageSequence payload')) := by
    refine Run.sameRecords_mapM_self fun page hpage => alike_pageSequence fun c hc => ?_
    exact hgaps (mapError_eq_ok.mp hvalid) (isAbsolute_of_checkPaths (mapError_eq_ok.mp hpaths)) c
      (Template.mem_components (Template.mem_pages_of_mem_inOrder hpage) hc)
  exact (hpages.mapError _).bind fun _ _ _ => Run.alike_pure trivial

/-- The payload of a debtor with two debts, one of them of no known sum. -/
def debtor (name sum : String) : Payload :=
  .element [("Case", .element [("Name", .scalar name),
    ("Debt", .sequence [.element [("@_sum", .scalar sum)], .scalar ""])])]

/-- What two debtors show has its gaps in the same places. -/
theorem gapsAgree_debtor {name name' sum sum' : String} (hname : SameGap name name')
    (hsum : SameGap sum sum') :
    ∀ c ∈ debts.components, c.GapsAgree (debtor name sum) (debtor name' sum') := by
  have hcomponents : debts.components = [_, _] := rfl
  rw [hcomponents, List.forall_mem_cons, List.forall_mem_singleton]
  refine ⟨⟨?_, ?_⟩, ⟨?_, ?_⟩⟩
  · exact List.forall_mem_singleton.mpr (.ok hname)
  · rintro table ⟨⟩
  · rintro b ⟨⟩
  · rintro table ⟨⟩
    refine ⟨.ok rfl, ?_⟩
    rintro rowSegments rows rows' ⟨⟩ ⟨⟩ ⟨⟩
    refine List.forall_mem_cons.mpr ⟨?_, List.forall_mem_singleton.mpr ?_⟩
    · rintro source ⟨⟩
      exact List.forall_mem_cons.mpr ⟨.ok hsum, List.forall_mem_singleton.mpr (.ok rfl)⟩
    · rintro source ⟨⟩
      exact List.forall_mem_cons.mpr ⟨.ok hname, List.forall_mem_singleton.mpr (.ok hname)⟩

theorem log_compile_debts_eq_of_other_debtor :
    (Payload.ofText {} "<Case><Name>Ann</Name><Debt sum='2'/><Debt/></Case>").outcome =
      .ok (debtor "Ann" "2") ∧
    (Payload.ofText {} "<Case><Name>Bob</Name><Debt sum='7'/><Debt/></Case>").outcome =
      .ok (debtor "Bob" "7") ∧
    (CompilerConfig.compile {} debts "<Case><Name>Ann</Name><Debt sum='2'/><Debt/></Case>").log =
      (CompilerConfig.compile {} debts
        "<Case><Name>Bob</Name><Debt sum='7'/><Debt/></Case>").log := by
  have hread : Xml.Document.ofText 1000000 "<Case><Name>Ann</Name><Debt sum='2'/><Debt/></Case>" =
      .ok ⟨[], ⟨"Case", [], [.element "Name" [] [.text "Ann"], .element "Debt" [("sum", "2")] [],
        .element "Debt" [] []]⟩, []⟩ := by cbv
  have hread' : Xml.Document.ofText 1000000 "<Case><Name>Bob</Name><Debt sum='7'/><Debt/></Case>" =
      .ok ⟨[], ⟨"Case", [], [.element "Name" [] [.text "Bob"], .element "Debt" [("sum", "7")] [],
        .element "Debt" [] []]⟩, []⟩ := by cbv
  have hpayload : (Payload.ofText {} _).outcome = _ :=
    Payload.outcome_ofText (by decide) hread (by simp [Xml.Element.toNode, Xml.nesting])
  have hpayload' : (Payload.ofText {} _).outcome = _ :=
    Payload.outcome_ofText (by decide) hread' (by simp [Xml.Element.toNode, Xml.nesting])
  have hAnn : Payload.element (Payload.ofNodes [.element "Case" [] [.element "Name" [] [.text "Ann"],
      .element "Debt" [("sum", "2")] [], .element "Debt" [] []]]) = debtor "Ann" "2" := by cbv
  have hBob : Payload.element (Payload.ofNodes [.element "Case" [] [.element "Name" [] [.text "Bob"],
      .element "Debt" [("sum", "7")] [], .element "Debt" [] []]]) = debtor "Bob" "7" := by cbv
  rw [Xml.Element.toNode, hAnn] at hpayload
  rw [Xml.Element.toNode, hBob] at hpayload'
  exact ⟨hpayload, hpayload', log_compile_eq_of_gapsAgree {} debts _ _ _ _ (by decide) hpayload
    hpayload' rfl fun _ _ => gapsAgree_debtor rfl rfl⟩

end StatementPress
