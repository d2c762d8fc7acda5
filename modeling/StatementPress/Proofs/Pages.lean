import Mathlib
import StatementPress.Proofs.Structure

/-!
# Pages of documents

A document is put together page by page.  Between a preamble and an end that are the same for all
pages it has one line for each page, by ascending page number, and the line of a page is the one it
has when the template has no other page.  So the order in which a template holds its pages has no
influence on the document, and a page that is changed changes its own line only.
-/

namespace StatementPress

open Markup Compile

/-! ## The order of pages -/

/-- Pages whose numbers ascend are in their order. -/
theorem Compile.inOrder_eq_of_perm {pages ordered : List Page} (hperm : ordered.Perm pages)
    (hordered : ordered.Pairwise fun p q => p.pageNumber < q.pageNumber) :
    inOrder pages = ordered := by
  have hdistinct : (ordered.map (·.pageNumber)).Nodup :=
    List.pairwise_map.mpr (hordered.imp fun hlt => (UInt32.lt_iff_le_and_ne.mp hlt).2)
  have hsorted := pairwise_inOrder ((hperm.map _).nodup_iff.mp hdistinct)
  refine List.Perm.eq_of_pairwise (fun p q _ _ hpq hqp => ?_) hsorted hordered
    ((perm_inOrder pages).trans hperm.symm)
  exact absurd (UInt32.lt_trans hpq hqp) (UInt32.lt_irrefl _)

/-- Pages with distinct numbers come in one order only. -/
theorem Compile.inOrder_congr {pages pages' : List Page} (h : (pages.map (·.pageNumber)).Nodup)
    (hperm : pages'.Perm pages) : inOrder pages' = inOrder pages :=
  inOrder_eq_of_perm ((perm_inOrder pages).trans hperm.symm) (pairwise_inOrder h)

/-- A page takes the place of another one with its number. -/
theorem Compile.inOrder_replace {before after : List Page} {p p' : Page}
    (h : ((before ++ p :: after).map (·.pageNumber)).Nodup)
    (hnumber : p'.pageNumber = p.pageNumber) :
    ∃ lower higher, inOrder (before ++ p :: after) = lower ++ p :: higher ∧
      inOrder (before ++ p' :: after) = lower ++ p' :: higher := by
  have hmem : p ∈ inOrder (before ++ p :: after) :=
    (perm_inOrder _).mem_iff.mpr (List.mem_append_right before List.mem_cons_self)
  obtain ⟨lower, higher, hsplit⟩ := List.append_of_mem hmem
  refine ⟨lower, higher, hsplit, inOrder_eq_of_perm ?_ ?_⟩
  · have hperm : (lower ++ p :: higher).Perm (before ++ p :: after) := hsplit ▸ perm_inOrder _
    have hothers : (lower ++ higher).Perm (before ++ after) :=
      (List.perm_middle.symm.trans (hperm.trans List.perm_middle)).cons_inv
    exact List.perm_middle.trans ((hothers.cons p').trans List.perm_middle.symm)
  -- the numbers are the same as before
  · have hordered : ((lower ++ p :: higher).map (·.pageNumber)).Pairwise (· < ·) :=
      List.pairwise_map.mpr (hsplit ▸ pairwise_inOrder h)
    have hnumbers : (lower ++ p' :: higher).map (·.pageNumber) =
        (lower ++ p :: higher).map (·.pageNumber) := by simp [hnumber]
    exact List.pairwise_map.mp (hnumbers ▸ hordered)

/-! ## One line for each page -/

/-- The document of page sequences, one in a line, between a fixed preamble and a fixed end. -/
def Compile.sheet (margin : String) (sequences : List String) : String :=
  preamble margin [.a4] ++ String.join (sequences.map line) ++ closing

/-- The page sequence of a page as it is drawn from a payload: nothing of other pages is in it. -/
def Page.drawn (payload : Payload) : Page → String :=
  Page.sequenceText (Component.drawnText payload)

/-- A document is one sheet of lines, one line for each page. -/
theorem Compile.assemble_eq_sheet (margin : String) {pages : List Page} (h : pages ≠ [])
    (sequences : List String) : assemble margin pages sequences = sheet margin sequences := by
  have hsize : ∀ size : PageSize, size = .a4 := fun size => by cases size; rfl
  have hsizes : (pages.map (·.size)).eraseDups = [.a4] := by
    obtain ⟨p, rest, rfl⟩ := List.exists_cons_of_ne_nil h
    have hnone : (rest.map (·.size)).filter (fun size => !size == p.size) = [] := by
      simp [hsize]
    rw [List.map_cons, List.eraseDups_cons, hnone, hsize p.size]
    rfl
  rw [assemble, hsizes, sheet]

/-- The binding paths of a template are those of its components. -/
theorem Template.mem_bindingPaths {t : Template} {path : String} :
    path ∈ t.bindingPaths ↔ ∃ p ∈ t.pages, ∃ c ∈ p.components, ∃ b ∈ c.bindings, b.path = path := by
  simp only [bindingPaths, components, List.mem_flatMap, List.mem_map, Page.components]
  constructor
  · rintro ⟨c, ⟨p, hp, hc⟩, b, hb, hpath⟩
    exact ⟨p, hp, c, hc, b, hb, hpath⟩
  · rintro ⟨p, hp, c, hc, b, hb, hpath⟩
    exact ⟨c, ⟨p, hp, hc⟩, b, hb, hpath⟩

namespace CompilerConfig

variable {config : CompilerConfig} {t : Template} {text : String} {payload : Payload}

/-- The document of a template, as lines. -/
theorem outcome_compile_eq_sheet (hvalid : t.validate.outcome = .ok ())
    (hpaths : firstRelative? t.bindingPaths = none)
    (hpayload : (Payload.ofText config.limits text).outcome = .ok payload) :
    (config.compile t text).outcome =
      .ok (sheet config.margin ((inOrder t.pages).map (Page.drawn payload))) := by
  have hne : inOrder t.pages ≠ [] := by
    intro hnil
    have hperm := perm_inOrder t.pages
    rw [hnil] at hperm
    exact (Template.validate_iff.mp hvalid).1.pages hperm.nil_eq.symm
  rw [outcome_compile_of_readable hvalid hpaths hpayload, Template.document_eq_assemble,
    assemble_eq_sheet config.margin hne]
  rfl

/-- Some pages of a template make a document by themselves, of the lines they have among all
pages. -/
theorem outcome_compile_of_subperm (hvalid : t.validate.outcome = .ok ())
    (hpaths : firstRelative? t.bindingPaths = none)
    (hpayload : (Payload.ofText config.limits text).outcome = .ok payload) {pages : List Page}
    (hne : pages ≠ []) (hsub : pages.Subperm t.pages) :
    (config.compile { t with pages := pages } text).outcome =
      .ok (sheet config.margin ((inOrder pages).map (Page.drawn payload))) := by
  refine outcome_compile_eq_sheet (Template.validate_of_subperm hvalid hne hsub) ?_ hpayload
  rw [firstRelative?_eq_none_iff] at hpaths ⊢
  intro path hpath
  obtain ⟨p, hp, hpath⟩ := Template.mem_bindingPaths.mp hpath
  exact hpaths path (Template.mem_bindingPaths.mpr ⟨p, hsub.subset hp, hpath⟩)

/-- One page of a template makes a document of one line. -/
theorem outcome_compile_of_mem (hvalid : t.validate.outcome = .ok ())
    (hpaths : firstRelative? t.bindingPaths = none)
    (hpayload : (Payload.ofText config.limits text).outcome = .ok payload) {p : Page}
    (hp : p ∈ t.pages) : (config.compile { t with pages := [p] } text).outcome =
      .ok (sheet config.margin [p.drawn payload]) := by
  have hinOrder : inOrder [p] = [p] := List.mergeSort_singleton p
  have hsub : [p].Subperm t.pages := List.singleton_subperm_iff.mpr hp
  rw [outcome_compile_of_subperm hvalid hpaths hpayload (List.cons_ne_nil p []) hsub, hinOrder]
  rfl

end CompilerConfig

/-! ## Documents by pages -/

/-- **A document is put together from its pages.**  There is a line for each page, by ascending
number, the one that the page has when it is alone in the template; the order in which the template
holds the pages does not matter; and a valid template in which the contents of one page are changed
either has a relative path in that page, or its document differs in the line of that page only,
which again is the line of the page alone. -/
theorem compile_by_pages (config : CompilerConfig) (t : Template) (text fo : String)
    (h : (config.compile t text).outcome = .ok fo) :
    ∃ sequence : Page → String,
      (∀ p ∈ t.pages, (config.compile { t with pages := [p] } text).outcome =
        .ok (sheet config.margin [sequence p])) ∧
      (∃ ordered : List Page, ordered.Perm t.pages ∧
        ordered.Pairwise (fun p q => p.pageNumber < q.pageNumber) ∧
          fo = sheet config.margin (ordered.map sequence)) ∧
      (∀ pages : List Page, pages.Perm t.pages →
        (config.compile { t with pages := pages } text).outcome = .ok fo) ∧
      (∀ (before after : List Page) (p p' : Page), t.pages = before ++ p :: after →
        p'.pageNumber = p.pageNumber →
        { t with pages := before ++ p' :: after }.validate.outcome = .ok () →
          (∃ path ∈ { t with pages := [p'] }.bindingPaths, ¬ Path.IsAbsolute path ∧
            (config.compile { t with pages := before ++ p' :: after } text).outcome =
              .error (.payload (.relativePath path))) ∨
          ∃ lower higher : List String, fo = sheet config.margin (lower ++ sequence p :: higher) ∧
            (config.compile { t with pages := before ++ p' :: after } text).outcome =
              .ok (sheet config.margin (lower ++ sequence p' :: higher)) ∧
            (config.compile { t with pages := [p'] } text).outcome =
              .ok (sheet config.margin [sequence p'])) := by
  obtain ⟨hvalid, hpaths, payload, hpayload, -⟩ := CompilerConfig.gates_of_compile h
  have hdistinct := Template.nodup_pageNumbers_of_validate hvalid
  have hfo := CompilerConfig.outcome_compile_eq_sheet hvalid hpaths hpayload
  rw [h, Except.ok.injEq] at hfo
  refine ⟨Page.drawn payload, ?_,
    ⟨inOrder t.pages, perm_inOrder _, pairwise_inOrder hdistinct, hfo⟩, ?_, ?_⟩
  · intro p hp
    exact CompilerConfig.outcome_compile_of_mem hvalid hpaths hpayload hp
  · intro pages hperm
    have hne : pages ≠ [] := by
      rintro rfl
      exact (Template.validate_iff.mp hvalid).1.pages hperm.nil_eq.symm
    rw [CompilerConfig.outcome_compile_of_subperm hvalid hpaths hpayload hne hperm.subperm,
      inOrder_congr hdistinct hperm, ← hfo]
  · intro before after p p' hpages hnumber hvalid'
    cases hrelative : firstRelative? { t with pages := before ++ p' :: after }.bindingPaths with
    | some path =>
      have hnot : ¬ Path.IsAbsolute path := by simpa using List.find?_some hrelative
      rw [firstRelative?_eq_none_iff] at hpaths
      -- a path that is not absolute cannot be one of the other pages
      refine .inl ⟨path, ?_, ?_, CompilerConfig.outcome_compile_of_relative hvalid' hrelative⟩
      · obtain ⟨q, hq, hpath⟩ := Template.mem_bindingPaths.mp (List.mem_of_find?_eq_some hrelative)
        have hqp : q = p' := by
          by_contra hne
          have hq : q ∈ t.pages := by
            simp only [hpages, List.mem_append, List.mem_cons, hne, false_or] at hq ⊢
            exact hq.imp_right .inr
          exact hnot (hpaths path (Template.mem_bindingPaths.mpr ⟨q, hq, hpath⟩))
        exact Template.mem_bindingPaths.mpr ⟨q, hqp ▸ List.mem_cons_self, hpath⟩
      · exact hnot
    | none =>
      rw [hpages] at hdistinct hfo
      obtain ⟨lower, higher, hsplit, hsplit'⟩ := inOrder_replace hdistinct hnumber
      refine .inr ⟨lower.map (Page.drawn payload), higher.map (Page.drawn payload), ?_, ?_, ?_⟩
      · rw [hfo, hsplit, List.map_append, List.map_cons]
      · rw [CompilerConfig.outcome_compile_eq_sheet hvalid' hrelative hpayload]
        dsimp only
        rw [hsplit', List.map_append, List.map_cons]
      · exact CompilerConfig.outcome_compile_of_mem hvalid' hrelative hpayload
          (List.mem_append_right before List.mem_cons_self)

/-- The pages of `markupInStrings` can be put in their order: the document is the same. -/
theorem compile_markupInStrings_in_order :
    ∃ fo, (CompilerConfig.compile {} markupInStrings "<Case/>").outcome = .ok fo ∧
      (CompilerConfig.compile {} { markupInStrings with pages := markupInStrings.pages.reverse }
        "<Case/>").outcome = .ok fo := by
  have hcompile : (CompilerConfig.compile {} markupInStrings "<Case/>").outcome = _ :=
    CompilerConfig.outcome_compile_of_readable rfl rfl Payload.outcome_ofText_case
  obtain ⟨-, -, -, hperm, -⟩ := compile_by_pages {} markupInStrings "<Case/>" _ hcompile
  exact ⟨_, hcompile, hperm _ (List.reverse_perm _)⟩

end StatementPress
