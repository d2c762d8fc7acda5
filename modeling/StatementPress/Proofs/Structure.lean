import Mathlib
import StatementPress.Proofs.Gates
import StatementPress.Proofs.Markup.Skeleton
import StatementPress.Proofs.Payload.OfMarkup
import StatementPress.Proofs.Template.Checked

/-!
# The structure of documents

A document can be read again, and what is read has the structure that the template dictates: nothing
that a string of the template or a text of the payload holds can open, close or add an element or an
attribute.
-/

namespace StatementPress

open Markup Compile Payload
open Xml.Scanner (documentOf ofText_documentChars)

/-- Ordering pages loses none and adds none. -/
theorem Compile.perm_inOrder (pages : List Page) : (inOrder pages).Perm pages :=
  List.mergeSort_perm _ _

/-- Pages with distinct numbers are put in strictly ascending order. -/
theorem Compile.pairwise_inOrder {pages : List Page} (h : (pages.map (·.pageNumber)).Nodup) :
    (inOrder pages).Pairwise fun p q => p.pageNumber < q.pageNumber := by
  have htrans : ∀ p q r : Page, decide (p.pageNumber ≤ q.pageNumber) = true →
      decide (q.pageNumber ≤ r.pageNumber) = true → decide (p.pageNumber ≤ r.pageNumber) = true := by
    intro p q r hpq hqr
    rw [decide_eq_true_eq] at hpq hqr ⊢
    exact UInt32.le_trans hpq hqr
  have htotal : ∀ p q : Page,
      (decide (p.pageNumber ≤ q.pageNumber) || decide (q.pageNumber ≤ p.pageNumber)) = true := by
    intro p q
    simpa using UInt32.le_total p.pageNumber q.pageNumber
  have hsorted : (inOrder pages).Pairwise fun p q => p.pageNumber ≤ q.pageNumber :=
    (List.pairwise_mergeSort htrans htotal pages).imp fun hpq => of_decide_eq_true hpq
  have hdistinct : (inOrder pages).Pairwise fun p q => p.pageNumber ≠ q.pageNumber :=
    List.pairwise_map.mp (((perm_inOrder pages).map _).nodup_iff.mpr h)
  refine hsorted.imp₂ (fun p q hle hne => ?_) hdistinct
  exact UInt32.lt_of_le_of_ne hle hne

/-- The outlines of a document are its skeleton. -/
theorem outlines_documentOf (margin : String) (payload : Payload) (pages : List Page) :
    outlines [(documentOf (rootNodes margin payload pages)).root.toNode] =
      [documentSkeleton payload pages] := by
  rw [← outlineAll_rootNodes payload margin pages]
  simp [documentOf, Xml.Element.toNode, outlines, Xml.Scanner.rootChildren, outlines_append,
    Node.outlines_readAll]

/-- **A document has the skeleton of its template**, whatever characters the strings of the template,
the margin and the payload hold.  It is well-formed; its elements and attributes are those that the
template dictates; read as a payload it has one page sequence for each page, by ascending number, and
in each flow one box for each component that is drawn, in drawing order and at its place. -/
theorem compile_skeleton (config : CompilerConfig) (t : Template) (text fo : String)
    (h : (config.compile t text).outcome = .ok fo) :
    ∃ payload d tree pages sequences,
      (Payload.ofText config.limits text).outcome = .ok payload ∧
      pages.Perm t.pages ∧ pages.Pairwise (fun p q => p.pageNumber < q.pageNumber) ∧
      (∀ limit, d.size ≤ limit → Xml.Document.ofText limit fo = .ok d) ∧
      d.before = [] ∧ d.after = [] ∧
      outlines [d.root.toNode] = [documentSkeleton payload pages] ∧
      (∀ limits : Limits, Text.byteSize fo.toList ≤ limits.maxBytes.toNat →
        d.size ≤ limits.maxNodes.toNat → 9 ≤ limits.maxDepth.toNat →
          (Payload.ofText limits fo).outcome = .ok tree) ∧
      (∃ root, tree = .element [("root", root)]) ∧
      tree.resolveAll "/root/page-sequence" = .ok sequences ∧
      List.Forall₂ (fun page sequence => ∃ boxes,
        sequence.resolveAll "/flow/block-container" = .ok boxes ∧
          List.Forall₂ (fun p box => Payload.StandsAt box p)
            (page.stacked.filterMap Component.position?) boxes) pages sequences := by
  obtain ⟨hvalid, -, payload, hpayload, rfl⟩ := CompilerConfig.gates_of_compile h
  have htext : (t.document config.margin payload).toList =
      documentChars (rootNodes config.margin payload (inOrder t.pages)) := String.toList_ofList
  have hordered := pairwise_inOrder (Template.nodup_pageNumbers_of_validate hvalid)
  have houtlines := outlines_documentOf config.margin payload (inOrder t.pages)
  -- the depth of what is read is that of the skeleton, whose deepest part is a table
  have hdepth := depth_documentSkeleton payload (inOrder t.pages)
  rw [← houtlines, ← nesting_eq_depth] at hdepth
  refine ⟨payload, documentOf (rootNodes config.margin payload (inOrder t.pages)),
    .element [("root", rootOf (rootNodes config.margin payload (inOrder t.pages)))],
    inOrder t.pages, _, hpayload, perm_inOrder t.pages, hordered,
    fun limit hlimit => ofText_documentChars htext hlimit, rfl, rfl, houtlines, ?_, ⟨_, rfl⟩,
    resolveAll_of_isAbsolute (by decide) _, ?_⟩
  · intro limits hbytes hnodes hmax
    rw [outcome_ofText hbytes (ofText_documentChars htext hnodes) (by omega), ofNodes_documentOf]
  · rw [nodesAt_pages, List.forall₂_map_right_iff, List.forall₂_same]
    intro page _
    refine ⟨_, resolveAll_of_isAbsolute (by decide) _, ?_⟩
    rw [nodesAt_boxes, ← Page.components_eq_stacked]
    exact standsAt_boxes payload page

/-- A template with markup in its strings, its pages out of order, and a component that is not
drawn. -/
def markupInStrings : Template where
  schemaVersion := schemaVersion
  tenantId := "tenant"
  templateId := "template"
  name := "Markup"
  status := .draft
  version := 1
  pages := [
    { id := "second", pageNumber := 2 },
    { id := "first", pageNumber := 1
      header := { components := [.callout
        { id := "callout", position := ⟨0, 0, 1, 1⟩, title := "</fo:block><fo:block id='1'>",
          body := "]]> &#0; \"" }] }
      footer := { components := [.unknown { kind := "seal", id := "seal" }, .text
        { id := "text", position := ⟨0, 0, 1, 1⟩, binding := some { path := "/Case/Name" },
          style := { fontFamily := "a\"b", fontSize := 1 } }] } }]
  createdBy := "author"
  updatedBy := "author"

theorem compile_skeleton_of_markup_in_strings :
    ∃ fo payload d pages,
      (Payload.ofText {} "<Case><Name>&lt;/fo:block&gt;</Name></Case>").outcome = .ok payload ∧
      (CompilerConfig.compile {} markupInStrings
        "<Case><Name>&lt;/fo:block&gt;</Name></Case>").outcome = .ok fo ∧
      (∀ limit, d.size ≤ limit → Xml.Document.ofText limit fo = .ok d) ∧
      pages.Perm markupInStrings.pages ∧
      pages.Pairwise (fun p q => p.pageNumber < q.pageNumber) ∧
      outlines [d.root.toNode] = [documentSkeleton payload pages] := by
  have hread : Xml.Document.ofText 1000000 "<Case><Name>&lt;/fo:block&gt;</Name></Case>" =
      .ok ⟨[], ⟨"Case", [], [.element "Name" [] [.text "</fo:block>"]]⟩, []⟩ := by cbv
  have hpayload : (Payload.ofText {} _).outcome = _ :=
    outcome_ofText (by decide) hread (by simp [Xml.Element.toNode, Xml.nesting])
  have hcompile : (CompilerConfig.compile {} markupInStrings _).outcome = _ :=
    CompilerConfig.outcome_compile_of_readable rfl rfl hpayload
  obtain ⟨payload, d, _, pages, _, hsame, hpages, hordered, hd, -, -, houtlines, -⟩ :=
    compile_skeleton {} markupInStrings _ _ hcompile
  exact ⟨_, payload, d, pages, hsame, hcompile, hd, hpages, hordered, houtlines⟩

end StatementPress
