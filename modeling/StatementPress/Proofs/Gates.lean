import StatementPress.Proofs.Markup.Layout

/-!
# The three gates of compiling

Compiling a template asks three questions, in this order: is the template valid, are its binding
paths absolute, is the payload readable.  The first question with a bad answer decides the error, and
if all answers are good there is a document.  Drawing itself refuses nothing: where the binding paths
are absolute, each of its steps succeeds on every payload (`Template.Draws`).

The point is that the paths looked at beforehand are all the paths that drawing resolves, those of
rows and cells included; the paths it puts together itself are absolute by construction.
-/

namespace StatementPress

open Markup StatementPress.Path Compile

/-! ## The gate of paths -/

/-- The first path that is not absolute. -/
def firstRelative? (paths : List String) : Option String := paths.find? fun p => ¬ IsAbsolute p

/-- There is no first relative path exactly if all paths are absolute. -/
theorem firstRelative?_eq_none_iff {paths : List String} :
    firstRelative? paths = none ↔ ∀ p ∈ paths, IsAbsolute p := by
  simp [firstRelative?]

/-- The check of paths stops at the first relative one. -/
theorem checkPaths_eq (paths : List String) :
    checkPaths paths =
      match firstRelative? paths with
      | some p => .error (.relativePath p)
      | none => .ok () := by
  induction paths with
  | nil => rfl
  | cons p rest ih =>
    by_cases hp : IsAbsolute p
    · rw [checkPaths, segments_of_isAbsolute hp, ok_bind, ih, firstRelative?, firstRelative?,
        List.find?_cons_of_neg (by simpa using hp)]
    · rw [checkPaths, segments_of_not_isAbsolute hp, error_bind, firstRelative?,
        List.find?_cons_of_pos (by simpa using hp)]

/-- Paths that pass the gate are absolute. -/
theorem isAbsolute_of_checkPaths {paths : List String} (h : checkPaths paths = .ok ()) :
    ∀ path ∈ paths, IsAbsolute path := by
  rw [checkPaths_eq] at h
  cases hfirst : firstRelative? paths with
  | none => exact firstRelative?_eq_none_iff.mp hfirst
  | some path =>
    rw [hfirst] at h
    cases h

namespace Template

variable {t : Template}

theorem allAbsolute_of_firstRelative? (h : firstRelative? t.bindingPaths = none) :
    AllAbsolute t.components := by
  intro c hc b hb
  have hp : b.path ∈ t.bindingPaths :=
    List.mem_flatMap.mpr ⟨c, hc, List.mem_map_of_mem hb⟩
  simpa using List.find?_eq_none.mp h b.path hp

theorem mem_components {page : Page} {c : Component} (hp : page ∈ t.pages)
    (hc : c ∈ page.components) : c ∈ t.components :=
  List.mem_flatMap.mpr ⟨page, hp, hc⟩

theorem mem_pages_of_mem_inOrder {page : Page} (h : page ∈ inOrder t.pages) : page ∈ t.pages :=
  List.mem_mergeSort.mp h

/-- The document of a template. -/
def document (margin : String) (payload : Payload) (t : Template) : String :=
  String.ofList (documentChars (rootNodes margin payload (inOrder t.pages)))

/-- A document is put together from its pages in order. -/
theorem document_eq_assemble (margin : String) (payload : Payload) (t : Template) :
    t.document margin payload = assemble margin (inOrder t.pages)
      ((inOrder t.pages).map (Page.sequenceText (Component.drawnText payload))) := by
  rw [document, ← toList_assemble, String.ofList_toList]

/-- **Every step of drawing a template from a payload succeeds**: its pages, their regions, the
fragments and contents of their components, and every cell that a table could have in a row. -/
structure Draws (t : Template) (payload : Payload) : Prop where
  pages : ∀ page ∈ t.pages, ∃ s, (pageSequence payload page).outcome = .ok s
  regions : ∀ page ∈ t.pages, ∀ part ∈ page.regions,
    ∃ s, (regionMarkup payload part.2).outcome = .ok s
  fragments : ∀ c ∈ t.components, ∃ s, (c.fragment payload).outcome = .ok s
  contents : ∀ c ∈ t.components, ∃ content, (c.markup? payload).outcome = .ok content
  cells : ∀ c, .table c ∈ t.components → ∃ rowSegments,
    segments c.rowBinding.path = .ok rowSegments ∧ ∀ column ∈ c.columns, ∃ source,
      CellSource.ofColumn rowSegments column = .ok source ∧
        ∀ row, ∃ s, source.read row payload = .ok s

/-- **With absolute paths all steps of drawing succeed**, on every payload. -/
theorem draws_of_allAbsolute (h : AllAbsolute t.components) (payload : Payload) :
    t.Draws payload where
  pages page hp := ⟨_, outcome_pageSequence payload fun c hc =>
    Component.outcome_fragment (h c (mem_components hp hc)) payload⟩
  regions page hp part hpart := ⟨_, outcome_regionMarkup payload fun c hc =>
    Component.outcome_fragment (h c (mem_components hp (List.mem_flatMap.mpr ⟨part, hpart, hc⟩)))
      payload⟩
  fragments c hc := ⟨_, Component.outcome_fragment (h c hc) payload⟩
  contents c hc := ⟨_, Component.outcome_markup? (h c hc) payload⟩
  cells c hc := by
    have hb := h _ hc
    refine ⟨_, segments_of_isAbsolute (hb _ List.mem_cons_self), fun column hcolumn => ?_⟩
    have hcolumn : IsAbsolute column.binding.path :=
      hb _ (List.mem_cons_of_mem _ (List.mem_map_of_mem hcolumn))
    refine ⟨_, CellSource.ofColumn_of_isAbsolute hcolumn _, fun row => ?_⟩
    exact ⟨_, CellSource.read_of_isAbsolute (TableColumn.isAbsolute_source hcolumn _) row payload⟩

end Template

/-! ## The outcome behind each gate -/

namespace CompilerConfig

variable {config : CompilerConfig} {t : Template} {text : String}

/-- The first gate: a template with findings is refused, whatever the payload. -/
theorem outcome_compile_of_invalid {r : Rejection} (h : t.validate.outcome = .error r) :
    (config.compile t text).outcome = .error (.invalid r) := by
  rw [compile, Run.outcome_bind, Run.outcome_mapError, h]
  rfl

/-- The second gate: a relative path is refused before the payload is read. -/
theorem outcome_compile_of_relative {p : String} (hv : t.validate.outcome = .ok ())
    (h : firstRelative? t.bindingPaths = some p) :
    (config.compile t text).outcome = .error (.payload (.relativePath p)) := by
  rw [compile, Run.outcome_bind, Run.outcome_mapError, hv, ok_mapError, ok_bind, Run.outcome_bind,
    Run.outcome_ofExcept, checkPaths_eq, h]
  rfl

/-- The third gate: a payload that cannot be read is refused for its own reason. -/
theorem outcome_compile_of_unreadable {e : PayloadError} (hv : t.validate.outcome = .ok ())
    (hp : firstRelative? t.bindingPaths = none)
    (h : (Payload.ofText config.limits text).outcome = .error e) :
    (config.compile t text).outcome = .error (.payload e) := by
  rw [compile, Run.outcome_bind, Run.outcome_mapError, hv, ok_mapError, ok_bind, Run.outcome_bind,
    Run.outcome_ofExcept, checkPaths_eq, hp, ok_mapError, ok_bind, Run.outcome_bind,
    Run.outcome_mapError, h]
  rfl

/-- **Behind the three gates there is a document**, and it is the text of a tree. -/
theorem outcome_compile_of_readable {payload : Payload} (hv : t.validate.outcome = .ok ())
    (hp : firstRelative? t.bindingPaths = none)
    (h : (Payload.ofText config.limits text).outcome = .ok payload) :
    (config.compile t text).outcome = .ok (t.document config.margin payload) := by
  have hpages : ((inOrder t.pages).mapM (pageSequence payload)).outcome =
      .ok ((inOrder t.pages).map (Page.sequenceText (Component.drawnText payload))) :=
    Run.outcome_mapM_of_ok fun page hpage => outcome_pageSequence payload fun c hc =>
      Component.outcome_fragment (Template.allAbsolute_of_firstRelative? hp c
        (Template.mem_components (Template.mem_pages_of_mem_inOrder hpage) hc)) payload
  simp only [compile, Run.outcome_bind, Run.outcome_mapError, Run.outcome_ofExcept,
    Run.outcome_record, Run.outcome_pure, hv, hp, h, hpages, checkPaths_eq, ok_mapError, ok_bind]
  exact congrArg Except.ok (eq_ofList (toList_assemble payload config.margin _))

/-- What is known once there is a document. -/
theorem gates_of_compile {fo : String} (h : (config.compile t text).outcome = .ok fo) :
    t.validate.outcome = .ok () ∧ firstRelative? t.bindingPaths = none ∧ ∃ payload,
      (Payload.ofText config.limits text).outcome = .ok payload ∧
        fo = t.document config.margin payload := by
  cases hv : t.validate.outcome with
  | error r =>
    rw [outcome_compile_of_invalid hv] at h
    cases h
  | ok u =>
    cases hp : firstRelative? t.bindingPaths with
    | some p =>
      rw [outcome_compile_of_relative hv hp] at h
      cases h
    | none =>
      cases hx : (Payload.ofText config.limits text).outcome with
      | error e =>
        rw [outcome_compile_of_unreadable hv hp hx] at h
        cases h
      | ok payload =>
        rw [outcome_compile_of_readable hv hp hx] at h
        cases h
        exact ⟨rfl, rfl, payload, rfl, rfl⟩

/-- Behind the first gate no rejection comes up. -/
theorem outcome_compile_ne_invalid (hv : t.validate.outcome = .ok ()) (r : Rejection) :
    (config.compile t text).outcome ≠ .error (.invalid r) := by
  cases hp : firstRelative? t.bindingPaths with
  | some p => simp [outcome_compile_of_relative hv hp]
  | none =>
    cases hx : (Payload.ofText config.limits text).outcome with
    | error e => simp [outcome_compile_of_unreadable hv hp hx]
    | ok payload => simp [outcome_compile_of_readable hv hp hx]

end CompilerConfig

/-- Reading a payload resolves no path. -/
theorem Payload.outcome_ofText_ne_relativePath (limits : Limits) (text p : String) :
    (Payload.ofText limits text).outcome ≠ .error (.relativePath p) := by
  unfold Payload.ofText
  dsimp only
  split
  · simp
  · rw [Run.outcome_bind, Run.outcome_ofExcept]
    cases Xml.Document.ofText limits.maxNodes.toNat text with
    | error e => simp
    | ok d =>
      rw [ok_mapError, ok_bind]
      split <;> simp

/-! ## The gates -/

/-- **Compiling is decided by three gates and by nothing else.**  It fails with a rejection exactly
when validation does, with the same findings; then with the first binding path that is not absolute;
then with what is wrong with the payload; otherwise it succeeds.  Absolute binding paths alone make
every step of drawing succeed, on any payload. -/
theorem compile_decided_by_gates (config : CompilerConfig) (t : Template) (text : String) :
    (∀ r, (config.compile t text).outcome = .error (.invalid r) ↔
      t.validate.outcome = .error r) ∧
    (∀ p, (config.compile t text).outcome = .error (.payload (.relativePath p)) ↔
      t.validate.outcome = .ok () ∧
        t.bindingPaths.find? (fun p => ¬ IsAbsolute p) = some p) ∧
    (∀ e, (config.compile t text).outcome = .error (.payload e) ∧ (∀ p, e ≠ .relativePath p) ↔
      t.validate.outcome = .ok () ∧ (∀ p ∈ t.bindingPaths, IsAbsolute p) ∧
        (Payload.ofText config.limits text).outcome = .error e) ∧
    ((∃ document, (config.compile t text).outcome = .ok document) ↔
      t.validate.outcome = .ok () ∧ (∀ p ∈ t.bindingPaths, IsAbsolute p) ∧
        ∃ payload, (Payload.ofText config.limits text).outcome = .ok payload) ∧
    (∀ e, (config.compile t text).outcome ≠ .error (.json e)) ∧
    ((∀ p ∈ t.bindingPaths, IsAbsolute p) → ∀ payload, t.Draws payload) := by
  have hall : (∀ p ∈ t.bindingPaths, IsAbsolute p) ↔ firstRelative? t.bindingPaths = none := by
    simp [firstRelative?]
  have hdraws : (∀ p ∈ t.bindingPaths, IsAbsolute p) → ∀ payload, t.Draws payload := fun h =>
    Template.draws_of_allAbsolute (Template.allAbsolute_of_firstRelative? (hall.mp h))
  rw [hall] at hdraws ⊢
  rw [← firstRelative?]
  -- in each case one gate decides, and the other outcomes are excluded by its error
  cases hv : t.validate.outcome with
  | error r =>
    rw [CompilerConfig.outcome_compile_of_invalid hv]
    simpa using hdraws
  | ok u =>
    cases hp : firstRelative? t.bindingPaths with
    | some p =>
      rw [CompilerConfig.outcome_compile_of_relative hv hp]
      simp
    | none =>
      cases hx : (Payload.ofText config.limits text).outcome with
      | error e =>
        rw [CompilerConfig.outcome_compile_of_unreadable hv hp hx]
        have hne : ∀ p, e ≠ .relativePath p := fun p he =>
          Payload.outcome_ofText_ne_relativePath config.limits text p (he ▸ hx)
        simpa [hne] using hdraws hp
      | ok payload =>
        rw [CompilerConfig.outcome_compile_of_readable hv hp hx]
        simpa using hdraws hp

end StatementPress
