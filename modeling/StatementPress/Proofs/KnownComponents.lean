import Mathlib
import StatementPress.Proofs.Gates
import StatementPress.Proofs.Payload.Nodes
import StatementPress.Proofs.Template.Checked
import StatementPress.Proofs.Template.Reading
import StatementPress.Proofs.Template.TakenForUnknown

/-!
# What becomes of components of known kinds

Reading a template from a text refuses a component that repeats a field of its kind, and takes it for
unknown.  Checking the template again does not see this: the check looks at the normal form, in which
the field stands once.  So the component is dropped from the document although its kind is known.

Nothing else makes a component of a known kind disappear.  In a document there is one fragment for
each component, and that of a component of a known kind is its content in its box exactly if the value
it was read from repeats none of its fields.
-/

namespace StatementPress

open Json Markup Compile

/-! ## One fragment for each component -/

theorem Markup.positioned_ne_empty (p : Position) (content : String) :
    positioned p content ≠ "" := by
  intro h
  have hlist := congrArg String.toList h
  unfold positioned at hlist
  simp at hlist

/-- A component of a known kind has a place and content, and draws its box. -/
theorem Component.outcome_fragment_of_known {c : Component}
    (h : ∀ b ∈ c.bindings, Path.IsAbsolute b.path) (hc : ∀ u, c ≠ .unknown u) (payload : Payload) :
    ∃ p content, c.position? = some p ∧ (c.markup? payload).outcome = .ok (some content) ∧
      (c.fragment payload).outcome = .ok (positioned p content) := by
  have hdrawn : ∃ p node, c.position? = some p ∧ c.content? payload = some node := by
    cases c with
    | unknown u => cases hc u rfl
    | _ => exact ⟨_, _, rfl, rfl⟩
  obtain ⟨p, node, hp, hnode⟩ := hdrawn
  have hmarkup := outcome_markup? h payload
  rw [hnode] at hmarkup
  refine ⟨p, _, hp, hmarkup, ?_⟩
  rw [fragment, Run.outcome_bind, hmarkup, ok_bind, hp]
  rfl

/-! ## Known kinds in a document -/

/-- **In a document, a component of a known kind is its content in its box exactly if the value it was
read from repeats none of its fields**; otherwise it is dropped. -/
theorem known_component_drawn_iff (config : CompilerConfig) (text payloadText fo : String)
    (t : Template) (hread : readText Template.reader text = .ok t)
    (hcompile : (config.compile t payloadText).outcome = .ok fo) :
    ∃ payload fragment, (Payload.ofText config.limits payloadText).outcome = .ok payload ∧
      (∀ c ∈ t.components, (c.fragment payload).outcome = .ok (fragment c)) ∧
      fo = assemble config.margin (inOrder t.pages)
        ((inOrder t.pages).map (Page.sequenceText fragment)) ∧
      ∀ c ∈ t.components, c.kind ∈ componentKinds →
        c.ReadIn text.toList ∧ ∀ v, Component.ofJson? v = some c →
          (Component.repeatsField v = false → ∃ p content, c.position? = some p ∧
            (c.markup? payload).outcome = .ok (some content) ∧
              fragment c = positioned p content ∧ fragment c ≠ "") ∧
          (Component.repeatsField v = true → fragment c = "") := by
  obtain ⟨hvalid, hpaths, payload, hpayload, rfl⟩ := CompilerConfig.gates_of_compile hcompile
  have habsolute := Template.allAbsolute_of_firstRelative? hpaths
  have hfragment : ∀ c ∈ t.components, (c.fragment payload).outcome = .ok (c.drawnText payload) :=
    fun c hc => Component.outcome_fragment (habsolute c hc) payload
  refine ⟨payload, _, hpayload, hfragment, t.document_eq_assemble config.margin payload, ?_⟩
  intro c hc hkind
  refine ⟨Template.readIn_of_readText hread hc, fun v hv => ?_⟩
  obtain ⟨path, hclean⟩ := Template.clean_of_validate hvalid hc
  have hunknown := Component.unknown_iff_repeatsField hv hkind hclean
  constructor
  · intro hrepeats
    have hknown : ∀ u, c ≠ .unknown u := by
      rintro u rfl
      rw [hunknown.mp ⟨u, rfl⟩] at hrepeats
      cases hrepeats
    obtain ⟨p, content, hp, hcontent, hdrawn⟩ :=
      Component.outcome_fragment_of_known (habsolute c hc) hknown payload
    rw [hfragment c hc, Except.ok.injEq] at hdrawn
    exact ⟨p, content, hp, hcontent, hdrawn, hdrawn ▸ positioned_ne_empty p content⟩
  · intro hrepeats
    obtain ⟨u, rfl⟩ := hunknown.mpr hrepeats
    rfl

/-- A template whose only component, a callout, has its title twice. -/
def titleTwice : String :=
  "\x7b\"schemaVersion\":\"1.0\",\"tenantId\":\"a\",\"templateId\":\"b\",\"name\":\"n\"," ++
  "\"status\":\"draft\",\"version\":1,\"createdBy\":\"c\",\"updatedBy\":\"c\",\"pages\":[\x7b" ++
  "\"id\":\"p\",\"pageNumber\":1,\"size\":\"A4\",\"header\":\x7b\x7d,\"body\":\x7b\"components\":[\x7b" ++
  "\"id\":\"t\",\"type\":\"callout\",\"title\":\"A\",\"title\":\"A\",\"body\":\"C\",\"position\":\x7b" ++
  "\"x\":0,\"y\":0,\"width\":1,\"height\":1\x7d\x7d]\x7d,\"footer\":\x7b\x7d\x7d]\x7d"

/-- The callout is read as unknown, and checking the template finds nothing. -/
theorem readText_titleTwice : ∃ t c, readText Template.reader titleTwice = .ok t ∧
    c ∈ t.components ∧ c.kind = "callout" ∧ c.position? = none ∧
    ∃ payload fo, (Payload.ofText {} "<Case/>").outcome = .ok payload ∧
      (CompilerConfig.compile {} t "<Case/>").outcome = .ok fo := by
  -- all that is needed of the template, so that its text is read only once
  have hsummary : (readText Template.reader titleTwice).toOption.map (fun t =>
      (t.components.map fun c => (c.kind, c.position?), t.bindingPaths,
        t.validate.outcome.toOption)) = some ([("callout", none)], [], some ()) := by
    decide +kernel
  cases hread : readText Template.reader titleTwice with
  | error e =>
    rw [hread] at hsummary
    cases hsummary
  | ok t =>
    rw [hread] at hsummary
    obtain ⟨hcomponents, hpaths, hvalid⟩ : t.components.map _ = _ ∧ t.bindingPaths = [] ∧
        t.validate.outcome.toOption = some () := by
      simpa only [Prod.mk.injEq] using Option.some.inj hsummary
    obtain ⟨c, hc, hsort⟩ := List.map_eq_singleton_iff.mp hcomponents
    obtain ⟨hkind, hposition⟩ := Prod.mk.injEq .. ▸ hsort
    have hvalid : t.validate.outcome = .ok () := by
      cases h : t.validate.outcome with
      | error r =>
        rw [h] at hvalid
        cases hvalid
      | ok u => rfl
    have hcompile : (CompilerConfig.compile {} t "<Case/>").outcome = _ :=
      CompilerConfig.outcome_compile_of_readable hvalid (by rw [hpaths]; rfl)
        Payload.outcome_ofText_case
    exact ⟨t, c, rfl, by simp [hc], hkind, hposition, _, _, Payload.outcome_ofText_case, hcompile⟩

/-- The known kind alone does not decide: in the document of `titleTwice` the callout is missing. -/
theorem not_known_component_drawn_of_titleTwice :
    ¬ ∀ (config : CompilerConfig) (text payloadText fo : String) (t : Template),
      readText Template.reader text = .ok t → (config.compile t payloadText).outcome = .ok fo →
        ∀ payload, (Payload.ofText config.limits payloadText).outcome = .ok payload →
          ∀ c ∈ t.components, c.kind ∈ componentKinds → ∃ p content,
            c.position? = some p ∧ (c.fragment payload).outcome = .ok (positioned p content) := by
  intro hdrawn
  obtain ⟨t, c, hread, hc, hkind, hposition, payload, fo, hpayload, hcompile⟩ := readText_titleTwice
  have hknown : c.kind ∈ componentKinds := by simp [hkind, componentKinds]
  obtain ⟨p, -, hp, -⟩ := hdrawn {} _ _ fo t hread hcompile payload hpayload c hc hknown
  rw [hposition] at hp
  cases hp

theorem known_component_drawn_iff_of_titleTwice : ∃ t c v fo payload,
    readText Template.reader titleTwice = .ok t ∧
      (CompilerConfig.compile {} t "<Case/>").outcome = .ok fo ∧ c ∈ t.components ∧
        c.kind ∈ componentKinds ∧ StandsIn titleTwice.toList v ∧ Component.ofJson? v = some c ∧
          Component.repeatsField v = true ∧ (c.fragment payload).outcome = .ok "" := by
  obtain ⟨t, c, hread, hc, hkind, hposition, _, fo, _, hcompile⟩ := readText_titleTwice
  have hknown : c.kind ∈ componentKinds := by simp [hkind, componentKinds]
  obtain ⟨payload, fragment, -, hfragment, -, hcomponents⟩ :=
    known_component_drawn_iff {} _ _ _ t hread hcompile
  obtain ⟨⟨v, hstands, hv⟩, hexact⟩ := hcomponents c hc hknown
  obtain ⟨hdrawn, hdropped⟩ := hexact v hv
  have hrepeats : Component.repeatsField v = true := by
    by_contra hrepeats
    obtain ⟨p, -, hp, -⟩ := hdrawn (Bool.eq_false_iff.mpr hrepeats)
    rw [hposition] at hp
    cases hp
  refine ⟨t, c, v, fo, payload, hread, hcompile, hc, hknown, hstands, hv, hrepeats, ?_⟩
  rw [hfragment c hc, hdropped hrepeats]

end StatementPress
