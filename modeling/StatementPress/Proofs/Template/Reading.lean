import StatementPress.Proofs.Json.TypedInText
import StatementPress.Template.Reader

/-!
# Where the components of a template come from

A template that is read from a text has its components from there: each is decoded from a value that
stands in the text.
-/

namespace StatementPress

open Json Reader Typed

variable {text : List Char}

/-- **Whether a component is decoded from a value that stands in a text.** -/
def Component.ReadIn (text : List Char) (c : Component) : Prop :=
  ∃ v, StandsIn text v ∧ Component.ofJson? v = some c

/-- Whether every component of a region is read in a text. -/
def Region.ReadIn (text : List Char) (r : Region) : Prop := ∀ c ∈ r.components, c.ReadIn text

/-- Whether every region of a page is read in a text. -/
def Page.ReadIn (text : List Char) (p : Page) : Prop := ∀ k, (p.region k).ReadIn text

/-- Whether every page of a template is read in a text. -/
def Template.ReadIn (text : List Char) (t : Template) : Prop := ∀ p ∈ t.pages, p.ReadIn text

/-- The components of a region that was read stand in the text. -/
theorem Region.yields_reader (room : Nat) : Yields text (reader room) (ReadIn text) := by
  have hempty : ReadIn text {} := fun _ hc => nomatch hc
  refine yields_record ?_ hempty "Region" room
  rintro field (_ | ⟨_, ⟨⟩⟩)
  exact keeps_optional "components" (yields_list (yields_decoded _ _)) fun _ _ hcs _ => hcs

/-- The components of a page that was read stand in the text. -/
theorem Page.yields_reader (room : Nat) : Yields text (reader room) (ReadIn text) := by
  have hempty : ReadIn text { id := "", pageNumber := 0 } := fun k c hc => by
    cases k <;> cases hc
  refine yields_record ?_ hempty "Page" room
  simp only [List.forall_mem_cons]
  refine ⟨?_, ?_, ?_, ?_, ?_, ?_, fun _ h => nomatch h⟩
  · exact keeps_required "id" stays_string fun _ _ _ hp => hp
  · exact keeps_required "pageNumber" (stays_numeric _ _) fun _ _ _ hp => hp
  · exact keeps_optional "size" (stays_choice _) fun _ _ _ hp => hp
  · refine keeps_required "header" Region.yields_reader fun r p hr hp k => ?_
    cases k with
    | header => exact hr
    | body => exact hp .body
    | footer => exact hp .footer
  · refine keeps_required "body" Region.yields_reader fun r p hr hp k => ?_
    cases k with
    | header => exact hp .header
    | body => exact hr
    | footer => exact hp .footer
  · refine keeps_required "footer" Region.yields_reader fun r p hr hp k => ?_
    cases k with
    | header => exact hp .header
    | body => exact hp .body
    | footer => exact hr

/-- **The components of a template that was read stand in the text.** -/
theorem Template.yields_reader (room : Nat) : Yields text (reader room) (ReadIn text) := by
  have hversion : ∀ room, Stays text (versionReader room) := fun room =>
    (stays_numeric _ _ room).bind fun _ _ => yields_pure trivial
  refine yields_record ?_ (fun _ hp => nomatch hp) "Template" room
  simp only [List.forall_mem_cons]
  refine ⟨?_, ?_, ?_, ?_, ?_, ?_, ?_, ?_, ?_, ?_, fun _ h => nomatch h⟩
  · exact keeps_required "schemaVersion" stays_string fun _ _ _ ht => ht
  · exact keeps_required "tenantId" stays_string fun _ _ _ ht => ht
  · exact keeps_required "templateId" stays_string fun _ _ _ ht => ht
  · exact keeps_required "name" stays_string fun _ _ _ ht => ht
  · exact keeps_optional "description" stays_string fun _ _ _ ht => ht
  · exact keeps_required "status" (stays_choice _) fun _ _ _ ht => ht
  · exact keeps_required "version" hversion fun _ _ _ ht => ht
  · exact keeps_required "pages" (yields_list Page.yields_reader) fun _ _ hps _ => hps
  · exact keeps_required "createdBy" stays_string fun _ _ _ ht => ht
  · exact keeps_required "updatedBy" stays_string fun _ _ _ ht => ht

/-- **Every component of a template that is read from a text is decoded from a value in it.** -/
theorem Template.readIn_of_readText {text : String} {t : Template}
    (h : readText Template.reader text = .ok t) {c : Component} (hc : c ∈ t.components) :
    c.ReadIn text.toList := by
  have ht : t.ReadIn text.toList := of_readText yields_reader h
  obtain ⟨p, hp, hc⟩ := List.mem_flatMap.mp hc
  obtain ⟨part, hpart, hc⟩ := List.mem_flatMap.mp hc
  rw [p.region_of_mem_regions hpart] at hc
  exact ht p hp part.1 c hc

end StatementPress
