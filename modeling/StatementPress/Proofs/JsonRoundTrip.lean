import Mathlib
import StatementPress.Proofs.Json.Rereading
import StatementPress.Proofs.Json.Scaling
import StatementPress.Proofs.Stability
import StatementPress.Proofs.Template.Doubles
import StatementPress.Proofs.Template.Nesting

/-!
# Templates that are written and read again

The JSON text of a template that was read from a text can always be read again, and nothing but
doubles comes back changed (`json_round_trip`).  A double is written with the fewest digits that
determine it, but what is read is not the double nearest to these digits: they are rounded once, and
again when they are scaled.  So the template comes back as it was exactly if each of its doubles is
read back from its own text, and this holds of all that are written short (`Binary64.IsShort`).
-/

namespace StatementPress

open Json

theorem exists_of_any {ε α : Type} {x : Except ε α} {p : α → Bool}
    (h : x.toOption.any p = true) : ∃ a, x = .ok a ∧ p a = true := by
  cases x with
  | error e => cases h
  | ok a => exact ⟨a, rfl, h⟩

/-! ## One double -/

/-- Whether a double is read back from its text. -/
def Binary64.ReadsBack (x : Binary64) : Prop :=
  Json.ofText (doubleText x) = .ok (ofBinary64 x)

/-- What the text of a double is read as. -/
theorem Json.ofText_doubleText {x : Binary64} (hx : x.isFinite = true) :
    Json.ofText (doubleText x) = .ok (ofBinary64 x.reread) := by
  have hreadable : (Json.number (.double x hx)).Readable := by
    intro y hy
    rw [List.mem_singleton.mp hy]
    exact Binary64.isFinite_reread hx
  have hread := Json.ofText_text (v := .number (.double x hx)) trivial (Nat.zero_le _) hreadable
  rwa [mapDoubles, normalize_ofBinary64] at hread

/-- A finite double is read back exactly if the reader's rounding hits it. -/
theorem Binary64.readsBack_iff {x : Binary64} (hx : x.isFinite = true) :
    x.ReadsBack ↔ x.reread = x := by
  have hvalue : ofBinary64 x = .number (.double x hx) := by rw [ofBinary64, dif_pos hx]
  rw [ReadsBack, ofText_doubleText hx, Except.ok.injEq, hvalue, ofBinary64_eq_double_iff hx]

/-- Doubles that are written with few digits and a small exponent are read back. -/
theorem Binary64.readsBack_of_isShort {x : Binary64} (hx : x.isFinite = true) (h : x.IsShort) :
    x.ReadsBack := (readsBack_iff hx).mpr (reread_of_isShort hx h)

/-! ## Templates -/

namespace Template

variable {t : Template} {text : String}

/-- A text is read as the template of its value. -/
theorem outcome_ofText_of_ofValue {raw : Json} (hread : Json.ofText text = .ok raw)
    (h : (ofValue raw).outcome = .ok t) : (ofText text).outcome = .ok t := by
  rw [ofText, Run.outcome_bind, Run.outcome_ofExcept, hread, ok_mapError, ok_bind,
    Run.outcome_mapError, h, ok_mapError]

/-- What is known of a template that was read from a text. -/
theorem encoded_of_ofText (h : (ofText text).outcome = .ok t) :
    t.Valid ∧ (∀ c ∈ t.components, c.Stored) ∧ t.toJson.FitsIn Reader.maxNesting := by
  obtain ⟨raw, hread, hvalue⟩ := exists_of_ofText h
  obtain ⟨hnormal, hfits⟩ := of_ofText hread
  obtain ⟨hfindings, hdecoded⟩ := decoded_of_ofValue hnormal hvalue
  obtain ⟨t', hjson, ht', -⟩ := outcome_ofValue_of_isNormal hnormal hfindings
  rw [hvalue, Except.ok.injEq] at ht'
  subst ht'
  have hraw : raw.FitsIn (118 + 9) := ⟨hfits, nesting_le_of_ofText hread⟩
  exact ⟨hdecoded.isValid hfits hfindings, hdecoded.stored, fitsIn_toJson hjson hraw⟩

/-- A valid template is still valid with its doubles as they are read. -/
theorem valid_reread (h : t.Valid) : (t.mapDoubles Binary64.reread).Valid :=
  valid_mapDoubles (fun _ => Binary64.IsNonNegative.reread) (fun _ => Binary64.IsPositive.reread) h

/-- A template is kept exactly if each double in its value is read back. -/
theorem mapDoubles_reread_eq_self_iff (h : t.Valid) (hstored : ∀ c ∈ t.components, c.Stored) :
    t.mapDoubles Binary64.reread = t ↔ ∀ x ∈ t.toJson.doubles, x.ReadsBack := by
  rw [mapDoubles_eq_self_iff h.components hstored (valid_reread h).components]
  exact forall₂_congr fun x hx => (Binary64.readsBack_iff (isFinite_of_mem_doubles hx)).symm

/-- **The text of a template is read** as the template with its doubles as they are read. -/
theorem outcome_ofText_jsonText (h : (ofText text).outcome = .ok t) :
    (ofText t.jsonText).outcome = .ok (t.mapDoubles Binary64.reread) := by
  obtain ⟨hvalid, hstored, hfits, hnesting⟩ := encoded_of_ofText h
  have hreadable : t.toJson.Readable := fun x hx =>
    Binary64.isFinite_reread (isFinite_of_mem_doubles hx)
  have hread := Json.ofText_text hfits hnesting hreadable
  rw [← toJson_mapDoubles hvalid.components] at hread
  exact outcome_ofText_of_ofValue hread
    (outcome_ofValue_encoded (valid_reread hvalid) (stored_mapDoubles hstored))

end Template

/-- A statement is loaded with the template of its text. -/
theorem Statement.outcome_ofText {text : String} {t : Template}
    (h : (Template.ofText text).outcome = .ok t) :
    (Statement.ofText text).outcome = .ok { template := t } := by
  rw [ofText, Run.outcome_bind, h]
  rfl

/-- **Writing a template and reading it again.**  A template that was read from a text is read from
its own text again, with every double as the text of the double is read.  So it comes back as it
was, and so does a statement that is loaded from its text, exactly if each of its doubles is read
back.  Doubles with a short text are. -/
theorem json_round_trip {text : String} {t : Template}
    (h : (Template.ofText text).outcome = .ok t) :
    (Template.ofText t.jsonText).outcome = .ok (t.mapDoubles Binary64.reread) ∧
      (∀ x ∈ t.toJson.doubles, Json.ofText (doubleText x) = .ok (ofBinary64 x.reread)) ∧
        ((Template.ofText t.jsonText).outcome = .ok t ↔ ∀ x ∈ t.toJson.doubles, x.ReadsBack) ∧
          ((Statement.ofText t.jsonText).outcome = (Statement.ofText text).outcome ↔
            ∀ x ∈ t.toJson.doubles, x.ReadsBack) ∧
              ∀ x ∈ t.toJson.doubles, x.IsShort → x.ReadsBack := by
  obtain ⟨hvalid, hstored, -⟩ := Template.encoded_of_ofText h
  have hread := Template.outcome_ofText_jsonText h
  have hsame := Template.mapDoubles_reread_eq_self_iff hvalid hstored
  refine ⟨hread, fun x hx => ofText_doubleText (isFinite_of_mem_doubles hx), ?_, ?_,
    fun x hx => Binary64.readsBack_of_isShort (isFinite_of_mem_doubles hx)⟩
  · rw [hread, Except.ok.injEq, hsame]
  · rw [Statement.outcome_ofText h, Statement.outcome_ofText hread, Except.ok.injEq,
      Statement.mk.injEq, hsame]
    simp

/-! ## Two texts -/

/-- A statement with one component on its page. -/
def statementWith (component : Json) : Json := .object [
  ("schemaVersion", .string "1.0"), ("tenantId", .string "a"), ("templateId", .string "b"),
  ("name", .string "n"), ("status", .string "draft"), ("version", .ofNat 1),
  ("createdBy", .string "c"), ("updatedBy", .string "c"),
  ("pages", .array [.object [
    ("id", .string "p"), ("pageNumber", .ofNat 1), ("size", .string "A4"), ("header", .object []),
    ("footer", .object []), ("body", .object [("components", .array [component])])]])]

theorem fitsIn_statementWith {component : Json} (h : component.FitsIn 4) :
    (statementWith component).FitsIn Reader.maxNesting := by
  have hfits : (statementWith component).FitsIn (4 + 5) := by
    simp [statementWith, fitsIn_object_iff, fitsIn_array_iff, fitsIn_ofNat, h]
  exact hfits.mono (by decide)

/-- A template is read from the text of a value that is taken with its doubles as they are read. -/
theorem Template.outcome_ofText_text {v : Json} {t : Template} (hv : v.FitsIn Reader.maxNesting)
    (h : (ofValue (v.mapDoubles Binary64.reread).normalize).outcome = .ok t) :
    (ofText v.text).outcome = .ok t :=
  outcome_ofText_of_ofValue (Json.ofText_text hv.fits hv.nesting fun _ hx =>
    Binary64.isFinite_reread (isFinite_of_mem_doubles hx)) h

/-- An unknown component with two doubles, a whole number and a text in its fields. -/
def waxSeal : Json := .object [
  ("type", .string "seal"), ("id", .string "s"), ("hue", .string "red"),
  ("wax", .array [.object [("depth", .ofBinary64 (.ofRatio false 1 10))], .ofNat 12,
    .ofBinary64 (.ofRatio true 25 2)])]

theorem json_round_trip_of_waxSeal : ∃ t,
    (Template.ofText (statementWith waxSeal).text).outcome = .ok t ∧
      (Template.ofText t.jsonText).outcome = .ok t := by
  have hshort : (Template.ofValue ((statementWith waxSeal).mapDoubles
      Binary64.reread).normalize).outcome.toOption.any (fun t =>
        decide (∀ x ∈ t.toJson.doubles, x.IsShort)) = true := by
    decide +kernel
  obtain ⟨t, hvalue, hshort⟩ := exists_of_any hshort
  have hfits : waxSeal.FitsIn 4 := by
    simp [waxSeal, fitsIn_object_iff, fitsIn_array_iff, fitsIn_ofNat]
  have ht := Template.outcome_ofText_text (fitsIn_statementWith hfits) hvalue
  obtain ⟨-, -, hback, -, hreads⟩ := json_round_trip ht
  exact ⟨t, ht, hback.mpr fun x hx => hreads x hx (of_decide_eq_true hshort x hx)⟩

/-- A callout whose distance from the left edge has 53 bits. -/
def farCallout : Json := .object [
  ("id", .string "t"), ("type", .string "callout"), ("title", .string "A"), ("body", .string "C"),
  ("position", .object [("x", .ofNat 9007199254740991), ("y", .ofNat 0), ("width", .ofNat 1),
    ("height", .ofNat 1)])]

/-- The distance is written with one digit more, and comes back as the whole number below. -/
theorem not_json_round_trip_of_farCallout : ∃ t,
    (Template.ofText (statementWith farCallout).text).outcome = .ok t ∧
      (Template.ofText t.jsonText).outcome ≠ .ok t := by
  have hchanged : (Template.ofValue ((statementWith farCallout).mapDoubles
      Binary64.reread).normalize).outcome.toOption.any (fun t =>
        decide (¬ ∀ x ∈ t.toJson.doubles, x.reread = x)) = true := by
    decide +kernel
  obtain ⟨t, hvalue, hchanged⟩ := exists_of_any hchanged
  have hfits : farCallout.FitsIn 4 := by
    simp [farCallout, fitsIn_object_iff, fitsIn_ofNat]
  have ht := Template.outcome_ofText_text (fitsIn_statementWith hfits) hvalue
  obtain ⟨hvalid, hstored, -⟩ := Template.encoded_of_ofText ht
  refine ⟨t, ht, ?_⟩
  rw [Template.outcome_ofText_jsonText ht, Ne, Except.ok.injEq,
    Template.mapDoubles_eq_self_iff hvalid.components hstored
      (Template.valid_reread hvalid).components]
  exact of_decide_eq_true hchanged

end StatementPress
