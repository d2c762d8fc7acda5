import StatementPress.Proofs.Json.Repetition
import StatementPress.Proofs.Walk.Decoding

/-!
# Repeated fields of components

The test for repeated keys of each kind of component, put together like its decoder.  A component of
a known kind that repeats a field is refused by the decoder of its kind.  One that does not is decoded
as its normal form is (`Component.ofKnown?_of_repeatsField`, `Component.ofKnown?_normalize`).
-/

namespace StatementPress

open Json

/-! ## Parts of components -/

/-- The test of a box. -/
def Position.repeats : Repetition :=
  recordRepeats [("x", unkeyed), ("y", unkeyed), ("width", unkeyed), ("height", unkeyed)]

/-- A position fails to decode if one of its fields is repeated, and goes by its normal form
otherwise. -/
theorem Position.follows : Follows Position.ofJson? Position.repeats :=
  FieldsFollow.record <|
    .required follows_double "x" fun _ =>
    .required follows_double "y" fun _ =>
    .required follows_double "width" fun _ =>
    .required follows_double "height" fun _ => .pure _

/-- The test of a binding. -/
def Binding.repeats : Repetition := recordRepeats [("path", unkeyed), ("fallback", unkeyed)]

theorem Binding.follows : Follows Binding.ofJson? Binding.repeats :=
  FieldsFollow.record <|
    .required follows_string "path" fun _ =>
    .optional follows_string "fallback" _ fun _ => .pure _

/-- The test of a text style. -/
def TextStyle.repeats : Repetition :=
  recordRepeats [("fontFamily", unkeyed), ("fontSize", unkeyed), ("fontWeight", choiceRepeats),
    ("color", unkeyed), ("align", choiceRepeats)]

theorem TextStyle.follows : Follows TextStyle.ofJson? TextStyle.repeats :=
  FieldsFollow.record <|
    .optional follows_string "fontFamily" _ fun _ =>
    .optional follows_double "fontSize" _ fun _ =>
    .optional (follows_choice _) "fontWeight" _ fun _ =>
    .optional follows_string "color" _ fun _ =>
    .optional (follows_choice _) "align" _ fun _ => .pure _

/-- The test of a column. -/
def TableColumn.repeats : Repetition :=
  recordRepeats [("id", unkeyed), ("header", unkeyed), ("width", unkeyed),
    ("binding", Binding.repeats)]

theorem TableColumn.follows : Follows TableColumn.ofJson? TableColumn.repeats :=
  FieldsFollow.record <|
    .required follows_string "id" fun _ =>
    .required follows_string "header" fun _ =>
    .required follows_double "width" fun _ =>
    .required Binding.follows "binding" fun _ => .pure _

/-- Identifier and box before other fields. -/
theorem Json.FieldsFollow.frame {α : Type} {fields : List (String × Repetition)}
    {next : Frame → (String → Option Json) → Option α}
    (h : ∀ frame, FieldsFollow (next frame) fields) :
    FieldsFollow (fun field => do next (← Frame.ofFields? field) field)
      (("id", unkeyed) :: ("position", Position.repeats) :: fields) := by
  have hfields := FieldsFollow.required follows_string "id" fun id =>
    FieldsFollow.required Position.follows "position" fun position => h ⟨id, position⟩
  simpa [Frame.ofFields?, Option.bind_assoc] using hfields

/-! ## Components of known kinds -/

/-- The tests of the fields that a kind names, with those of identifier and box. -/
def Component.fieldTests (kind : String) : List (String × Repetition) :=
  ("id", unkeyed) :: ("position", Position.repeats) ::
    match kind with
    | "text" =>
      [("content", unkeyed), ("binding", Binding.repeats), ("style", TextStyle.repeats)]
    | "image" => [("assetId", unkeyed), ("description", unkeyed)]
    | "divider" => [("strokeWidth", unkeyed), ("color", unkeyed)]
    | "table" => [("rowBinding", Binding.repeats), ("columns", listRepeats TableColumn.repeats)]
    | "totals" => [("label", unkeyed), ("amountBinding", Binding.repeats)]
    | "payment" => [("instruction", unkeyed), ("accountBinding", Binding.repeats)]
    | "callout" => [("title", unkeyed), ("body", unkeyed)]
    | _ => []

theorem TextComponent.follows :
    Follows TextComponent.ofJson? (recordRepeats (Component.fieldTests "text")) :=
  FieldsFollow.record <|
    .frame fun _ =>
    .optional (follows_string.nullable rfl) "content" _ fun _ =>
    .optional (Binding.follows.nullable rfl) "binding" _ fun _ =>
    .required TextStyle.follows "style" fun _ => .pure _

theorem ImageComponent.follows :
    Follows ImageComponent.ofJson? (recordRepeats (Component.fieldTests "image")) :=
  FieldsFollow.record <|
    .frame fun _ =>
    .required follows_string "assetId" fun _ =>
    .optional follows_string "description" _ fun _ => .pure _

theorem DividerComponent.follows :
    Follows DividerComponent.ofJson? (recordRepeats (Component.fieldTests "divider")) :=
  FieldsFollow.record <|
    .frame fun _ =>
    .optional follows_double "strokeWidth" _ fun _ =>
    .optional follows_string "color" _ fun _ => .pure _

theorem TableComponent.follows :
    Follows TableComponent.ofJson? (recordRepeats (Component.fieldTests "table")) :=
  FieldsFollow.record <|
    .frame fun _ =>
    .required Binding.follows "rowBinding" fun _ =>
    .required TableColumn.follows.list "columns" fun _ => .pure _

theorem TotalsComponent.follows :
    Follows TotalsComponent.ofJson? (recordRepeats (Component.fieldTests "totals")) :=
  FieldsFollow.record <|
    .frame fun _ =>
    .optional follows_string "label" _ fun _ =>
    .required Binding.follows "amountBinding" fun _ => .pure _

theorem PaymentComponent.follows :
    Follows PaymentComponent.ofJson? (recordRepeats (Component.fieldTests "payment")) :=
  FieldsFollow.record <|
    .frame fun _ =>
    .required follows_string "instruction" fun _ =>
    .required Binding.follows "accountBinding" fun _ => .pure _

theorem CalloutComponent.follows :
    Follows CalloutComponent.ofJson? (recordRepeats (Component.fieldTests "callout")) :=
  FieldsFollow.record <|
    .frame fun _ =>
    .required follows_string "title" fun _ =>
    .required follows_string "body" fun _ => .pure _

namespace Component

/-- Decodes the fields of a known kind. -/
def ofKind? (rest : Json) : String → Option Component
  | "text" => do return .text (← TextComponent.ofJson? rest)
  | "image" => do return .image (← ImageComponent.ofJson? rest)
  | "divider" => do return .divider (← DividerComponent.ofJson? rest)
  | "table" => do return .table (← TableComponent.ofJson? rest)
  | "totals" => do return .totals (← TotalsComponent.ofJson? rest)
  | "payment" => do return .payment (← PaymentComponent.ofJson? rest)
  | "callout" => do return .callout (← CalloutComponent.ofJson? rest)
  | _ => none

/-- A tagged object is decoded by the kind of its tag. -/
theorem ofKnown?_eq {v tag rest : Json} (h : tagged? v = some (tag, rest)) :
    ofKnown? v = (knownKind? tag).bind (ofKind? rest) := by
  rw [ofKnown?, h]
  rfl

theorem mem_componentKinds_of_knownKind? {tag : Json} {k : String} (h : knownKind? tag = some k) :
    k ∈ componentKinds := by
  unfold knownKind? at h
  split at h
  · split at h
    · cases h
      exact List.contains_iff_mem.mp ‹_›
    · cases h
  · split at h
    · exact List.mem_of_getElem? h
    · cases h
  · cases h

/-- Each known kind is refused when one of its fields is repeated, and goes by its normal form
otherwise. -/
theorem follows_ofKind? {k : String} (hk : k ∈ componentKinds) :
    Follows (fun rest => ofKind? rest k) (recordRepeats (fieldTests k)) := by
  simp only [componentKinds, List.mem_cons, List.not_mem_nil, or_false] at hk
  rcases hk with rfl | rfl | rfl | rfl | rfl | rfl | rfl
  · exact TextComponent.follows.map Component.text
  · exact ImageComponent.follows.map Component.image
  · exact DividerComponent.follows.map Component.divider
  · exact TableComponent.follows.map Component.table
  · exact TotalsComponent.follows.map Component.totals
  · exact PaymentComponent.follows.map Component.payment
  · exact CalloutComponent.follows.map Component.callout

/-- **Whether a component of a known kind repeats a field** that its kind names, in itself or in its
box, bindings, style or columns. -/
def repeatsField (v : Json) : Bool :=
  match tagged? v with
  | some (tag, rest) => (knownKind? tag).any fun k => recordRepeats (fieldTests k) rest
  | none => false

/-- A component that repeats a field does not fit its kind. -/
theorem ofKnown?_of_repeatsField {v : Json} (h : repeatsField v = true) : ofKnown? v = none := by
  unfold repeatsField at h
  split at h
  · rename_i htagged
    obtain ⟨k, hk, hrepeats⟩ := (Option.any_eq_true _ _).mp h
    rw [ofKnown?_eq htagged, hk, Option.bind_some]
    exact (follows_ofKind? (mem_componentKinds_of_knownKind? hk)).refuses hrepeats
  · cases h

/-- The kind of a tag is that of its normal form. -/
theorem knownKind?_normalize (tag : Json) : knownKind? tag.normalize = knownKind? tag := by
  cases tag <;> rfl

theorem tagged?_normalize {v tag rest : Json} (h : tagged? v = some (tag, rest)) :
    tagged? v.normalize = some (tag.normalize, rest.normalize) := by
  unfold tagged? at h
  split at h
  · rename_i members
    split at h
    · rename_i k w hfilter
      cases h
      have hsorted := isNormal_normalize (.object members)
      have htype : (Json.object members).normalize.get? "type" = some tag.normalize := by
        have hcount : members.countP (·.1 == "type") ≤ 1 := by
          rw [List.countP_eq_length_filter, hfilter]
          exact Nat.le_refl 1
        rw [Json.normalize, get?, lookup_normalize, lookup_reverse hcount, lookup_eq_head?_filter,
          hfilter]
        rfl
      rw [Json.normalize] at hsorted htype ⊢
      rw [tagged?_of_isNormal hsorted htype, withoutKind, sortMembers_filter (· != "type")]
      rfl
    · cases h
  · cases h
    rfl
  · cases h

/-- A component that repeats no field is decoded as its normal form is. -/
theorem ofKnown?_normalize {v tag rest : Json} (htagged : tagged? v = some (tag, rest))
    (h : repeatsField v = false) : ofKnown? v.normalize = ofKnown? v := by
  rw [ofKnown?_eq htagged, ofKnown?_eq (tagged?_normalize htagged), knownKind?_normalize]
  rw [repeatsField, htagged] at h
  dsimp only at h
  cases hk : knownKind? tag with
  | none => rfl
  | some k =>
    rw [hk] at h
    exact (follows_ofKind? (mem_componentKinds_of_knownKind? hk)).agrees h

end Component

end StatementPress
