import Mathlib
import StatementPress.Proofs.Template.TakenForUnknown

/-!
# Components that fit no kind

An object with a kind, and with an identifier if any that is a string, is always read as a component.  If
its kind is not known, or its fields do not fit the record of its kind, it is kept as an unknown component,
and its value is the object again, whatever its other fields hold; only an identifier that was absent is
empty then (`unfit_components_kept`).
-/

namespace StatementPress

open Json

variable {members : List (String × Json)} {kind : String} {id : Option String}

/-- The members of an object, with an empty identifier if there was none. -/
def Json.withId (members : List (String × Json)) : List (String × Json) :=
  match members.lookup "id" with
  | some _ => members
  | none => insertMember "id" (.string "") members

/-- An identifier that is not there is added empty. -/
theorem Json.lookup_withId (members : List (String × Json)) (key : String) :
    (withId members).lookup key =
      if key = "id" then some ((members.lookup "id").getD (.string "")) else members.lookup key := by
  unfold withId
  split
  · rename_i v hv
    by_cases hkey : key = "id"
    · rw [if_pos hkey, hkey, hv]
      rfl
    · rw [if_neg hkey]
  · rename_i hnone
    rw [lookup_insertMember, hnone]
    rfl

theorem Json.pairwise_withId (h : members.Pairwise fun a b => a.1 < b.1) :
    (withId members).Pairwise fun a b => a.1 < b.1 := by
  unfold withId
  split
  · exact h
  · exact pairwise_insertMember h "id" (.string "")

/-! ## Records of known kinds -/

theorem Frame.get?_id_of_ofFields? {field : String → Option Json} {frame : Frame}
    (h : ofFields? field = some frame) : field "id" = some (.string frame.id) := by
  obtain ⟨id, hid, h⟩ := Option.bind_eq_some_iff.mp h
  obtain ⟨position, -, h⟩ := Option.bind_eq_some_iff.mp h
  cases h
  obtain ⟨v, hv, hstring⟩ := Option.bind_eq_some_iff.mp hid
  rw [hv, eq_string_of_string? hstring]

namespace Component

/-- The record of a known kind does not look at the kind. -/
theorem ofKind?_withoutKind (hn : (Json.object members).IsNormal) (kind : String) :
    ofKind? (.object (withoutKind members)) kind = ofKind? (.object members) kind := by
  have hrest := isNormal_withoutKind hn
  unfold ofKind?
  split <;> simp [TextComponent.ofJson?, ImageComponent.ofJson?, DividerComponent.ofJson?,
    TableComponent.ofJson?, TotalsComponent.ofJson?, PaymentComponent.ofJson?,
    CalloutComponent.ofJson?, Frame.ofFields?, fields?_of_isNormal, hn, hrest, get?_withoutKind]

/-- What is read as a record of a known kind has this kind, and its identifier. -/
theorem of_ofKind? {c : Component} (hn : (Json.object members).IsNormal)
    (h : ofKind? (.object members) kind = some c) :
    c.kind = kind ∧ (Json.object members).get? "id" = some (.string c.id) := by
  unfold ofKind? at h
  split at h
  case h_8 => cases h
  all_goals
    simp only [TextComponent.ofJson?, ImageComponent.ofJson?, DividerComponent.ofJson?,
      TableComponent.ofJson?, TotalsComponent.ofJson?, PaymentComponent.ofJson?,
      CalloutComponent.ofJson?, fields?_of_isNormal hn, Option.bind_eq_bind, Option.bind_some,
      Option.bind_eq_some_iff, Option.pure_def, Option.some.injEq] at h
  -- a text has three fields of its own, every other kind has two
  case h_1 =>
    obtain ⟨_, ⟨frame, hframe, _, -, _, -, _, -, rfl⟩, rfl⟩ := h
    exact ⟨rfl, Frame.get?_id_of_ofFields? hframe⟩
  all_goals
    obtain ⟨_, ⟨frame, hframe, _, -, _, -, rfl⟩, rfl⟩ := h
    exact ⟨rfl, Frame.get?_id_of_ofFields? hframe⟩

/-- An object is decoded by the kind under its key `type`, if that is a known one. -/
theorem ofKnown?_of_get? (hn : (Json.object members).IsNormal)
    (hkind : (Json.object members).get? "type" = some (.string kind)) :
    ofKnown? (.object members) =
      if kind ∈ componentKinds then ofKind? (.object members) kind else none := by
  rw [ofKnown?_eq (tagged?_of_isNormal hn hkind), knownKind?]
  simp only [List.contains_iff_mem]
  split
  · rw [Option.bind_some, ofKind?_withoutKind hn]
  · rfl

end Component

/-! ## Unknown components -/

/-- An object with a kind can be taken for a component of that kind, known or not. -/
theorem UnknownComponent.exists_of_get? (hn : (Json.object members).IsNormal)
    (hkind : (Json.object members).get? "type" = some (.string kind))
    (hid : (Json.object members).get? "id" = id.map .string) :
    ∃ u, ofJson? (.object members) = some u ∧ u.kind = kind ∧ u.id = id.getD "" := by
  have hread : Json.optional (id.map .string) "" string? = some (id.getD "") := by
    cases id <;> rfl
  refine ⟨⟨kind, id.getD "", sortMembers (normalizeMembers
    (members.filter fun m => m.1 != "type" && m.1 != "id"))⟩, ?_, rfl, rfl⟩
  rw [ofJson?, fields?_of_isNormal hn]
  simp [members?, required, string?, hkind, hid, hread]

/-- **The value of an unknown component is the object it was read from**, with an identifier. -/
theorem UnknownComponent.DecodedFrom.normalize_eq {u : UnknownComponent} (h : u.DecodedFrom members)
    (hn : (Json.object members).IsNormal)
    (hid : (Json.object members).get? "id" = id.map .string) (hu : u.id = id.getD "") :
    (Component.unknown u).toJson.normalize = .object (withId members) := by
  obtain ⟨hsorted, -⟩ := isNormal_object_iff.mp hn
  have hkept : (members.lookup "id").getD (.string "") = .string u.id := by
    rw [get?] at hid
    rw [hid, hu]
    cases id <;> rfl
  rw [Component.toJson, Json.normalize]
  refine congrArg Json.object
    (eq_of_lookup_eq (pairwise_sortMembers _) (pairwise_withId hsorted) fun key => ?_)
  rw [lookup_normalize, h.lookup_toMembers, lookup_withId,
    lookup_reverse (countP_le_one_of_pairwise hsorted key)]
  by_cases hkind : key = "type"
  · rw [if_pos hkind, if_neg (by simp [hkind]), hkind, h.kind]
    rfl
  · by_cases hkey : key = "id"
    · rw [if_neg hkind, if_pos hkey, if_pos hkey, hkept]
      rfl
    -- what stands under any other key is kept in normal form, and was normal before
    · rw [if_neg hkind, if_neg hkey, if_neg hkey]
      cases hv : members.lookup key with
      | none => rfl
      | some v =>
        have hvn : v.IsNormal := isNormal_of_get? hn hv
        simp [normalize_eq_self hvn]

/-- **Components that fit no kind are kept.**  An object with a kind, and with an identifier if any that
is a string, is read as a component with this kind and this identifier, or an empty one.  The component is
unknown exactly if the kind is not known or the object is no record of its kind; then its value is the
object again, with an identifier. -/
theorem unfit_components_kept (members : List (String × Json)) (kind : String) (id : Option String)
    (hn : (Json.object members).IsNormal)
    (hkind : (Json.object members).get? "type" = some (.string kind))
    (hid : (Json.object members).get? "id" = id.map .string) :
    ∃ c, Component.ofJson? (.object members) = some c ∧ c.kind = kind ∧ c.id = id.getD "" ∧
      ((∃ u, c = .unknown u) ↔
        kind ∉ componentKinds ∨ Component.ofKind? (.object members) kind = none) ∧
      ((∃ u, c = .unknown u) → c.toJson.normalize = .object (withId members)) := by
  have hknown := Component.ofKnown?_of_get? hn hkind
  cases hc : Component.ofKnown? (.object members) with
  -- the object is a record of its kind
  | some c =>
    have hne : ¬ ∃ u, c = .unknown u := by
      rintro ⟨u, rfl⟩
      exact Component.ofKnown?_ne_unknown _ u hc
    rw [hknown] at hc
    split at hc
    · rename_i hmem
      obtain ⟨hckind, hcid⟩ := Component.of_ofKind? hn hc
      refine ⟨c, ?_, hckind, ?_, iff_of_false hne ?_, fun hu => absurd hu hne⟩
      · rw [Component.ofJson?, hknown, if_pos hmem, hc]
      · rw [hid] at hcid
        cases id with
        | none => cases hcid
        | some s =>
          cases hcid
          rfl
      · simp [hmem, hc]
    · cases hc
  -- it is none, so it is kept with all its fields
  | none =>
    obtain ⟨u, hu, hukind, huid⟩ := UnknownComponent.exists_of_get? hn hkind hid
    obtain ⟨_, hmembers, hdecoded⟩ := u.decodedFrom_of_ofJson? hu
    cases hmembers
    refine ⟨.unknown u, ?_, hukind, huid, iff_of_true ⟨u, rfl⟩ ?_,
      fun _ => hdecoded.normalize_eq hn hid huid⟩
    · rw [Component.ofJson?, hc, hu]
      rfl
    · rw [hknown] at hc
      by_cases hmem : kind ∈ componentKinds
      · rw [if_pos hmem] at hc
        exact .inr hc
      · exact .inl hmem

/-- An object that calls itself a table, with columns that are none, and without an identifier. -/
def looseTable : List (String × Json) :=
  [("columns", .array [.object [("cells", .array [.null, .ofNat 2]), ("width", .string "2")]]),
    ("position", .bool true), ("type", .string "table")]

/-- The table is kept. -/
theorem unfit_components_kept_on_looseTable :
    ∃ c, Component.ofJson? (.object looseTable) = some c ∧ c.kind = "table" ∧ c.id = "" ∧
      (∃ u, c = .unknown u) ∧ c.toJson.normalize = .object [
        ("columns", .array [.object [("cells", .array [.null, .ofNat 2]), ("width", .string "2")]]),
        ("id", .string ""), ("position", .bool true), ("type", .string "table")] := by
  have hnormal : (Json.object looseTable).IsNormal := by
    have hfixed : (Json.object looseTable).normalize = .object looseTable := by cbv
    exact hfixed ▸ isNormal_normalize _
  obtain ⟨c, hc, hkind, hid, hunknown, hvalue⟩ :=
    unfit_components_kept looseTable "table" none hnormal rfl rfl
  have hfits : Component.ofKind? (.object looseTable) "table" = none := rfl
  have hu := hunknown.mpr (.inr hfits)
  have hmembers : withId looseTable = [
      ("columns", .array [.object [("cells", .array [.null, .ofNat 2]), ("width", .string "2")]]),
      ("id", .string ""), ("position", .bool true), ("type", .string "table")] := rfl
  refine ⟨c, hc, hkind, hid, hu, ?_⟩
  rw [hvalue hu, hmembers]

end StatementPress
