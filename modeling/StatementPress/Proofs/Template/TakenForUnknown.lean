import StatementPress.Proofs.Template.RepeatedFields
import StatementPress.Proofs.Walk.Decoding

/-!
# Components taken for unknown

A template that was put together in memory is checked over its JSON value, and what is checked is the
normal form.  An unknown component keeps the last member of each key, so the value that is checked is
the normal form of the value it was decoded from.  Where that fits a known kind, the component itself
was refused only because a field repeats in it.
-/

namespace StatementPress

open Json Walk

/-! ## The value of an unknown component -/

/-- A record has each of its fields once. -/
theorem Json.countP_le_one_of_fields? {names : List String} {members : List (String × Json)}
    {field : String → Option Json} (h : (object members).fields? names = some field) {name : String}
    (hname : name ∈ names) : members.countP (·.1 == name) ≤ 1 := by
  refine Nat.not_lt.mp fun hcount => ?_
  rw [fields?_eq_none_of_count hname (v := object members) hcount] at h
  cases h

/-- What is known of a value that is taken as an unknown component. -/
structure UnknownComponent.DecodedFrom (u : UnknownComponent) (members : List (String × Json)) :
    Prop where
  oneKind : members.countP (·.1 == "type") ≤ 1
  oneId : members.countP (·.1 == "id") ≤ 1
  kind : members.lookup "type" = some (.string u.kind)
  id : members.lookup "id" = some (.string u.id) ∨ u.id = ""
  fields : u.fields = (sortMembers (normalizeMembers members)).filter
    fun m => m.1 != "type" && m.1 != "id"

theorem Json.eq_string_of_string? {v : Json} {s : String} (h : v.string? = some s) :
    v = .string s := by
  cases v with
  | string _ =>
    cases h
    rfl
  | _ => cases h

/-- A component of an unknown kind is decoded from the members of an object. -/
theorem UnknownComponent.decodedFrom_of_ofJson? {v : Json} {u : UnknownComponent}
    (h : ofJson? v = some u) : ∃ members, v = .object members ∧ u.DecodedFrom members := by
  simp only [ofJson?, Option.bind_eq_bind, Option.bind_eq_some_iff] at h
  obtain ⟨members, hmembers, field, hfield, kind, hkind, id, hid, hu⟩ := h
  cases hu
  cases v with
  | object _ =>
    cases hmembers
    rw [eq_fieldOf_of_fields? hfield] at hkind hid
    refine ⟨members, rfl, countP_le_one_of_fields? hfield (by simp),
      countP_le_one_of_fields? hfield (by simp), ?_, ?_,
      (sortMembers_filter (fun key => key != "type" && key != "id") members).symm⟩
    · obtain ⟨w, hw, hstring⟩ := Option.bind_eq_some_iff.mp hkind
      rwa [eq_string_of_string? hstring] at hw
    · cases hget : members.lookup "id" with
      | none =>
        rw [fieldOf, hget] at hid
        cases hid
        exact .inr rfl
      | some w =>
        rw [fieldOf, hget] at hid
        rw [eq_string_of_string? hid]
        exact .inl rfl
  | _ => cases hmembers

namespace UnknownComponent.DecodedFrom

variable {members : List (String × Json)} {u : UnknownComponent} (h : u.DecodedFrom members)
include h

/-- It keeps all members but its kind and its identifier, in normal form. -/
theorem lookup_fields (key : String) : u.fields.reverse.lookup key =
    if key != "type" && key != "id" then (members.reverse.lookup key).map Json.normalize
    else none := by
  have hsorted : u.fields.Pairwise fun a b => a.1 < b.1 := by
    rw [h.fields]
    exact (pairwise_sortMembers _).filter _
  rw [lookup_reverse (countP_le_one_of_pairwise hsorted key), h.fields,
    lookup_filter fun key => key != "type" && key != "id", lookup_normalize]

/-- What stands under a key of the value of an unknown component. -/
theorem lookup_toMembers (key : String) : u.toMembers.reverse.lookup key =
    if key = "type" then some (.string u.kind) else if key = "id" then some (.string u.id)
    else (members.reverse.lookup key).map Json.normalize := by
  rw [toMembers, List.reverse_cons, List.reverse_cons, List.lookup_append, List.lookup_append,
    h.lookup_fields]
  by_cases hkind : key = "type"
  · subst hkind
    rfl
  · by_cases hid : key = "id"
    · subst hid
      rfl
    · simp [hkind, hid, List.lookup_cons, beq_eq_false_iff_ne.mpr hkind, beq_eq_false_iff_ne.mpr hid]

theorem get?_id : (Component.unknown u).toJson.normalize.get? "id" = some (.string u.id) := by
  rw [Component.toJson, Json.normalize, get?, lookup_normalize, h.lookup_toMembers]
  rfl

theorem get?_kind : (Component.unknown u).toJson.normalize.get? "type" = some (.string u.kind) := by
  rw [Component.toJson, Json.normalize, get?, lookup_normalize, h.lookup_toMembers]
  rfl

/-- **The value of an unknown component has the normal form of the value it was decoded from**, if
that has an identifier. -/
theorem normalize_toJson (hid : u.id ≠ "") :
    (Component.unknown u).toJson.normalize = (Json.object members).normalize := by
  rw [Component.toJson, Json.normalize, Json.normalize]
  refine congrArg Json.object
    (eq_of_lookup_eq (pairwise_sortMembers _) (pairwise_sortMembers _) fun key => ?_)
  rw [lookup_normalize, lookup_normalize, h.lookup_toMembers]
  by_cases hkind : key = "type"
  · rw [if_pos hkind, hkind, lookup_reverse h.oneKind, h.kind]
  · by_cases hkey : key = "id"
    · rw [if_neg hkind, if_pos hkey, hkey, lookup_reverse h.oneId, h.id.resolve_right hid]
    · rw [if_neg hkind, if_neg hkey, Option.map_map]
      exact congrArg (fun f => Option.map f _) (funext normalize_normalize)

end UnknownComponent.DecodedFrom

/-! ## Known kinds taken for unknown -/

/-- The identifier of a component that passes the walk is not empty. -/
theorem Walk.id_ne_empty_of_clean {v : Json} {path s : String} (h : Clean (component v path))
    (hid : v.get? "id" = some (.string s)) : s ≠ "" := by
  rw [component, clean_object] at h
  obtain ⟨members, hv, h⟩ := h
  cases hv
  obtain ⟨s', hs, hne⟩ := clean_identifier.mp (clean_append.mp h).1
  rw [hid] at hs
  cases hs
  exact hne

namespace Component

/-- No known kind decodes to an unknown one. -/
theorem ofKnown?_ne_unknown (v : Json) (u : UnknownComponent) : ofKnown? v ≠ some (.unknown u) := by
  intro h
  cases htagged : tagged? v with
  | none =>
    rw [ofKnown?, htagged] at h
    cases h
  | some tagged =>
    rw [ofKnown?_eq htagged] at h
    obtain ⟨k, -, hk⟩ := Option.bind_eq_some_iff.mp h
    unfold ofKind? at hk
    split at hk <;> simp [Option.bind_eq_some_iff] at hk

/-- What is taken for unknown is taken by no known kind. -/
theorem ofJson?_eq_some_unknown {v : Json} {u : UnknownComponent}
    (h : ofJson? v = some (.unknown u)) : ofKnown? v = none ∧ UnknownComponent.ofJson? v = some u := by
  unfold ofJson? at h
  split at h
  · rename_i c hc
    cases h
    cases ofKnown?_ne_unknown v u hc
  · rename_i hnone
    obtain ⟨w, hw, huw⟩ := Option.map_eq_some_iff.mp h
    cases huw
    exact ⟨hnone, hw⟩

theorem ofKnown?_of_decodes {v : Json} {c : Component} (h : ofJson? v = some c)
    (hc : ∀ u, c ≠ .unknown u) : ofKnown? v = some c := by
  unfold ofJson? at h
  split at h
  · cases h
    assumption
  · obtain ⟨u, -, hu⟩ := Option.map_eq_some_iff.mp h
    cases hc u hu.symm

/-- **A component of a known kind is taken for unknown exactly if it repeats a field**, as long as its
value passes the walk. -/
theorem unknown_iff_repeatsField {v : Json} {c : Component} {path : String} (h : ofJson? v = some c)
    (hkind : c.kind ∈ componentKinds) (hclean : Clean (Walk.component c.toJson.normalize path)) :
    (∃ u, c = .unknown u) ↔ repeatsField v = true := by
  constructor
  · rintro ⟨u, rfl⟩
    obtain ⟨hnone, hu⟩ := ofJson?_eq_some_unknown h
    obtain ⟨members, rfl, hdecoded⟩ := u.decodedFrom_of_ofJson? hu
    have htagged : tagged? (.object members) =
        some (.string u.kind, .object (withoutKind members)) := by
      rw [tagged?, filter_eq_of_lookup hdecoded.oneKind hdecoded.kind]
      rfl
    -- the value that was checked fits a known kind
    obtain ⟨d, hd, ⟨hdkind, -, hdunknown⟩, -⟩ := Component.decodes hclean (isNormal_normalize _)
    have hknown : ∀ w, d ≠ .unknown w := by
      rw [hdecoded.get?_kind, Option.some.injEq, Json.string.injEq] at hdkind
      exact fun w hw => hdunknown.mp ⟨w, hw⟩ (hdkind ▸ hkind)
    -- and it is the normal form of the value that did not
    have hnormal := ofKnown?_of_decodes hd hknown
    rw [hdecoded.normalize_toJson (id_ne_empty_of_clean hclean hdecoded.get?_id)] at hnormal
    by_contra hrepeats
    rw [ofKnown?_normalize htagged (Bool.eq_false_iff.mpr hrepeats), hnone] at hnormal
    cases hnormal
  · intro hrepeats
    unfold ofJson? at h
    rw [ofKnown?_of_repeatsField hrepeats] at h
    obtain ⟨u, -, hu⟩ := Option.map_eq_some_iff.mp h
    exact ⟨u, hu.symm⟩

end Component

end StatementPress
