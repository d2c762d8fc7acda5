import StatementPress.Proofs.Json.Doubles
import StatementPress.Proofs.Json.Fits
import StatementPress.Proofs.Template.TakenForUnknown

/-!
# How deep the value of a template is

A template is written no deeper than it was read: components of known kinds have a nesting of their
own, and an unknown component nests its fields as the value that it was decoded from.  So the value
of a template that was read from a text is never too deep to be read again, and its whole numbers
fit.
-/

namespace StatementPress

open Json

variable {room : Nat} {v : Json}

namespace Json

/-- Whether a value has no more than a given nesting, and its whole numbers fit. -/
structure FitsIn (room : Nat) (v : Json) : Prop where
  fits : v.Fits
  nesting : v.nesting ≤ room

theorem FitsIn.mono {room' : Nat} (h : v.FitsIn room) (hroom : room ≤ room') : v.FitsIn room' :=
  ⟨h.fits, h.nesting.trans hroom⟩

/-- An array takes one level of the room, and its items fit in the rest. -/
theorem fitsIn_array_iff {items : List Json} :
    FitsIn (room + 1) (array items) ↔ ∀ item ∈ items, FitsIn room item := by
  constructor
  · exact fun h item hitem =>
      ⟨fits_of_mem_array h.fits hitem, nesting_array_le_iff.mp h.nesting item hitem⟩
  · exact fun h => ⟨fitsItems_iff.mpr fun item hitem => (h item hitem).fits,
      nesting_array_le_iff.mpr fun item hitem => (h item hitem).nesting⟩

/-- An object takes one level of the room, and its members fit in the rest. -/
theorem fitsIn_object_iff {members : List (String × Json)} :
    FitsIn (room + 1) (object members) ↔ ∀ m ∈ members, FitsIn room m.2 := by
  constructor
  · exact fun h m hm =>
      ⟨fitsMembers_iff.mp h.fits m hm, nesting_object_le_iff.mp h.nesting m hm⟩
  · exact fun h => ⟨fitsMembers_iff.mpr fun m hm => (h m hm).fits,
      nesting_object_le_iff.mpr fun m hm => (h m hm).nesting⟩

@[simp] theorem fitsIn_string (s : String) : FitsIn room (string s) := ⟨trivial, Nat.zero_le room⟩

@[simp] theorem fitsIn_ofBinary64 (x : Binary64) : FitsIn room (ofBinary64 x) := by
  unfold ofBinary64
  split <;> exact ⟨trivial, Nat.zero_le room⟩

theorem fitsIn_ofNat {n : Nat} (h : n < 2 ^ 64) : FitsIn room (ofNat n) :=
  ⟨⟨by omega, by omega⟩, Nat.zero_le room⟩

@[simp] theorem fitsIn_ofCounter (n : UInt32) : FitsIn room (ofNat n.toNat) :=
  fitsIn_ofNat (n.toNat_lt.trans (by decide))

/-- Normalizing a value makes it neither deeper nor larger. -/
theorem FitsIn.normalize (h : v.FitsIn room) : v.normalize.FitsIn room :=
  ⟨fits_normalize h.fits, (nesting_normalize_le v).trans h.nesting⟩

/-- What a record has in a field is less deep than the record. -/
theorem FitsIn.field {names : List String} {field : String → Option Json} {name : String} {w : Json}
    (h : v.FitsIn (room + 1)) (hfield : v.fields? names = some field) (hw : field name = some w) :
    w.FitsIn room := by
  rw [eq_fieldOf_of_fields? hfield] at hw
  cases v with
  | object members => exact fitsIn_object_iff.mp h _ (mem_of_lookup hw)
  | array items => exact fitsIn_array_iff.mp h _ (List.of_mem_zip (mem_of_lookup hw)).2
  | _ => cases hw

/-- What a list is turned into comes from its items. -/
theorem exists_of_mem_mapM {α β : Type} {f : α → Option β} {as : List α} {bs : List β}
    (h : as.mapM f = some bs) : ∀ b ∈ bs, ∃ a ∈ as, f a = some b := by
  induction as generalizing bs with
  | nil =>
    cases h
    exact fun _ hb => nomatch hb
  | cons a as ih =>
    simp only [List.mapM_cons, Option.bind_eq_bind, Option.bind_eq_some_iff] at h
    obtain ⟨b, hb, rest, hrest, hbs⟩ := h
    cases hbs
    refine List.forall_mem_cons.mpr ⟨⟨a, List.mem_cons_self, hb⟩, fun c hc => ?_⟩
    obtain ⟨d, hd, hdc⟩ := ih hrest c hc
    exact ⟨d, List.mem_cons_of_mem a hd, hdc⟩

/-- What was decoded item by item came from the items of an array. -/
theorem FitsIn.list {α : Type} {decode : Json → Option α} {as : List α} (h : v.FitsIn (room + 1))
    (has : list? decode v = some as) : ∀ a ∈ as, ∃ w, w.FitsIn room ∧ decode w = some a := by
  cases v with
  | array items =>
    intro a ha
    obtain ⟨w, hw, hdecode⟩ := exists_of_mem_mapM has a ha
    exact ⟨w, fitsIn_array_iff.mp h w hw, hdecode⟩
  | _ => cases has

end Json

/-! ## Components -/

@[simp] theorem Position.fitsIn_toJson (p : Position) : p.toJson.FitsIn (room + 1) := by
  simp [toJson, fitsIn_object_iff]

@[simp] theorem Binding.fitsIn_toJson (b : Binding) : b.toJson.FitsIn (room + 1) := by
  simp [toJson, fitsIn_object_iff]

@[simp] theorem TextStyle.fitsIn_toJson (s : TextStyle) : s.toJson.FitsIn (room + 1) := by
  simp [toJson, fitsIn_object_iff]

@[simp] theorem TableColumn.fitsIn_toJson (c : TableColumn) : c.toJson.FitsIn (room + 2) := by
  simp [toJson, fitsIn_object_iff]

/-- A component of a known kind is nested four deep at most. -/
theorem Component.fitsIn_of_known {c : Component} (hc : ∀ u, c ≠ .unknown u) :
    c.toJson.FitsIn 4 := by
  have hframe : ∀ f : Frame, ∀ m ∈ f.toMembers, m.2.FitsIn 3 := by
    simp [Frame.toMembers]
  have hmembers : ∀ kind (f : Frame) others, (∀ m ∈ others, m.2.FitsIn 3) →
      (Json.object (("type", .string kind) :: (f.toMembers ++ others))).FitsIn 4 := by
    intro kind f others hothers
    rw [fitsIn_object_iff, List.forall_mem_cons, List.forall_mem_append]
    exact ⟨fitsIn_string kind, hframe f, hothers⟩
  cases c with
  | text c =>
    rw [toJson, TextComponent.toMembers, List.append_assoc, List.append_assoc]
    refine hmembers _ _ _ ?_
    cases c.content <;> cases c.binding <;> simp [memberOf]
  | table c =>
    refine hmembers _ _ _ ?_
    simp [fitsIn_array_iff]
  | unknown u => cases hc u rfl
  | _ =>
    refine hmembers _ _ _ ?_
    simp

/-- The fields of an unknown component nest as they did where they were decoded from. -/
theorem UnknownComponent.fitsIn_toJson {u : UnknownComponent} (h : ofJson? v = some u)
    (hv : v.FitsIn (room + 1)) : (Component.unknown u).toJson.FitsIn (room + 1) := by
  obtain ⟨members, rfl, hdecoded⟩ := u.decodedFrom_of_ofJson? h
  have hnormal := hv.normalize
  rw [Json.normalize, fitsIn_object_iff] at hnormal
  rw [Component.toJson, toMembers, fitsIn_object_iff, List.forall_mem_cons, List.forall_mem_cons]
  refine ⟨fitsIn_string _, fitsIn_string _, fun m hm => hnormal m ?_⟩
  rw [hdecoded.fields] at hm
  exact List.mem_of_mem_filter hm

/-- Decoding a component and encoding it again nests it no deeper. -/
theorem Component.fitsIn_toJson {c : Component} (h : ofJson? v = some c)
    (hv : v.FitsIn (room + 4)) : c.toJson.FitsIn (room + 4) := by
  by_cases hc : ∃ u, c = .unknown u
  · obtain ⟨u, rfl⟩ := hc
    exact UnknownComponent.fitsIn_toJson (ofJson?_eq_some_unknown h).2 hv
  · exact (fitsIn_of_known (not_exists.mp hc)).mono (Nat.le_add_left 4 room)

/-! ## Regions, pages, templates -/

theorem Region.fitsIn_toJson {r : Region} (h : ofJson? v = some r) (hv : v.FitsIn (room + 6)) :
    r.toJson.FitsIn (room + 6) := by
  simp only [ofJson?, Option.bind_eq_bind, Option.bind_eq_some_iff] at h
  obtain ⟨field, hfield, cs, hcs, hr⟩ := h
  cases hr
  rw [toJson, fitsIn_object_iff, List.forall_mem_singleton, fitsIn_array_iff, List.forall_mem_map]
  intro c hc
  cases hget : field "components" with
  | none =>
    rw [hget] at hcs
    cases hcs
    cases hc
  | some w =>
    rw [hget] at hcs
    obtain ⟨slot, hslot, hdecode⟩ := (hv.field hfield hget).list hcs c hc
    exact Component.fitsIn_toJson hdecode hslot

/-- Decoding a page and encoding it again nests it no deeper. -/
theorem Page.fitsIn_toJson {p : Page} (h : ofJson? v = some p) (hv : v.FitsIn (room + 7)) :
    p.toJson.FitsIn (room + 7) := by
  have hregion : ∀ {field : String → Option Json} {name r},
      v.fields? ["id", "pageNumber", "size", "header", "body", "footer"] = some field →
      required (field name) Region.ofJson? = some r → r.toJson.FitsIn (room + 6) := by
    intro field name r hfield hr
    obtain ⟨w, hw, hr⟩ := Option.bind_eq_some_iff.mp hr
    exact Region.fitsIn_toJson hr (hv.field hfield hw)
  simp only [ofJson?, Option.bind_eq_bind, Option.bind_eq_some_iff] at h
  obtain ⟨field, hfield, id, -, number, -, size, -, header, hheader, body, hbody, footer, hfooter,
    hp⟩ := h
  cases hp
  simp only [toJson, fitsIn_object_iff, List.forall_mem_cons, fitsIn_string, fitsIn_ofCounter,
    hregion hfield hheader, hregion hfield hbody, hregion hfield hfooter]
  simp

/-- **A template is written no deeper than it was read.** -/
theorem Template.fitsIn_toJson {t : Template} (h : ofJson? v = some t) (hv : v.FitsIn (room + 9)) :
    t.toJson.FitsIn (room + 9) := by
  simp only [ofJson?, Option.bind_eq_bind, Option.bind_eq_some_iff] at h
  obtain ⟨field, hfield, _, -, _, -, _, -, _, -, _, -, _, -, _, -, pages, hpages, _, -, _, -, ht⟩ :=
    h
  cases ht
  obtain ⟨w, hw, hpages⟩ := Option.bind_eq_some_iff.mp hpages
  have hpage : ∀ p ∈ pages, p.toJson.FitsIn (room + 7) := by
    intro p hp
    obtain ⟨w', hw', hdecode⟩ := (hv.field hfield hw).list hpages p hp
    exact Page.fitsIn_toJson hdecode hw'
  simp only [toJson, fitsIn_object_iff, fitsIn_array_iff, List.forall_mem_cons, List.forall_mem_map,
    fitsIn_string, fitsIn_ofCounter]
  simpa using hpage

end StatementPress
