import Mathlib.Order.MinMax
import StatementPress.Proofs.Json.Normal

/-!
# The doubles and the nesting of values

What a value holds that may be lost when it is written and read again: its doubles, which may be
read as others (`mapDoubles`), and arrays and objects too deep inside each other (`nesting`).
-/

namespace StatementPress.Json

mutual

/-- The doubles in a value, in order. -/
def doubles : Json → List Binary64
  | .number (.double x _) => [x]
  | .array items => itemsDoubles items
  | .object members => membersDoubles members
  | .number (.whole _) | .null | .bool _ | .string _ => []

/-- The doubles in the items of a list. -/
def itemsDoubles : List Json → List Binary64
  | [] => []
  | item :: rest => doubles item ++ itemsDoubles rest

/-- The doubles in the values of members. -/
def membersDoubles : List (String × Json) → List Binary64
  | [] => []
  | (_, v) :: rest => doubles v ++ membersDoubles rest

end

mutual

/-- A value with every double replaced. -/
def mapDoubles (f : Binary64 → Binary64) : Json → Json
  | .number (.double x _) => ofBinary64 (f x)
  | .array items => .array (mapItems f items)
  | .object members => .object (mapMembers f members)
  | .number (.whole i) => .number (.whole i)
  | .null => .null
  | .bool b => .bool b
  | .string s => .string s

/-- The items of a list with every double replaced. -/
def mapItems (f : Binary64 → Binary64) : List Json → List Json
  | [] => []
  | item :: rest => mapDoubles f item :: mapItems f rest

/-- Members with every double replaced. -/
def mapMembers (f : Binary64 → Binary64) : List (String × Json) → List (String × Json)
  | [] => []
  | (k, v) :: rest => (k, mapDoubles f v) :: mapMembers f rest

end

mutual

/-- How deep arrays and objects stand inside each other. -/
def nesting : Json → Nat
  | .array items => 1 + itemsNesting items
  | .object members => 1 + membersNesting members
  | .null | .bool _ | .number _ | .string _ => 0

/-- The deepest nesting among the items of a list. -/
def itemsNesting : List Json → Nat
  | [] => 0
  | item :: rest => max (nesting item) (itemsNesting rest)

/-- The deepest nesting among the values of members. -/
def membersNesting : List (String × Json) → Nat
  | [] => 0
  | (_, v) :: rest => max (nesting v) (membersNesting rest)

end

variable {f : Binary64 → Binary64} {items : List Json} {members : List (String × Json)} {n : Nat}

/-! ## Doubles -/

theorem itemsDoubles_eq (items : List Json) : itemsDoubles items = items.flatMap doubles := by
  induction items with
  | nil => rfl
  | cons item rest ih => rw [itemsDoubles, ih, List.flatMap_cons]

theorem membersDoubles_eq (members : List (String × Json)) :
    membersDoubles members = members.flatMap fun m => m.2.doubles := by
  induction members with
  | nil => rfl
  | cons m rest ih => rw [membersDoubles, ih, List.flatMap_cons]

theorem mapItems_eq (f : Binary64 → Binary64) (items : List Json) :
    mapItems f items = items.map (mapDoubles f) := by
  induction items with
  | nil => rfl
  | cons item rest ih => rw [mapItems, ih, List.map_cons]

theorem mapMembers_eq (f : Binary64 → Binary64) (members : List (String × Json)) :
    mapMembers f members = members.map fun m => (m.1, mapDoubles f m.2) := by
  induction members with
  | nil => rfl
  | cons m rest ih => rw [mapMembers, ih, List.map_cons]

/-- A finite double is encoded as itself. -/
theorem ofBinary64_eq_double_iff {x y : Binary64} (hx : x.isFinite = true) :
    ofBinary64 y = .number (.double x hx) ↔ y = x := by
  rw [ofBinary64]
  constructor
  · intro h
    split at h
    · cases h
      rfl
    · cases h
  · rintro rfl
    rw [dif_pos hx]

mutual

/-- **A value is as it was exactly if its doubles are.** -/
theorem mapDoubles_eq_self_iff : ∀ {v : Json}, v.mapDoubles f = v ↔ ∀ x ∈ v.doubles, f x = x
  | .number (.double x hx) => by
    rw [mapDoubles, ofBinary64_eq_double_iff, doubles, List.forall_mem_singleton]
  | .array items => by
    rw [mapDoubles, Json.array.injEq, doubles]
    exact mapItems_eq_self_iff
  | .object members => by
    rw [mapDoubles, Json.object.injEq, doubles]
    exact mapMembers_eq_self_iff
  | .number (.whole _) => iff_of_true rfl fun _ h => nomatch h
  | .null => iff_of_true rfl fun _ h => nomatch h
  | .bool _ => iff_of_true rfl fun _ h => nomatch h
  | .string _ => iff_of_true rfl fun _ h => nomatch h

theorem mapItems_eq_self_iff : ∀ {items : List Json},
    mapItems f items = items ↔ ∀ x ∈ itemsDoubles items, f x = x
  | [] => iff_of_true rfl fun _ h => nomatch h
  | item :: rest => by
    rw [mapItems, List.cons.injEq, itemsDoubles, List.forall_mem_append, mapDoubles_eq_self_iff,
      mapItems_eq_self_iff]

theorem mapMembers_eq_self_iff : ∀ {members : List (String × Json)},
    mapMembers f members = members ↔ ∀ x ∈ membersDoubles members, f x = x
  | [] => iff_of_true rfl fun _ h => nomatch h
  | (k, v) :: rest => by
    rw [mapMembers, List.cons.injEq, Prod.mk.injEq, membersDoubles, List.forall_mem_append,
      mapDoubles_eq_self_iff, mapMembers_eq_self_iff]
    simp

end

mutual

/-- All doubles of a value are finite. -/
theorem isFinite_of_mem_doubles : ∀ {v : Json} {x : Binary64}, x ∈ v.doubles → x.isFinite = true
  | .number (.double _ hfinite), _, h => List.mem_singleton.mp h ▸ hfinite
  | .array _, _, h => isFinite_of_mem_itemsDoubles h
  | .object _, _, h => isFinite_of_mem_membersDoubles h

theorem isFinite_of_mem_itemsDoubles : ∀ {items : List Json} {x : Binary64},
    x ∈ itemsDoubles items → x.isFinite = true
  | _ :: _, _, h => (List.mem_append.mp h).elim isFinite_of_mem_doubles isFinite_of_mem_itemsDoubles

theorem isFinite_of_mem_membersDoubles : ∀ {members : List (String × Json)} {x : Binary64},
    x ∈ membersDoubles members → x.isFinite = true
  | (_, _) :: _, _, h =>
    (List.mem_append.mp h).elim isFinite_of_mem_doubles isFinite_of_mem_membersDoubles

end

mutual

/-- Keys stay where they are. -/
theorem isNormal_mapDoubles : ∀ {v : Json}, v.IsNormal → (v.mapDoubles f).IsNormal
  | .number (.double x _), _ => by
    rw [mapDoubles, ofBinary64]
    split <;> trivial
  | .array _, h => by
    rw [mapDoubles, IsNormal]
    exact isNormalItems_mapItems h
  | .object members, h => by
    rw [mapDoubles, IsNormal]
    refine ⟨?_, isNormalMembers_mapMembers h.2⟩
    rw [mapMembers_eq, List.pairwise_map]
    exact h.1
  | .number (.whole _), _ => trivial
  | .null, _ => trivial
  | .bool _, _ => trivial
  | .string _, _ => trivial

theorem isNormalItems_mapItems : ∀ {items : List Json}, IsNormalItems items →
    IsNormalItems (mapItems f items)
  | [], _ => trivial
  | _ :: _, ⟨hitem, hrest⟩ => ⟨isNormal_mapDoubles hitem, isNormalItems_mapItems hrest⟩

theorem isNormalMembers_mapMembers : ∀ {members : List (String × Json)}, IsNormalMembers members →
    IsNormalMembers (mapMembers f members)
  | [], _ => trivial
  | (_, _) :: _, ⟨hv, hrest⟩ => ⟨isNormal_mapDoubles hv, isNormalMembers_mapMembers hrest⟩

end

/-! ## Nesting -/

theorem itemsNesting_le_iff : itemsNesting items ≤ n ↔ ∀ item ∈ items, item.nesting ≤ n := by
  induction items with
  | nil => simp [itemsNesting]
  | cons item rest ih => simp [itemsNesting, ih]

theorem membersNesting_le_iff : membersNesting members ≤ n ↔ ∀ m ∈ members, m.2.nesting ≤ n := by
  induction members with
  | nil => simp [membersNesting]
  | cons m rest ih => simp [membersNesting, ih]

/-- An array is nested one deeper than its items. -/
theorem nesting_array_le_iff :
    (array items).nesting ≤ n + 1 ↔ ∀ item ∈ items, item.nesting ≤ n := by
  rw [nesting, Nat.add_comm, Nat.add_le_add_iff_right, itemsNesting_le_iff]

/-- An object is nested one deeper than its members. -/
theorem nesting_object_le_iff :
    (object members).nesting ≤ n + 1 ↔ ∀ m ∈ members, m.2.nesting ≤ n := by
  rw [nesting, Nat.add_comm, Nat.add_le_add_iff_right, membersNesting_le_iff]

mutual

/-- Normalizing makes no value deeper. -/
theorem nesting_normalize_le : ∀ v : Json, v.normalize.nesting ≤ v.nesting
  | .array items => by
    rw [normalize, nesting, nesting]
    exact Nat.add_le_add_left (itemsNesting_normalizeItems_le items) 1
  | .object members => by
    rw [normalize, nesting, nesting]
    refine Nat.add_le_add_left (membersNesting_le_iff.mpr fun m hm => ?_) 1
    exact membersNesting_le_iff.mp (membersNesting_normalizeMembers_le members) m
      (mem_of_mem_sortMembers hm)
  | .null => le_rfl
  | .bool _ => le_rfl
  | .number _ => le_rfl
  | .string _ => le_rfl

theorem itemsNesting_normalizeItems_le : ∀ items : List Json,
    itemsNesting (normalizeItems items) ≤ itemsNesting items
  | [] => le_rfl
  | item :: rest => max_le_max (nesting_normalize_le item) (itemsNesting_normalizeItems_le rest)

theorem membersNesting_normalizeMembers_le : ∀ members : List (String × Json),
    membersNesting (normalizeMembers members) ≤ membersNesting members
  | [] => le_rfl
  | (_, v) :: rest => max_le_max (nesting_normalize_le v) (membersNesting_normalizeMembers_le rest)

end

end StatementPress.Json
