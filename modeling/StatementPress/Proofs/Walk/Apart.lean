import Mathlib
import StatementPress.Proofs.Walk.Names

/-!
# Places that differ

Every event of a walk has one place at most where it is reported, or would be if it repeats something
(`places`), and findings come up at these places only (`paths_sublist_places`).  So the findings of a
walk are at different places if the places of its events differ.

Places are texts.  A place inside another one goes on from it with a dot or a bracket (`IsBelow`), and
keys that hold neither tell places apart: what is at or inside one member of an object is at or inside
no other one, and the same of the items of an array.  `Stays` and `Uses` say of events that their
places differ and where they are, and there is a rule for each way in which the walk is put together.
-/

namespace StatementPress

open Finding (join item)

/-- The place where an event is reported, if it is a finding or becomes one. -/
def Event.place? : Event → Option String
  | .finding f => some f.path
  | .componentId _ path => some (join path "id")
  | .pageNumber _ path => some (join path "pageNumber")
  | .unknownKind _ _ => none

namespace Walk

variable {xs ys events earlier : List Event} {base inner path key key' : String}

/-- The places of events. -/
def places (events : List Event) : List String := events.filterMap Event.place?

@[simp] theorem places_nil : places [] = [] := rfl

@[simp] theorem places_append (xs ys : List Event) : places (xs ++ ys) = places xs ++ places ys :=
  List.filterMap_append

/-- A finding lies at the place of the event that it comes from. -/
theorem place?_of_finding? {e : Event} {f : Finding} (h : finding? earlier e = some f) :
    e.place? = some f.path := by
  cases e with
  | finding g =>
    cases h
    rfl
  | componentId id path =>
    obtain ⟨first, -, rfl⟩ := Option.map_eq_some_iff.mp h
    rfl
  | pageNumber n path =>
    obtain ⟨first, -, rfl⟩ := Option.map_eq_some_iff.mp h
    rfl
  | unknownKind kind path => cases h

/-- **Findings come up at the places of events**, in their order. -/
theorem paths_sublist_places (earlier events : List Event) :
    ((findingsAfter earlier events).map (·.path)).Sublist (places events) := by
  induction events generalizing earlier with
  | nil => exact List.Sublist.refl _
  | cons e rest ih =>
    have hplaces : places (e :: rest) = e.place?.toList ++ places rest := by
      rw [places, List.filterMap_cons]
      cases e.place? <;> rfl
    rw [findingsAfter, List.map_append, hplaces]
    refine List.Sublist.append ?_ (ih _)
    cases hfinding : finding? earlier e with
    | none => exact List.nil_sublist _
    | some f =>
      rw [place?_of_finding? hfinding]
      exact List.Sublist.refl _

/-! ## Places inside each other -/

/-- Whether a text after a place leads into it, or is empty. -/
def LeadsInto (tail : List Char) : Prop := ∀ c ∈ tail.head?, c = '.' ∨ c = '['

/-- A way on may be followed by another one. -/
theorem leadsInto_append {tail rest : List Char} (h : LeadsInto tail) (hrest : LeadsInto rest) :
    LeadsInto (tail ++ rest) := by
  cases tail with
  | nil => exact hrest
  | cons c tail => exact h

/-- Whether a place is at another one or inside it.  Every place is inside the template as a whole. -/
def IsBelow (base path : String) : Prop :=
  base = "" ∨ ∃ tail, path.toList = base.toList ++ tail ∧ LeadsInto tail

theorem isBelow_refl (path : String) : IsBelow path path := by
  refine .inr ⟨[], (List.append_nil _).symm, ?_⟩
  intro c hc
  cases hc

/-- What is below something below is below. -/
theorem IsBelow.trans (h : IsBelow base inner) (h' : IsBelow inner path) : IsBelow base path := by
  rcases h with rfl | ⟨tail, hinner, htail⟩
  · exact .inl rfl
  · rcases h' with rfl | ⟨rest, hpath, hrest⟩
    · obtain ⟨hbase, -⟩ := List.append_eq_nil_iff.mp hinner.symm
      exact .inl (String.toList_eq_nil_iff.mp hbase)
    · refine .inr ⟨tail ++ rest, ?_, leadsInto_append htail hrest⟩
      rw [hpath, hinner, List.append_assoc]

/-- What stands in front of the keys of the members of the object at a place. -/
def stem (base : String) : List Char := if base = "" then [] else base.toList ++ ['.']

theorem toList_join (base key : String) : (join base key).toList = stem base ++ key.toList := by
  unfold join stem
  by_cases hbase : base = ""
  · simp [hbase]
  · simp [hbase]

/-- The text of an item is that of the array with the index in brackets. -/
theorem toList_item (base : String) (i : Nat) :
    (item base i).toList = base.toList ++ '[' :: (Nat.toDigits 10 i ++ [']']) := by
  simp [item, Text.decimal]

/-- A member lies below its object. -/
theorem isBelow_join (base key : String) : IsBelow base (join base key) := by
  by_cases hbase : base = ""
  · exact .inl hbase
  · refine .inr ⟨'.' :: key.toList, ?_, ?_⟩
    · rw [toList_join, stem, if_neg hbase, List.append_assoc]
      rfl
    · rintro c ⟨⟩
      exact .inl rfl

/-- An item lies below its array. -/
theorem isBelow_item (base : String) (i : Nat) : IsBelow base (item base i) := by
  refine .inr ⟨_, toList_item base i, ?_⟩
  rintro c ⟨⟩
  exact .inr rfl

theorem isBelow_components (base : String) : IsBelow base (base ++ ".components") := by
  refine .inr ⟨".components".toList, String.toList_append, ?_⟩
  rintro c ⟨⟩
  exact .inl rfl

/-- A key that can be told from what follows it in a place. -/
def IsPlainKey (key : String) : Prop := key ≠ "" ∧ '.' ∉ key.toList ∧ '[' ∉ key.toList

instance : DecidablePred IsPlainKey := fun key =>
  inferInstanceAs (Decidable (key ≠ "" ∧ '.' ∉ key.toList ∧ '[' ∉ key.toList))

/-- Characters up to one that is none of them. -/
theorem takeWhile_append_of_head? {p : Char → Bool} {cs tail : List Char} (hcs : ∀ c ∈ cs, p c = true)
    (htail : ∀ c ∈ tail.head?, p c = false) : (cs ++ tail).takeWhile p = cs := by
  rw [List.takeWhile_append_of_pos hcs]
  cases tail with
  | nil => rw [List.takeWhile_nil, List.append_nil]
  | cons c tail => rw [List.takeWhile_cons_of_neg (by simp [htail c rfl]), List.append_nil]

/-- What is at or inside a member, with the key of the member read off. -/
theorem key_of_isBelow (hkey : IsPlainKey key) (h : IsBelow (join base key) path) :
    ((path.toList.drop (stem base).length).takeWhile fun c => c ≠ '.' && c ≠ '[') = key.toList := by
  rcases h with hempty | ⟨tail, hpath, htail⟩
  · exact absurd hempty (join_ne_empty base hkey.1)
  · rw [hpath, toList_join, List.append_assoc, List.drop_left]
    refine takeWhile_append_of_head? (fun c hc => ?_) fun c hc => ?_
    · obtain ⟨-, hdot, hbracket⟩ := hkey
      have hne : c ≠ '.' := fun heq => hdot (heq ▸ hc)
      have hne' : c ≠ '[' := fun heq => hbracket (heq ▸ hc)
      simp [hne, hne']
    · rcases htail c hc with rfl | rfl <;> decide

/-- **Nothing is at or inside two members of an object.** -/
theorem key_eq_of_isBelow (hkey : IsPlainKey key) (hkey' : IsPlainKey key')
    (h : IsBelow (join base key) path) (h' : IsBelow (join base key') path) : key = key' := by
  apply String.toList_injective
  rw [← key_of_isBelow hkey h, ← key_of_isBelow hkey' h']

/-- What is at or inside an item, with the digits of its index read off. -/
theorem index_of_isBelow {i : Nat} (h : IsBelow (item base i) path) :
    (path.toList.drop (base.toList.length + 1)).takeWhile Char.isDigit = Nat.toDigits 10 i := by
  rcases h with hempty | ⟨tail, hpath, -⟩
  · have hlist := congrArg String.toList hempty
    simp [toList_item] at hlist
  · rw [hpath, toList_item, List.append_assoc, ← List.drop_drop, List.drop_left, List.cons_append,
      List.drop_one, List.tail_cons, List.append_assoc]
    refine takeWhile_append_of_head? (fun c hc => ?_) fun c hc => ?_
    · exact Nat.isDigit_of_mem_toDigits (by decide) (by decide) hc
    · cases hc
      decide

/-- **Nothing is at or inside two items of an array.** -/
theorem index_eq_of_isBelow {i j : Nat} (h : IsBelow (item base i) path)
    (h' : IsBelow (item base j) path) : i = j := by
  have hdigits : Nat.toDigits 10 i = Nat.toDigits 10 j := by
    rw [← index_of_isBelow h, ← index_of_isBelow h']
  rw [← Nat.ofDigitChars_ten_toDigits (n := i), hdigits, Nat.ofDigitChars_ten_toDigits]

/-! ## Events at different places -/

/-- Whether the places of events differ, and all of them are at a place or inside it. -/
structure Stays (base : String) (events : List Event) : Prop where
  nodup : (places events).Nodup
  below : ∀ path ∈ places events, IsBelow base path

/-- Whether the places of events differ, and all of them are at members with given keys or inside. -/
structure Uses (base : String) (keys : List String) (events : List Event) : Prop where
  plain : ∀ key ∈ keys, IsPlainKey key
  nodup : (places events).Nodup
  below : ∀ path ∈ places events, ∃ key ∈ keys, IsBelow (join base key) path

variable {keys keys' : List String}

/-- What reports at some keys of a place stays below the place. -/
theorem Uses.stays (h : Uses base keys events) : Stays base events := by
  refine ⟨h.nodup, fun path hpath => ?_⟩
  obtain ⟨key, -, hbelow⟩ := h.below path hpath
  exact (isBelow_join base key).trans hbelow

/-- What stays below a key uses the key. -/
theorem Stays.uses (h : Stays (join base key) events) (hkey : IsPlainKey key) :
    Uses base [key] events where
  plain := List.forall_mem_singleton.mpr hkey
  nodup := h.nodup
  below path hpath := ⟨key, List.mem_cons_self, h.below path hpath⟩

/-- What stays further down stays here. -/
theorem Stays.mono (h : Stays inner events) (hinner : IsBelow base inner) : Stays base events where
  nodup := h.nodup
  below path hpath := hinner.trans (h.below path hpath)

/-- More keys may be set aside than are used. -/
theorem Uses.mono (h : Uses base keys events) (hkeys : keys ⊆ keys')
    (hplain : ∀ key ∈ keys', IsPlainKey key) : Uses base keys' events := by
  refine ⟨hplain, h.nodup, fun path hpath => ?_⟩
  obtain ⟨key, hkey, hbelow⟩ := h.below path hpath
  exact ⟨key, hkeys hkey, hbelow⟩

/-- **Events at members with different keys are at different places.** -/
theorem Uses.append (h : Uses base keys xs) (h' : Uses base keys' ys)
    (hkeys : ∀ key ∈ keys, key ∉ keys') : Uses base (keys ++ keys') (xs ++ ys) := by
  refine ⟨List.forall_mem_append.mpr ⟨h.plain, h'.plain⟩, ?_, ?_⟩
  · rw [places_append, List.nodup_append]
    refine ⟨h.nodup, h'.nodup, ?_⟩
    rintro path hpath _ hpath' rfl
    obtain ⟨key, hkey, hbelow⟩ := h.below path hpath
    obtain ⟨key', hkey', hbelow'⟩ := h'.below path hpath'
    obtain rfl := key_eq_of_isBelow (h.plain key hkey) (h'.plain key' hkey') hbelow hbelow'
    exact hkeys key hkey hkey'
  · intro path hpath
    rw [places_append] at hpath
    rcases List.mem_append.mp hpath with hpath | hpath
    · obtain ⟨key, hkey, hbelow⟩ := h.below path hpath
      exact ⟨key, List.mem_append_left _ hkey, hbelow⟩
    · obtain ⟨key, hkey, hbelow⟩ := h'.below path hpath
      exact ⟨key, List.mem_append_right _ hkey, hbelow⟩

theorem stays_nil (base : String) : Stays base [] where
  nodup := List.nodup_nil
  below := List.forall_mem_nil _

/-- Events that are at no place use no key. -/
theorem uses_of_places_eq_nil (base : String) (h : places events = []) : Uses base [] events := by
  refine ⟨List.forall_mem_nil _, ?_, ?_⟩
  · rw [h]
    exact List.nodup_nil
  · rw [h]
    exact List.forall_mem_nil _

theorem stays_singleton {e : Event} (h : e.place? = some path) : Stays path [e] := by
  have hplaces : places [e] = [path] := by
    rw [places, List.filterMap_cons, h]
    rfl
  refine ⟨?_, ?_⟩
  · rw [hplaces]
    exact List.nodup_singleton path
  · rw [hplaces]
    exact List.forall_mem_singleton.mpr (isBelow_refl path)

theorem stays_report (path : String) (fault : Option String) : Stays path (report path fault) := by
  cases fault with
  | none => exact stays_nil path
  | some reason => exact stays_singleton rfl

/-- The check of a field uses the key of the field. -/
theorem uses_field (hkey : IsPlainKey key) (obj : Json) (rule : Rule) :
    Uses base [key] (field obj base key rule) := (stays_report _ _).uses hkey

/-- **The checks of fields with different keys are at different places.** -/
theorem uses_fields (obj : Json) (base : String) {fields : List (String × Rule)}
    (hplain : ∀ f ∈ fields, IsPlainKey f.1) (hkeys : (fields.map (·.1)).Nodup) :
    Uses base (fields.map (·.1)) (fields.flatMap fun f => field obj base f.1 f.2) := by
  induction fields with
  | nil => exact uses_of_places_eq_nil base rfl
  | cons f rest ih =>
    obtain ⟨hf, hrest⟩ := List.forall_mem_cons.mp hplain
    obtain ⟨hnew, hrestKeys⟩ := List.nodup_cons.mp hkeys
    exact (uses_field hf obj f.2).append (ih hrest hrestKeys) (List.forall_mem_singleton.mpr hnew)

/-- What is reported of an object stays below it, and a value that is none is reported at its place.
-/
theorem stays_object {inside : Json → List Event} {value : Option Json}
    (h : ∀ members, value = some (.object members) → Stays path (inside (.object members))) :
    Stays path (object value path inside) := by
  rcases value with _ | v
  · exact stays_report path (some "is required")
  · cases v with
    | object members => exact h members rfl
    | _ => exact stays_report path (some "must be an object")

/-- **Events at different items of an array are at different places.** -/
theorem stays_items {visit : Json → String → List Event} {values : List Json}
    (h : ∀ v ∈ values, ∀ path, Stays path (visit v path)) (path : String) (i : Nat) :
    Stays path (items visit path i values) := by
  -- the items that are left have higher indices
  suffices hfrom : (places (items visit path i values)).Nodup ∧
      ∀ place ∈ places (items visit path i values), ∃ j, i ≤ j ∧ IsBelow (item path j) place by
    obtain ⟨hnodup, hbelow⟩ := hfrom
    refine ⟨hnodup, fun place hplace => ?_⟩
    obtain ⟨j, -, hj⟩ := hbelow place hplace
    exact (isBelow_item path j).trans hj
  induction values generalizing i with
  | nil => exact ⟨List.nodup_nil, List.forall_mem_nil _⟩
  | cons v rest ih =>
    obtain ⟨hv, hrest⟩ := List.forall_mem_cons.mp h
    obtain ⟨hnodup, hbelow⟩ := ih hrest (i + 1)
    have hfirst := hv (item path i)
    rw [items, places_append, List.nodup_append]
    refine ⟨⟨hfirst.nodup, hnodup, ?_⟩, ?_⟩
    · rintro place hplace _ hplace' rfl
      obtain ⟨j, hj, hbelow'⟩ := hbelow place hplace'
      have hindex := index_eq_of_isBelow (hfirst.below place hplace) hbelow'
      omega
    · intro place hplace
      rcases List.mem_append.mp hplace with hplace | hplace
      · exact ⟨i, Nat.le_refl i, hfirst.below place hplace⟩
      · obtain ⟨j, hj, hbelow'⟩ := hbelow place hplace
        exact ⟨j, by omega, hbelow'⟩

end Walk

end StatementPress
