import StatementPress.Json.Decode

/-!
# Normal values

In a normal value no object has a key twice, so a member is found under its key however it is looked
for, and a record can be decoded from any object.  `normalize` gives a normal value; it keeps the last
member of each key, which is the only one where the key does not repeat.
-/

namespace StatementPress.Json

/-! ## Parts of normal values -/

theorem isNormalItems_iff {items : List Json} :
    IsNormalItems items ↔ ∀ item ∈ items, item.IsNormal := by
  induction items with
  | nil => simp [IsNormalItems]
  | cons item rest ih => simp [IsNormalItems, ih]

theorem isNormalMembers_iff {members : List (String × Json)} :
    IsNormalMembers members ↔ ∀ m ∈ members, m.2.IsNormal := by
  induction members with
  | nil => simp [IsNormalMembers]
  | cons m rest ih => simp [IsNormalMembers, ih]

theorem isNormal_object_iff {members : List (String × Json)} :
    (object members).IsNormal ↔
      members.Pairwise (fun a b => a.1 < b.1) ∧ ∀ m ∈ members, m.2.IsNormal := by
  rw [IsNormal, isNormalMembers_iff]

theorem isNormal_of_mem_array {items : List Json} {v : Json} (h : (array items).IsNormal)
    (hv : v ∈ items) : v.IsNormal := isNormalItems_iff.mp h v hv

/-- What is found under a key is a member. -/
theorem mem_of_lookup {members : List (String × Json)} {key : String} {v : Json}
    (h : members.lookup key = some v) : (key, v) ∈ members := by
  induction members with
  | nil => cases h
  | cons m rest ih =>
    rw [List.lookup_cons] at h
    by_cases hkey : key = m.1
    · subst hkey
      simp at h
      subst h
      exact List.mem_cons_self
    · rw [beq_eq_false_iff_ne.mpr hkey] at h
      exact List.mem_cons_of_mem m (ih h)

/-- A member of a normal value is normal. -/
theorem isNormal_of_get? {obj v : Json} {key : String} (h : obj.IsNormal)
    (hv : obj.get? key = some v) : v.IsNormal := by
  cases obj with
  | object members => exact (isNormal_object_iff.mp h).2 _ (mem_of_lookup hv)
  | _ => cases hv

/-- What is left of a member when members are chosen by their keys. -/
theorem lookup_filter (p : String → Bool) (members : List (String × Json)) (key : String) :
    (members.filter fun m => p m.1).lookup key = if p key then members.lookup key else none := by
  induction members with
  | nil => simp
  | cons m rest ih =>
    rw [List.lookup_cons, List.filter_cons]
    by_cases hp : p m.1 = true
    · rw [if_pos hp, List.lookup_cons, ih]
      by_cases hkey : key = m.1
      · simp [hkey, hp]
      · rw [beq_eq_false_iff_ne.mpr hkey]
    · rw [if_neg hp, ih]
      by_cases hkey : key = m.1
      · simp [hkey, hp]
      · rw [beq_eq_false_iff_ne.mpr hkey]

/-- Looking a key up gives the first member with it. -/
theorem lookup_eq_head?_filter (members : List (String × Json)) (key : String) :
    members.lookup key = (members.filter (·.1 == key)).head?.map (·.2) := by
  induction members with
  | nil => rfl
  | cons m rest ih =>
    rw [List.lookup_cons]
    by_cases hkey : key = m.1
    · simp [hkey]
    · have hne : m.1 ≠ key := fun h => hkey h.symm
      rw [beq_eq_false_iff_ne.mpr hkey, List.filter_cons_of_neg (by simpa using hne)]
      exact ih

/-! ## Keys -/

/-- How often a key occurs in an object. -/
def count (key : String) : Json → Nat
  | .object members => members.countP (·.1 == key)
  | _ => 0

theorem countP_le_one_of_pairwise {members : List (String × Json)}
    (h : members.Pairwise fun a b => a.1 < b.1) (key : String) :
    members.countP (·.1 == key) ≤ 1 := by
  induction members with
  | nil => simp
  | cons m rest ih =>
    obtain ⟨hm, hrest⟩ := List.pairwise_cons.mp h
    by_cases hkey : m.1 = key
    · have hnone : rest.countP (·.1 == key) = 0 := by
        refine List.countP_eq_zero.mpr fun n hn => ?_
        have hlt : key < n.1 := hkey ▸ hm n hn
        rw [beq_iff_eq]
        rintro rfl
        exact String.lt_irrefl _ hlt
      rw [List.countP_cons, hnone]
      split <;> omega
    · rw [List.countP_cons_of_neg (by simpa using hkey)]
      exact ih hrest

/-- No key occurs twice in a value in normal form. -/
theorem count_le_one_of_isNormal {v : Json} (h : v.IsNormal) (key : String) : v.count key ≤ 1 := by
  cases v with
  | object members => exact countP_le_one_of_pairwise (isNormal_object_iff.mp h).1 key
  | _ => exact Nat.zero_le 1

/-- A record can be decoded from a normal object. -/
theorem fields?_of_isNormal {members : List (String × Json)} (h : (object members).IsNormal)
    (names : List String) :
    (object members).fields? names = some fun name => (object members).get? name := by
  have hcount : (names.any fun name => decide (1 < members.countP (·.1 == name))) = false := by
    refine List.any_eq_false.mpr fun name _ => ?_
    have hle := count_le_one_of_isNormal h name
    rw [count] at hle
    simpa using hle
  rw [fields?, hcount]
  rfl

/-! ## Sorting members -/

/-- What is put in place of a key is found there, and everything else as before. -/
theorem lookup_insertMember (key k : String) (v : Json) (members : List (String × Json)) :
    (insertMember key v members).lookup k = if k = key then some v else members.lookup k := by
  induction members with
  | nil =>
    by_cases h : k = key
    · simp [insertMember, h]
    · simp [insertMember, h, List.lookup_cons, beq_eq_false_iff_ne.mpr h]
  | cons m rest ih =>
    rw [insertMember]
    split
    · by_cases h : k = key
      · simp [h]
      · rw [List.lookup_cons, beq_eq_false_iff_ne.mpr h, if_neg h]
    · split
      · rename_i heq
        by_cases h : k = key
        · simp [h]
        · rw [List.lookup_cons, List.lookup_cons, ← heq, beq_eq_false_iff_ne.mpr h, if_neg h]
      · rename_i hne
        rw [List.lookup_cons, List.lookup_cons, ih]
        by_cases h : k = m.1
        · have hk : k ≠ key := fun hk => hne (hk ▸ h)
          simp [h ▸ hk, h]
        · rw [beq_eq_false_iff_ne.mpr h]

theorem mem_insertMember {key : String} {v : Json} {members : List (String × Json)}
    {m : String × Json} (h : m ∈ insertMember key v members) : m = (key, v) ∨ m ∈ members := by
  induction members with
  | nil => exact .inl (List.mem_singleton.mp h)
  | cons n rest ih =>
    rw [insertMember] at h
    split at h
    · exact List.mem_cons.mp h
    · split at h
      · exact (List.mem_cons.mp h).imp_right (List.mem_cons_of_mem n)
      · rcases List.mem_cons.mp h with rfl | h
        · exact .inr List.mem_cons_self
        · exact (ih h).imp_right (List.mem_cons_of_mem n)

/-- Inserting a member keeps the keys in ascending order. -/
theorem pairwise_insertMember {members : List (String × Json)}
    (h : members.Pairwise fun a b => a.1 < b.1) (key : String) (v : Json) :
    (insertMember key v members).Pairwise fun a b => a.1 < b.1 := by
  induction members with
  | nil => simp [insertMember]
  | cons m rest ih =>
    obtain ⟨hm, hrest⟩ := List.pairwise_cons.mp h
    rw [insertMember]
    split
    · rename_i hlt
      refine List.pairwise_cons.mpr ⟨fun n hn => ?_, h⟩
      rcases List.mem_cons.mp hn with rfl | hn
      · exact hlt
      · exact String.lt_trans hlt (hm n hn)
    · split
      · rename_i heq
        exact List.pairwise_cons.mpr ⟨fun n hn => heq ▸ hm n hn, hrest⟩
      · rename_i hnot hne
        refine List.pairwise_cons.mpr ⟨fun n hn => ?_, ih hrest⟩
        rcases mem_insertMember hn with rfl | hn
        · exact String.not_le.mp fun hle => hne (String.le_antisymm hle (String.not_lt.mp hnot))
        · exact hm n hn

/-- Every step of sorting keeps what holds of all members and the order. -/
theorem foldl_insertMember {P : String × Json → Prop} {members sorted : List (String × Json)}
    (hP : ∀ m ∈ members, P m) (hsorted : sorted.Pairwise fun a b => a.1 < b.1)
    (hsortedP : ∀ m ∈ sorted, P m) :
    (members.foldl (fun sorted m => insertMember m.1 m.2 sorted) sorted).Pairwise
        (fun a b => a.1 < b.1) ∧
      ∀ m ∈ members.foldl (fun sorted m => insertMember m.1 m.2 sorted) sorted, P m := by
  induction members generalizing sorted with
  | nil => exact ⟨hsorted, hsortedP⟩
  | cons m rest ih =>
    refine ih (fun n hn => hP n (List.mem_cons_of_mem m hn)) (pairwise_insertMember hsorted _ _) ?_
    intro n hn
    rcases mem_insertMember hn with rfl | hn
    · exact hP m List.mem_cons_self
    · exact hsortedP n hn

/-- Of several members under one key the last one is kept. -/
theorem lookup_foldl_insertMember (key : String) (members sorted : List (String × Json)) :
    (members.foldl (fun sorted m => insertMember m.1 m.2 sorted) sorted).lookup key =
      (members.reverse.lookup key).or (sorted.lookup key) := by
  induction members generalizing sorted with
  | nil => rfl
  | cons m rest ih =>
    rw [List.foldl_cons, ih, lookup_insertMember, List.reverse_cons, List.lookup_append,
      List.lookup_cons]
    by_cases h : key = m.1
    · simp [h]
    · simp [h, beq_eq_false_iff_ne.mpr h]

/-- **Sorting keeps the last member of each key.** -/
theorem lookup_sortMembers (key : String) (members : List (String × Json)) :
    (sortMembers members).lookup key = members.reverse.lookup key := by
  rw [sortMembers, lookup_foldl_insertMember]
  simp

/-- Sorted members have ascending keys. -/
theorem pairwise_sortMembers (members : List (String × Json)) :
    (sortMembers members).Pairwise fun a b => a.1 < b.1 :=
  (foldl_insertMember (P := fun _ => True) (fun _ _ => trivial) .nil (fun _ _ => trivial)).1

theorem mem_of_mem_sortMembers {members : List (String × Json)} {m : String × Json}
    (h : m ∈ sortMembers members) : m ∈ members :=
  (foldl_insertMember (P := (· ∈ members)) (fun _ hm => hm) .nil (fun _ hm => nomatch hm)).2 m h

/-- The last member of a key is the first if there is only one. -/
theorem lookup_reverse {key : String} {members : List (String × Json)}
    (h : members.countP (·.1 == key) ≤ 1) : members.reverse.lookup key = members.lookup key := by
  induction members with
  | nil => rfl
  | cons m rest ih =>
    rw [List.reverse_cons, List.lookup_append, List.lookup_cons, List.lookup_cons]
    by_cases hkey : key = m.1
    · subst hkey
      have hrest : rest.countP (·.1 == m.1) = 0 := by
        rw [List.countP_cons_of_pos (by simp)] at h
        omega
      have hnone : rest.reverse.lookup m.1 = none := by
        rw [List.lookup_eq_none_iff]
        intro n hn
        have hne := List.countP_eq_zero.mp hrest n (List.mem_reverse.mp hn)
        rw [bne_iff_ne]
        exact fun heq => hne (by rw [heq, beq_self_eq_true])
      simp [hnone]
    · rw [List.countP_cons_of_neg (by simpa using fun h => hkey h.symm)] at h
      rw [beq_eq_false_iff_ne.mpr hkey, ih h]
      simp

/-- A key below all others is not there. -/
theorem lookup_eq_none_of_lt {key : String} {members : List (String × Json)}
    (h : ∀ m ∈ members, key < m.1) : members.lookup key = none := by
  rw [List.lookup_eq_none_iff]
  intro m hm
  rw [bne_iff_ne]
  rintro rfl
  exact String.lt_irrefl _ (h m hm)

/-- The first keys of sorted members with the same lookups do not come in order. -/
theorem not_lt_of_lookup_eq {m n : String × Json} {xs ys : List (String × Json)}
    (hy : (n :: ys).Pairwise fun a b => a.1 < b.1)
    (h : ((m :: xs).lookup m.1 : Option Json) = (n :: ys).lookup m.1) : ¬ m.1 < n.1 := by
  intro hlt
  have hnone : (n :: ys).lookup m.1 = none := by
    refine lookup_eq_none_of_lt fun k hk => ?_
    rcases List.mem_cons.mp hk with rfl | hk
    · exact hlt
    · exact String.lt_trans hlt ((List.pairwise_cons.mp hy).1 k hk)
  rw [hnone, List.lookup_cons, beq_self_eq_true] at h
  cases h

/-- Sorted members are determined by what stands under each key. -/
theorem eq_of_lookup_eq {xs ys : List (String × Json)} (hx : xs.Pairwise fun a b => a.1 < b.1)
    (hy : ys.Pairwise fun a b => a.1 < b.1) (h : ∀ key, xs.lookup key = ys.lookup key) :
    xs = ys := by
  induction xs generalizing ys with
  | nil =>
    cases ys with
    | nil => rfl
    | cons n ys =>
      have hn := h n.1
      rw [List.lookup_cons, beq_self_eq_true] at hn
      cases hn
  | cons m xs ih =>
    cases ys with
    | nil =>
      have hm := h m.1
      rw [List.lookup_cons, beq_self_eq_true] at hm
      cases hm
    | cons n ys =>
      -- the smaller of two different first keys would be missing on the other side
      have hkey : m.1 = n.1 := String.le_antisymm
        (String.not_lt.mp (not_lt_of_lookup_eq hx (h n.1).symm))
        (String.not_lt.mp (not_lt_of_lookup_eq hy (h m.1)))
      have hvalue : m.2 = n.2 := by
        have hm := h m.1
        rw [List.lookup_cons, List.lookup_cons, hkey, beq_self_eq_true] at hm
        exact Option.some.inj hm
      obtain ⟨hmx, hxs⟩ := List.pairwise_cons.mp hx
      obtain ⟨hny, hys⟩ := List.pairwise_cons.mp hy
      -- below the first key nothing changes, and at it both tails have nothing
      have htails : ∀ key, xs.lookup key = ys.lookup key := by
        intro key
        by_cases hk : key = m.1
        · subst hk
          rw [lookup_eq_none_of_lt hmx, hkey, lookup_eq_none_of_lt hny]
        · have hlookup := h key
          rwa [List.lookup_cons, List.lookup_cons, ← hkey, beq_eq_false_iff_ne.mpr hk] at hlookup
      rw [ih hxs hys htails, Prod.ext hkey hvalue]

/-! ## Normalizing -/

theorem normalizeItems_eq_map (items : List Json) : normalizeItems items = items.map normalize := by
  induction items with
  | nil => rfl
  | cons item rest ih => rw [normalizeItems, ih, List.map_cons]

theorem normalizeMembers_eq_map (members : List (String × Json)) :
    normalizeMembers members = members.map fun m => (m.1, m.2.normalize) := by
  induction members with
  | nil => rfl
  | cons m rest ih => rw [normalizeMembers, ih, List.map_cons]

/-- Under each key stands what stood there, in normal form. -/
theorem lookup_normalizeMembers (key : String) (members : List (String × Json)) :
    (normalizeMembers members).lookup key = (members.lookup key).map normalize := by
  induction members with
  | nil => rfl
  | cons m rest ih =>
    rw [normalizeMembers, List.lookup_cons, List.lookup_cons, ih]
    cases key == m.1 <;> rfl

/-- What stands under a key of a normalized object: the last member there, normalized. -/
theorem lookup_normalize (key : String) (members : List (String × Json)) :
    (sortMembers (normalizeMembers members)).lookup key =
      (members.reverse.lookup key).map normalize := by
  rw [lookup_sortMembers, normalizeMembers_eq_map, ← List.map_reverse, ← normalizeMembers_eq_map,
    lookup_normalizeMembers]

/-- Members chosen by their keys are normalized as they are among all members. -/
theorem sortMembers_filter (p : String → Bool) (members : List (String × Json)) :
    (sortMembers (normalizeMembers members)).filter (fun m => p m.1) =
      sortMembers (normalizeMembers (members.filter fun m => p m.1)) := by
  refine eq_of_lookup_eq ((pairwise_sortMembers _).filter _) (pairwise_sortMembers _) fun key => ?_
  rw [lookup_filter, lookup_normalize, lookup_normalize, ← List.filter_reverse, lookup_filter]
  cases p key <;> rfl

mutual

/-- **Normalizing gives a normal value.** -/
theorem isNormal_normalize : ∀ v : Json, v.normalize.IsNormal
  | .array items => by
    rw [normalize, IsNormal]
    exact isNormalItems_normalizeItems items
  | .object members => by
    rw [normalize, isNormal_object_iff]
    have hmembers := isNormalMembers_iff.mp (isNormalMembers_normalizeMembers members)
    exact ⟨pairwise_sortMembers _, fun m hm => hmembers m (mem_of_mem_sortMembers hm)⟩
  | .null => trivial
  | .bool _ => trivial
  | .number _ => trivial
  | .string _ => trivial

theorem isNormalItems_normalizeItems : ∀ items : List Json, IsNormalItems (normalizeItems items)
  | [] => trivial
  | item :: rest => ⟨isNormal_normalize item, isNormalItems_normalizeItems rest⟩

theorem isNormalMembers_normalizeMembers :
    ∀ members : List (String × Json), IsNormalMembers (normalizeMembers members)
  | [] => trivial
  | (_, v) :: rest => ⟨isNormal_normalize v, isNormalMembers_normalizeMembers rest⟩

end

/-- Members that are sorted stay as they are. -/
theorem sortMembers_eq_self {members : List (String × Json)}
    (h : members.Pairwise fun a b => a.1 < b.1) : sortMembers members = members :=
  eq_of_lookup_eq (pairwise_sortMembers members) h fun key => by
    rw [lookup_sortMembers, lookup_reverse (countP_le_one_of_pairwise h key)]

mutual

/-- **A normal value stays as it is.** -/
theorem normalize_eq_self : ∀ {v : Json}, v.IsNormal → v.normalize = v
  | .array _, h => by rw [normalize, normalizeItems_eq_self h]
  | .object _, h => by
    obtain ⟨hsorted, hmembers⟩ := h
    rw [normalize, normalizeMembers_eq_self hmembers, sortMembers_eq_self hsorted]
  | .null, _ => rfl
  | .bool _, _ => rfl
  | .number _, _ => rfl
  | .string _, _ => rfl

theorem normalizeItems_eq_self : ∀ {items : List Json}, IsNormalItems items →
    normalizeItems items = items
  | [], _ => rfl
  | _ :: _, ⟨hitem, hrest⟩ => by
    rw [normalizeItems, normalize_eq_self hitem, normalizeItems_eq_self hrest]

theorem normalizeMembers_eq_self : ∀ {members : List (String × Json)}, IsNormalMembers members →
    normalizeMembers members = members
  | [], _ => rfl
  | (_, _) :: _, ⟨hv, hrest⟩ => by
    rw [normalizeMembers, normalize_eq_self hv, normalizeMembers_eq_self hrest]

end

/-- A normal form has no other. -/
theorem normalize_normalize (v : Json) : v.normalize.normalize = v.normalize :=
  normalize_eq_self (isNormal_normalize v)

end StatementPress.Json
