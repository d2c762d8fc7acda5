import StatementPress.Proofs.Json.Normal

/-!
# Repeated keys under a decoder

A record is refused if one of its fields occurs twice, and normalizing keeps only the last of them.
So a value can be refused although its normal form is decoded.  A `Repetition` is the test for this:
it says of a value whether a key repeats where a decoder looks for one.  `Follows` ties a decoder to
its test: what repeats is refused, and everything else is decoded as its normal form is.

The tests are put together as the decoders are, from those of lists, choices and records.
-/

namespace StatementPress.Json

variable {α β : Type}

/-- A test for repeated keys. -/
abbrev Repetition := Json → Bool

/-- The test of a decoder that looks for no key. -/
def unkeyed : Repetition := fun _ => false

/-- The test of a choice: its only key may not repeat. -/
def choiceRepeats : Repetition
  | .object members => members.any fun m => 1 < members.countP (·.1 == m.1)
  | _ => false

/-- The test of a list: the test of each of its items. -/
def listRepeats (item : Repetition) : Repetition
  | .array items => items.any item
  | _ => false

/-- What a record has in a field: an object under its name, an array at its place. -/
def fieldOf (names : List String) (name : String) : Json → Option Json
  | .object members => members.lookup name
  | .array items => (names.zip items).lookup name
  | _ => none

/-- The test of a record: no field may occur twice, and each field has a test of its own. -/
def recordRepeats (fields : List (String × Repetition)) : Repetition := fun v =>
  fields.any fun f => 1 < v.count f.1 || (fieldOf (fields.map (·.1)) f.1 v).any f.2

/-- **What a test says about a decoder.**  What repeats is refused; everything else is decoded as its
normal form is. -/
structure Follows (decode : Json → Option α) (repeats : Repetition) : Prop where
  refuses : ∀ {v}, repeats v = true → decode v = none
  agrees : ∀ {v}, repeats v = false → decode v.normalize = decode v

/-! ## Scalars, lists, choices -/

theorem follows_string : Follows string? unkeyed where
  refuses h := nomatch h
  agrees {v} _ := by cases v <;> rfl

theorem follows_double : Follows double? unkeyed where
  refuses h := nomatch h
  agrees {v} _ := by cases v <;> rfl

/-- Nothing but `null` becomes `null`. -/
theorem normalize_eq_null {v : Json} : v.normalize = .null ↔ v = .null := by
  cases v <;> simp [normalize]

/-- A decoder that takes `null` for nothing follows where the decoder inside does. -/
theorem Follows.nullable {decode : Json → Option α} {repeats : Repetition}
    (h : Follows decode repeats) (hnull : repeats .null = false) :
    Follows (nullable? decode) repeats where
  refuses {v} hv := by
    cases v with
    | null => rw [hnull] at hv; cases hv
    | _ => simp [nullable?, h.refuses hv]
  agrees {v} hv := by
    by_cases hn : v = .null
    · rw [hn]
      rfl
    · have hnormal : v.normalize ≠ .null := fun h => hn (normalize_eq_null.mp h)
      rw [nullable?, nullable?, h.agrees hv]
      · exact hn
      · exact hnormal

/-- Turning what was decoded into something else changes nothing about repetition. -/
theorem Follows.map {decode : Json → Option α} {repeats : Repetition} (h : Follows decode repeats)
    (f : α → β) : Follows (fun v => do return f (← decode v)) repeats where
  refuses hv := by rw [h.refuses hv]; rfl
  agrees hv := by rw [h.agrees hv]

theorem mapM_eq_none_of_mem {decode : Json → Option α} {items : List Json} {v : Json}
    (hv : v ∈ items) (h : decode v = none) : items.mapM decode = none := by
  induction items with
  | nil => cases hv
  | cons item rest ih =>
    rw [List.mapM_cons]
    rcases List.mem_cons.mp hv with rfl | hv
    · rw [h]
      rfl
    · rw [ih hv]
      cases decode item <;> rfl

theorem mapM_normalizeItems {decode : Json → Option α} {items : List Json}
    (h : ∀ v ∈ items, decode v.normalize = decode v) :
    (normalizeItems items).mapM decode = items.mapM decode := by
  induction items with
  | nil => rfl
  | cons item rest ih =>
    rw [normalizeItems, List.mapM_cons, List.mapM_cons, h item List.mem_cons_self,
      ih fun v hv => h v (List.mem_cons_of_mem item hv)]

/-- A list is refused if one of its items is, and decoded item by item otherwise. -/
theorem Follows.list {decode : Json → Option α} {repeats : Repetition}
    (h : Follows decode repeats) : Follows (list? decode) (listRepeats repeats) where
  refuses {v} hv := by
    cases v with
    | array items =>
      obtain ⟨w, hw, hrepeats⟩ := List.any_eq_true.mp hv
      exact mapM_eq_none_of_mem hw (h.refuses hrepeats)
    | _ => cases hv
  agrees {v} hv := by
    cases v with
    | array items =>
      have hitems := List.any_eq_false.mp hv
      exact mapM_normalizeItems fun w hw => h.agrees (Bool.eq_false_iff.mpr (hitems w hw))
    | _ => rfl

theorem choice?_eq_none_of_lookup {choices : List (String × α)} {members : List (String × Json)}
    {k l : String} (hne : k ≠ l) (hk : members.lookup k ≠ none) (hl : members.lookup l ≠ none) :
    choice? choices (.object members) = none := by
  match members with
  | [] => cases hk rfl
  | [m] =>
    have hsame : ∀ {key}, ([m].lookup key : Option Json) ≠ none → key = m.1 := by
      intro key h
      rw [List.lookup_cons] at h
      by_cases heq : key = m.1
      · exact heq
      · rw [beq_eq_false_iff_ne.mpr heq] at h
        cases h rfl
    cases hne ((hsame hk).trans (hsame hl).symm)
  | m :: n :: rest => simp [choice?]

/-- A key of an object is still there after normalizing. -/
theorem lookup_normalize_ne_none {members : List (String × Json)} {m : String × Json}
    (hm : m ∈ members) : (sortMembers (normalizeMembers members)).lookup m.1 ≠ none := by
  rw [lookup_normalize]
  intro h
  have hnone := List.lookup_eq_none_iff.mp (Option.map_eq_none_iff.mp h) m (List.mem_reverse.mpr hm)
  simp at hnone

/-- An object that names two of several choices is none of them. -/
theorem follows_choice (choices : List (String × α)) : Follows (choice? choices) choiceRepeats where
  refuses {v} hv := by
    cases v with
    | object members =>
      obtain ⟨m, -, hcount⟩ := List.any_eq_true.mp hv
      have hlong : 1 < members.length :=
        Nat.lt_of_lt_of_le (of_decide_eq_true hcount) List.countP_le_length
      match members with
      | _ :: _ :: _ => simp [choice?]
    | _ => cases hv
  agrees {v} hv := by
    cases v with
    | object members =>
      have hcount := List.any_eq_false.mp hv
      rw [normalize]
      match members with
      | [] => rfl
      | [(k, w)] =>
        cases w with
        | object inner =>
          cases inner with
          | nil => rfl
          | cons m inner =>
            -- an object that is not empty does not become empty, so it still is no choice
            have hm : m ∈ m :: inner := List.mem_cons_self
            have hnil : sortMembers (normalizeMembers (m :: inner)) ≠ [] := fun h =>
              lookup_normalize_ne_none hm (by rw [h]; rfl)
            obtain ⟨n, rest, hsorted⟩ := List.exists_cons_of_ne_nil hnil
            change choice? choices (.object [(k, .object (sortMembers (normalizeMembers _)))]) = _
            rw [hsorted]
            rfl
        | _ => rfl
      | m :: n :: rest =>
        -- without repetition two members stay two members
        have hne : m.1 ≠ n.1 := by
          intro h
          have hm := hcount m List.mem_cons_self
          rw [List.countP_cons_of_pos (by simp), List.countP_cons_of_pos (by simp [h])] at hm
          simp at hm
        rw [choice?_eq_none_of_lookup hne (lookup_normalize_ne_none List.mem_cons_self)
          (lookup_normalize_ne_none (List.mem_cons_of_mem m List.mem_cons_self))]
        simp [choice?]
    | _ => rfl

/-! ## Records -/

theorem lookup_zip_normalizeItems (names : List String) (items : List Json) (name : String) :
    (names.zip (normalizeItems items)).lookup name =
      ((names.zip items).lookup name).map normalize := by
  induction names generalizing items with
  | nil => rfl
  | cons n names ih =>
    cases items with
    | nil => rfl
    | cons item rest =>
      rw [normalizeItems, List.zip_cons_cons, List.zip_cons_cons, List.lookup_cons, List.lookup_cons,
        ih]
      cases name == n <;> rfl

/-- An object with a repeated field is no record. -/
theorem fields?_eq_none_of_count {names : List String} {name : String} {v : Json}
    (hname : name ∈ names) (h : 1 < v.count name) : v.fields? names = none := by
  cases v with
  | object members =>
    rw [fields?, if_pos]
    exact List.any_eq_true.mpr ⟨name, hname, decide_eq_true h⟩
  | _ => cases h

theorem eq_fieldOf_of_fields? {names : List String} {v : Json} {field : String → Option Json}
    (h : v.fields? names = some field) (name : String) : field name = fieldOf names name v := by
  cases v with
  | object members =>
    rw [fields?] at h
    split at h
    · cases h
    · cases h
      rfl
  | array items =>
    rw [fields?] at h
    split at h
    · cases h
      rfl
    · cases h
  | _ => cases h

/-- Where no field repeats, the fields of the normal form are the normal forms of the fields. -/
theorem fields?_normalize {names : List String} {v : Json} (h : ∀ name ∈ names, v.count name ≤ 1) :
    (v.fields? names = none ∧ v.normalize.fields? names = none) ∨
      ∃ field normal, v.fields? names = some field ∧ v.normalize.fields? names = some normal ∧
        ∀ name ∈ names, normal name = (field name).map normalize := by
  cases v with
  | object members =>
    have hcount : (names.any fun name => decide (1 < members.countP (·.1 == name))) = false :=
      List.any_eq_false.mpr fun name hname => by simpa [count] using h name hname
    refine .inr ⟨_, _, by rw [fields?, hcount]; rfl, by
      rw [normalize]
      exact fields?_of_isNormal (isNormal_normalize (.object members)) names, ?_⟩
    intro name hname
    rw [get?, lookup_normalize, lookup_reverse (h name hname)]
  | array items =>
    rw [normalize, fields?, fields?, normalizeItems_eq_map, List.length_map]
    split
    · refine .inr ⟨_, _, rfl, rfl, fun name _ => ?_⟩
      rw [← normalizeItems_eq_map, lookup_zip_normalizeItems]
    · exact .inl ⟨rfl, rfl⟩
  | _ => exact .inl ⟨rfl, rfl⟩

/-- What the tests of fields say about a decoder that works on the fields of a record. -/
structure FieldsFollow (decode : (String → Option Json) → Option α)
    (fields : List (String × Repetition)) : Prop where
  refuses : ∀ {field}, (∃ f ∈ fields, (field f.1).any f.2 = true) → decode field = none
  agrees : ∀ {field normal}, (∀ f ∈ fields, (field f.1).any f.2 = false) →
    (∀ f ∈ fields, normal f.1 = (field f.1).map normalize) → decode normal = decode field

theorem FieldsFollow.pure (a : α) : FieldsFollow (fun _ => Pure.pure a) [] where
  refuses h := by simp at h
  agrees _ _ := rfl

/-- One field before others. -/
theorem FieldsFollow.cons (read : Option Json → Option α) {name : String} {repeats : Repetition}
    {fields : List (String × Repetition)} {next : α → (String → Option Json) → Option β}
    (hrefuses : ∀ {v}, repeats v = true → read (some v) = none)
    (hagrees : ∀ {v}, v.any repeats = false → read (v.map normalize) = read v)
    (h : ∀ a, FieldsFollow (next a) fields) :
    FieldsFollow (fun field => do next (← read (field name)) field)
      ((name, repeats) :: fields) where
  refuses {field} hfields := by
    obtain ⟨f, hf, hrepeats⟩ := hfields
    rcases List.mem_cons.mp hf with rfl | hf
    · obtain ⟨v, hv, hrepeats⟩ := (Option.any_eq_true _ _).mp hrepeats
      rw [hv, hrefuses hrepeats]
      rfl
    · cases read (field name) with
      | none => rfl
      | some a => exact (h a).refuses ⟨f, hf, hrepeats⟩
  agrees {field normal} hfields hnormal := by
    have hread : read (normal name) = read (field name) := by
      rw [hnormal _ List.mem_cons_self]
      exact hagrees (hfields _ List.mem_cons_self)
    rw [hread]
    cases read (field name) with
    | none => rfl
    | some a =>
      exact (h a).agrees (fun f hf => hfields f (List.mem_cons_of_mem _ hf))
        fun f hf => hnormal f (List.mem_cons_of_mem _ hf)

section
variable {decode : Json → Option α} {repeats : Repetition} {fields : List (String × Repetition)}
  {next : α → (String → Option Json) → Option β}

/-- A field that has to be there adds its own repetitions to those of the fields after it. -/
theorem FieldsFollow.required (hd : Follows decode repeats) (name : String)
    (h : ∀ a, FieldsFollow (next a) fields) :
    FieldsFollow (fun field => do next (← Json.required (field name) decode) field)
      ((name, repeats) :: fields) :=
  .cons (fun v => Json.required v decode) hd.refuses
    (fun {v} hv => by
      cases v with
      | none => rfl
      | some v => exact hd.agrees hv) h

/-- So does a field with a default. -/
theorem FieldsFollow.optional (hd : Follows decode repeats) (name : String) (default : α)
    (h : ∀ a, FieldsFollow (next a) fields) :
    FieldsFollow (fun field => do next (← Json.optional (field name) default decode) field)
      ((name, repeats) :: fields) :=
  .cons (fun v => Json.optional v default decode) hd.refuses
    (fun {v} hv => by
      cases v with
      | none => rfl
      | some v => exact hd.agrees hv) h

end

/-- **A record follows its test if the decoder of its fields follows theirs.** -/
theorem FieldsFollow.record {decode : (String → Option Json) → Option α}
    {fields : List (String × Repetition)} (h : FieldsFollow decode fields) :
    Follows (fun v => do decode (← v.fields? (fields.map (·.1)))) (recordRepeats fields) where
  refuses {v} hv := by
    obtain ⟨f, hf, hrepeats⟩ := List.any_eq_true.mp hv
    rcases Bool.or_eq_true_iff.mp hrepeats with hcount | hinside
    · rw [fields?_eq_none_of_count (List.mem_map_of_mem hf) (of_decide_eq_true hcount)]
      rfl
    · cases hfield : v.fields? (fields.map (·.1)) with
      | none => rfl
      | some field =>
        rw [← eq_fieldOf_of_fields? hfield] at hinside
        exact h.refuses ⟨f, hf, hinside⟩
  agrees {v} hv := by
    have hfields := List.any_eq_false.mp hv
    simp only [Bool.not_eq_true, Bool.or_eq_false_iff] at hfields
    -- no field occurs twice, so the fields can be taken before or after normalizing
    have hcount : ∀ name ∈ fields.map (·.1), v.count name ≤ 1 := by
      intro name hname
      obtain ⟨f, hf, rfl⟩ := List.mem_map.mp hname
      exact Nat.not_lt.mp (of_decide_eq_false (hfields f hf).1)
    rcases fields?_normalize hcount with ⟨hfield, hnormal⟩ | ⟨field, normal, hfield, hnormal, heq⟩
    · rw [hfield, hnormal]
    · rw [hfield, hnormal]
      refine h.agrees (fun f hf => ?_) fun f hf => heq _ (List.mem_map_of_mem hf)
      rw [eq_fieldOf_of_fields? hfield]
      exact (hfields f hf).2

end StatementPress.Json
