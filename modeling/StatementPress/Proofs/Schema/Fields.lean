import StatementPress.Proofs.Schema.Meaning
import StatementPress.Proofs.Template.Invariants

/-!
# Fields in schemas

What the schema of templates asks of each kind of field, keyword by keyword: of strings, numbers,
colours, and of objects with required members.  For the numbers and strings that a template holds these
are its invariants.
-/

namespace StatementPress.Schema

open Json (ofBinary64)

variable {refs : String → Json → Bool} {v : Json} {rest more : Keywords}

/-! ## Keywords of the schema -/

theorem same_string_iff {s : String} : same (.string s) v = true ↔ v = .string s := by
  cases v with
  | string t => rw [same, beq_iff_eq, Json.string.injEq, eq_comm]
  | _ => simp [same]

theorem acceptsAll_type {name : String} : acceptsAll refs (("type", .string name) :: rest) v =
    ((types v).contains name && acceptsAll refs rest v) := by
  rw [acceptsAll_of_assertion rfl]
  rfl

theorem acceptsAll_const {s : String} : acceptsAll refs (("const", .string s) :: rest) v =
    (same (.string s) v && acceptsAll refs rest v) :=
  acceptsAll_of_assertion rfl

/-- `enum` lists the strings that are accepted. -/
theorem acceptsAll_enum {names : List String} : acceptsAll refs (("enum", strings names) :: rest) v =
    (names.any (fun s => same (.string s) v) && acceptsAll refs rest v) := by
  rw [acceptsAll_of_assertion rfl, strings, isChoice, List.any_map]
  rfl

/-- `required` asks for each of the keys. -/
theorem acceptsAll_required {names : List String} {members : List (String × Json)} :
    acceptsAll refs (("required", strings names) :: rest) (.object members) =
      (names.all (fun key => (members.lookup key).isSome) &&
        acceptsAll refs rest (.object members)) := by
  rw [acceptsAll_of_assertion rfl, strings, hasKeys, List.all_map]
  rfl

theorem acceptsAll_pattern {pattern s : String} :
    acceptsAll refs (("pattern", .string pattern) :: rest) (.string s) =
      (matchesPattern pattern s && acceptsAll refs rest (.string s)) := by
  rw [acceptsAll_of_assertion rfl]
  rfl

theorem acceptsAll_minItems {n : Nat} {items : List Json} :
    acceptsAll refs (("minItems", .ofNat n) :: rest) (.array items) =
      (decide (n ≤ items.length) && acceptsAll refs rest (.array items)) := by
  rw [acceptsAll_of_assertion rfl]
  simp [Json.ofNat, Json.ofInt, keeps, itemCount?]

theorem acceptsAll_minLength {n : Nat} {s : String} :
    acceptsAll refs (("minLength", .ofNat n) :: rest) (.string s) =
      (decide (n ≤ s.toList.length) && acceptsAll refs rest (.string s)) := by
  rw [acceptsAll_of_assertion rfl]
  simp [Json.ofNat, Json.ofInt, keeps, charCount?]

/-- `minimum` compares what the numbers stand for. -/
theorem acceptsAll_minimum {n : Nat} {m : Json.Number} :
    acceptsAll refs (("minimum", .ofNat n) :: rest) (.number m) =
      (decide ((n : ℚ) ≤ m.value) && acceptsAll refs rest (.number m)) := by
  rw [acceptsAll_of_assertion rfl]
  simp [Json.ofNat, Json.ofInt, keeps, number?]

theorem acceptsAll_exclusiveMinimum {n : Nat} {m : Json.Number} :
    acceptsAll refs (("exclusiveMinimum", .ofNat n) :: rest) (.number m) =
      (decide ((n : ℚ) < m.value) && acceptsAll refs rest (.number m)) := by
  rw [acceptsAll_of_assertion rfl]
  simp [Json.ofNat, Json.ofInt, keeps, number?]

/-- A keyword that is not known asserts nothing. -/
theorem acceptsAll_of_unknown {keyword : String} {argument : Json}
    (hschemas : keyword ∉ ["properties", "items", "not", "oneOf", "anyOf"])
    (h : assertions.lookup keyword = none) :
    acceptsAll refs ((keyword, argument) :: rest) v = acceptsAll refs rest v := by
  rw [acceptsAll_asserts hschemas, asserts, h, Bool.true_and]

/-- `default` asserts nothing. -/
theorem acceptsAll_default {d : Json} :
    acceptsAll refs (("default", d) :: rest) v = acceptsAll refs rest v :=
  acceptsAll_of_unknown (by decide) rfl

/-- Keywords that only inform. -/
def Informs (keywords : Keywords) : Prop := ∀ m ∈ keywords, m.1 = "default"

theorem informs_nil : Informs [] := List.forall_mem_nil _

theorem informs_default (d : Json) : Informs [("default", d)] := by
  intro m hm
  rw [List.mem_singleton.mp hm]

/-- Keywords that only inform accept everything. -/
theorem acceptsAll_of_informs (h : Informs more) : acceptsAll refs more v = true := by
  induction more with
  | nil => exact acceptsAll_nil
  | cons m more ih =>
    obtain ⟨key, d⟩ := m
    obtain ⟨rfl, hmore⟩ := List.forall_mem_cons.mp h
    rw [acceptsAll_default, ih hmore]

theorem reference?_cons {key : String} {argument : Json} (h : key ≠ "$ref") :
    reference? ((key, argument) :: more) = reference? more := by
  rw [reference?, List.lookup_cons, beq_eq_false_iff_ne.mpr h.symm, reference?]

theorem reference?_of_informs (h : Informs more) : reference? more = none := by
  have hnone : more.lookup "$ref" = none := by
    rw [List.lookup_eq_none_iff]
    intro m hm
    rw [h m hm]
    decide
  rw [reference?, hnone]
  rfl

/-! ## Kinds of field -/

/-- A typed schema asks for the type and for the rest of its keywords. -/
theorem accepts_typed {name : String} (h : reference? more = none) :
    accepts refs (typed name more) v = ((types v).contains name && acceptsAll refs more v) := by
  rw [typed, accepts_object, acceptsAll_type]
  exact h

theorem accepts_const_iff {s : String} : accepts refs (const s) v = true ↔ v = .string s := by
  rw [const, accepts_object rfl, acceptsAll_const, acceptsAll_nil, Bool.and_true, same_string_iff]

/-- A schema with choices accepts exactly these strings. -/
theorem accepts_oneOf_iff {names : List String} (h : Informs more) :
    accepts refs (oneOf names more) v = true ↔ ∃ s ∈ names, v = .string s := by
  rw [oneOf, accepts_object ((reference?_cons (by decide)).trans (reference?_of_informs h)),
    acceptsAll_enum, acceptsAll_of_informs h,
    Bool.and_true, List.any_eq_true]
  simp only [same_string_iff]

theorem accepts_optionalString (d s : String) :
    accepts refs (optionalString d) (.string s) = true := by
  rw [optionalString, accepts_typed rfl, acceptsAll_default, acceptsAll_nil]
  rfl

/-- A string that has to have a character has one. -/
theorem accepts_filled (h : Informs more) {s : String} (hs : s ≠ "") :
    accepts refs (typed "string" (("minLength", .ofNat 1) :: more)) (.string s) = true := by
  have hlength : 1 ≤ s.toList.length := by
    rw [Nat.one_le_iff_ne_zero, ne_eq, List.length_eq_zero_iff]
    simpa using hs
  rw [accepts_typed ((reference?_cons (by decide)).trans (reference?_of_informs h)),
    acceptsAll_minLength, acceptsAll_of_informs h]
  simpa [types] using hlength

/-- A counter is a whole number from one on. -/
theorem accepts_counter {n : Nat} (h : 1 ≤ n) : accepts refs counter (.ofNat n) = true := by
  rw [counter, accepts_typed rfl, Json.ofNat, Json.ofInt, acceptsAll_minimum, acceptsAll_nil]
  simpa [types] using h

/-- The bound of the schema is the rule of the walk, and minus zero passes both. -/
theorem accepts_nonNegative {x : Binary64} (h : x.IsNonNegative) :
    accepts refs nonNegative (ofBinary64 x) = true := by
  obtain ⟨hfinite, hvalue⟩ := h
  rw [nonNegative, accepts_typed rfl, ofBinary64, dif_pos hfinite, acceptsAll_minimum,
    acceptsAll_nil]
  simpa [types] using hvalue

/-- A double above zero passes the bound of the schema. -/
theorem accepts_positive (hmore : Informs more) {x : Binary64} (h : x.IsPositive) :
    accepts refs (positive more) (ofBinary64 x) = true := by
  obtain ⟨hfinite, hvalue⟩ := h
  rw [positive, accepts_typed ((reference?_cons (by decide)).trans (reference?_of_informs hmore)),
    ofBinary64, dif_pos hfinite, acceptsAll_exclusiveMinimum, acceptsAll_of_informs hmore]
  simpa [types] using hvalue

/-- The places of a colour: a number sign and six hexadecimal digits. -/
theorem patternPlaces_color : patternPlaces .between [] "#[0-9a-fA-F]\x7b6\x7d$".toList =
    some ([('#', '#')] :: List.replicate 6 [('A', 'F'), ('a', 'f'), ('0', '9')]) := by decide

/-- A place that is repeated is filled by so many characters of its ranges. -/
theorem fills_replicate_iff (place : CharClass) {n : Nat} {cs : List Char} :
    fills (List.replicate n place) cs = true ↔
      cs.length = n ∧ ∀ c ∈ cs, ∃ range ∈ place, range.1 ≤ c ∧ c ≤ range.2 := by
  induction n generalizing cs with
  | zero => cases cs <;> simp [fills]
  | succ n ih =>
    rw [List.replicate_succ]
    cases cs with
    | nil => simp [fills]
    | cons c cs => simp [fills, ih, and_left_comm]

/-- The pattern for colours accepts what the rule for colours does. -/
theorem matchesPattern_color {s : String} (h : IsColor s) :
    matchesPattern "^#[0-9a-fA-F]\x7b6\x7d$" s = true := by
  obtain ⟨digits, hs, hlength, hdigits⟩ := h
  have hplaces : "^#[0-9a-fA-F]\x7b6\x7d$".toList = '^' :: "#[0-9a-fA-F]\x7b6\x7d$".toList := by
    decide
  have hfills := (fills_replicate_iff [('A', 'F'), ('a', 'f'), ('0', '9')]).mpr
    ⟨hlength, fun d hd => by simpa [or_comm, or_left_comm] using hdigits d hd⟩
  simp only [matchesPattern, hplaces, patternPlaces_color, hs, Option.any_some,
    fills, hfills]
  decide

/-! ## Objects -/

/-- What the schema of an object asks for: its required keys are there, and what stands under its keys
is accepted. -/
structure Provides (refs : String → Json → Bool) (required : List String) (properties : Keywords)
    (v : Json) : Prop where
  required : ∀ key ∈ required, (v.get? key).isSome = true
  properties : ∀ p ∈ properties, ∀ w, v.get? p.1 = some w → accepts refs p.2 w = true

/-- A field that is there is the only one under its key. -/
theorem accepts_field {key : String} {schema w : Json} (hget : v.get? key = some w)
    (h : accepts refs schema w = true) :
    ∀ u, v.get? key = some u → accepts refs schema u = true := by
  intro u hu
  rw [hget] at hu
  cases hu
  exact h

/-- A value that is an object. -/
def IsObject (v : Json) : Prop := ∃ members, v = .object members

variable {required : List String} {properties : Keywords}

/-- Most objects are described by the keys that they need and by what stands under their keys. -/
theorem acceptsAll_required_properties (hv : IsObject v) : acceptsAll refs
      (("required", strings required) :: ("properties", .object properties) :: more) v = true ↔
    Provides refs required properties v ∧ acceptsAll refs more v = true := by
  obtain ⟨members, rfl⟩ := hv
  rw [acceptsAll_required, acceptsAll_properties, Bool.and_eq_true, Bool.and_eq_true,
    List.all_eq_true, acceptsMembers_iff, ← and_assoc]
  exact and_congr_left' ⟨fun h => ⟨h.1, h.2⟩, fun h => ⟨h.1, h.2⟩⟩

theorem types_of_isObject (hv : IsObject v) : (types v).contains "object" = true := by
  obtain ⟨members, rfl⟩ := hv
  rfl

/-- A schema of an object accepts objects that provide what it asks for. -/
theorem accepts_object_iff (hv : IsObject v) (h : reference? more = none) :
    accepts refs (object required properties more) v = true ↔
      Provides refs required properties v ∧ acceptsAll refs more v = true := by
  have hmore : reference? (("required", strings required) ::
      ("properties", .object properties) :: more) = none :=
    ((reference?_cons (by decide)).trans (reference?_cons (by decide))).trans h
  rw [object, accepts_typed hmore, types_of_isObject hv, Bool.true_and,
    acceptsAll_required_properties hv]

theorem accepts_looseObject_iff (hv : IsObject v) :
    accepts refs (looseObject properties) v = true ↔ Provides refs [] properties v := by
  rw [looseObject, accepts_typed rfl, types_of_isObject hv, Bool.true_and, acceptsAll_properties,
    acceptsAll_nil, Bool.and_true, acceptsMembers_iff]
  exact ⟨fun h => ⟨List.forall_mem_nil _, h⟩, fun h => h.properties⟩

theorem accepts_requires_iff (hv : IsObject v) :
    accepts refs (.object [("required", strings required)]) v = true ↔
      ∀ key ∈ required, (v.get? key).isSome = true := by
  obtain ⟨members, rfl⟩ := hv
  rw [accepts_object rfl, acceptsAll_required, acceptsAll_nil, Bool.and_true, List.all_eq_true]
  rfl

/-- The fields of a kind of component. -/
theorem accepts_kindFields_iff {kind : String} (hv : IsObject v) (h : reference? more = none) :
    accepts refs (kindFields kind properties required more) v = true ↔
      Provides refs ("position" :: required)
          (("type", const kind) :: ("position", ref "position") :: properties) v ∧
        acceptsAll refs more v = true := by
  have hmore : reference? (("properties", .object
        (("type", const kind) :: ("position", ref "position") :: properties)) ::
      ("required", strings ("position" :: required)) :: more) = none :=
    ((reference?_cons (by decide)).trans (reference?_cons (by decide))).trans h
  obtain ⟨members, rfl⟩ := hv
  rw [kindFields, accepts_object hmore, acceptsAll_properties, acceptsAll_required,
    Bool.and_eq_true, Bool.and_eq_true, List.all_eq_true, acceptsMembers_iff, and_left_comm,
    ← and_assoc]
  exact and_congr_left' ⟨fun h => ⟨h.1, h.2⟩, fun h => ⟨h.1, h.2⟩⟩

/-- A kind that accepts a value is the kind that the value names. -/
theorem named_of_accepts {kind named : String} (hv : IsObject v) (h : reference? more = none)
    (hnamed : v.get? "type" = some (.string named))
    (haccepts : accepts refs (kindFields kind properties required more) v = true) :
    named = kind := by
  have hprovides := ((accepts_kindFields_iff hv h).mp haccepts).1
  have hkind := hprovides.properties _ List.mem_cons_self _ hnamed
  rwa [accepts_const_iff, Json.string.injEq] at hkind

/-! ## Arrays -/

/-- A schema of an array accepts arrays of accepted items. -/
theorem accepts_array_iff {schema : Json} {items : List Json} (hmore : Informs more) :
    accepts refs (typed "array" (("items", schema) :: more)) (.array items) = true ↔
      ∀ item ∈ items, accepts refs schema item = true := by
  rw [accepts_typed ((reference?_cons (by decide)).trans (reference?_of_informs hmore)), types,
    List.contains_cons, beq_self_eq_true, Bool.true_or, Bool.true_and, acceptsAll_items,
    acceptsAll_of_informs hmore, Bool.and_true, List.all_eq_true]
  rfl

/-- A schema of a filled array asks for an item besides. -/
theorem accepts_filledArray_iff {schema : Json} {items : List Json} :
    accepts refs (typed "array" [("minItems", .ofNat 1), ("items", schema)]) (.array items) = true ↔
      items ≠ [] ∧ ∀ item ∈ items, accepts refs schema item = true := by
  rw [accepts_typed rfl, types, List.contains_cons,
    beq_self_eq_true, Bool.true_or, Bool.true_and, acceptsAll_minItems, acceptsAll_items,
    acceptsAll_nil, Bool.and_true, Bool.and_eq_true, decide_eq_true_iff, List.all_eq_true,
    Nat.one_le_iff_ne_zero, ne_eq, List.length_eq_zero_iff]
  rfl

end StatementPress.Schema
