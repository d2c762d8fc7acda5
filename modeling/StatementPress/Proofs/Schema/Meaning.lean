import StatementPress.Json.Pointer
import StatementPress.Template.Schema
import StatementPress.Proofs.Binary64
import StatementPress.Proofs.Json.Normal

/-!
# What schemas mean

Which values a JSON schema of draft 7 accepts, for the keywords `type`, `const`, `enum`, `required`,
`properties`, `items`, `minItems`, `minLength`, `minimum`, `exclusiveMinimum`, `pattern`, `oneOf`,
`anyOf`, `not` and `$ref`; any other keyword asserts nothing.  `accepts` goes by recursion through the
schema.  What a reference accepts is left open there, and is pinned down for a document by `Resolves`:
the same as the schema that stands at its target.  If no chain of references in a document goes round
in a circle (`settles`), there is one reading of its references and no other.
-/

namespace StatementPress

/-- The number that a number of a JSON value stands for. -/
def Json.Number.value : Json.Number → ℚ
  | .whole i => i
  | .double x _ => x.value

@[simp] theorem Json.Number.value_whole (i : Int) : (Json.Number.whole i).value = i := rfl

@[simp] theorem Json.Number.value_double (x : Binary64) (h : x.isFinite = true) :
    (Json.Number.double x h).value = x.value := rfl

namespace Schema

/-! ## Equal values -/

mutual

/-- Whether two values are equal: numbers by what they stand for, objects whatever the order of their
members. -/
def same : Json → Json → Bool
  | .null, .null => true
  | .bool a, .bool b => a == b
  | .number m, .number n => m.value == n.value
  | .string s, .string t => s == t
  | .array as, .array bs => sameItems as bs
  | .object ms, .object ns => ms.length == ns.length && sameMembers ms ns
  | _, _ => false

/-- Whether two lists of values are equal item by item. -/
def sameItems : List Json → List Json → Bool
  | [], [] => true
  | a :: as, b :: bs => same a b && sameItems as bs
  | _, _ => false

/-- Whether equal values stand under the keys of some members. -/
def sameMembers : List (String × Json) → List (String × Json) → Bool
  | [], _ => true
  | (key, a) :: rest, ns =>
    (match ns.lookup key with
      | some b => same a b
      | none => false) && sameMembers rest ns

end

/-! ## Patterns -/

/-- The characters that one place of a text may hold, as ranges. -/
abbrev CharClass := List (Char × Char)

/-- Where the reader of a pattern is. -/
inductive PatternState where
  /-- Between two places. -/
  | between
  /-- In brackets, after some ranges. -/
  | ranges (before : CharClass)
  /-- In braces, after the digits of a number. -/
  | times (n : Nat)

/-- The places of a pattern that is anchored at both ends: characters and brackets, each repeated as
often as the number in braces after it says.  `seen` holds the places before, last one first.  Other
patterns are not read. -/
def patternPlaces : PatternState → List CharClass → List Char → Option (List CharClass)
  | .between, seen, ['$'] => some seen.reverse
  | .between, seen, '[' :: rest => patternPlaces (.ranges []) seen rest
  | .between, seen, '\x7b' :: rest => patternPlaces (.times 0) seen rest
  | .between, seen, c :: rest =>
    if ['^', '$', '\\', '.', '*', '+', '?', '(', ')', ']', '\x7d', '|'].contains c then none
    else patternPlaces .between ([(c, c)] :: seen) rest
  | .ranges before, seen, ']' :: rest => patternPlaces .between (before :: seen) rest
  | .ranges before, seen, first :: '-' :: last :: rest =>
    if ['^', '\\', ']'].contains first || ['\\', ']'].contains last then none
    else patternPlaces (.ranges ((first, last) :: before)) seen rest
  | .ranges before, seen, c :: rest =>
    if ['^', '\\'].contains c then none else patternPlaces (.ranges ((c, c) :: before)) seen rest
  | .times n, place :: seen, '\x7d' :: rest =>
    patternPlaces .between (List.replicate n place ++ seen) rest
  | .times n, seen, c :: rest =>
    if c.isDigit then patternPlaces (.times (10 * n + (c.toNat - '0'.toNat))) seen rest else none
  | _, _, [] => none

/-- Whether a text has a character for each place, and no others. -/
def fills : List CharClass → List Char → Bool
  | [], [] => true
  | place :: places, c :: cs =>
    (place.any fun range => range.1 ≤ c && c ≤ range.2) && fills places cs
  | _, _ => false

/-- Whether a text matches an anchored pattern. -/
def matchesPattern (pattern s : String) : Bool :=
  match pattern.toList with
  | '^' :: rest => (patternPlaces .between [] rest).any fun places => fills places s.toList
  | _ => false

/-! ## Assertions -/

/-- The types of a value.  A number is an integer if it stands for one. -/
def types : Json → List String
  | .null => ["null"]
  | .bool _ => ["boolean"]
  | .number n => "number" :: if n.value.den = 1 then ["integer"] else []
  | .string _ => ["string"]
  | .array _ => ["array"]
  | .object _ => ["object"]

/-- Whether a value has the type with a given name. -/
def hasType (name v : Json) : Bool := name.string?.any fun s => (types v).contains s

/-- Whether a value is one of some values. -/
def isChoice (choices v : Json) : Bool :=
  match choices with
  | .array choices => choices.any fun choice => same choice v
  | _ => false

/-- Whether an object has some keys. -/
def hasKeys (keys v : Json) : Bool :=
  match keys, v with
  | .array keys, .object members =>
    keys.all fun key => key.string?.any fun s => (members.lookup s).isSome
  | _, _ => true

/-- Whether a number that a value has, if it has one, keeps to a bound. -/
def keeps (within : ℚ → ℚ → Bool) (amount? : Json → Option ℚ) (bound v : Json) : Bool :=
  match bound, amount? v with
  | .number n, some amount => within n.value amount
  | _, _ => true

/-- The number of items of an array. -/
def itemCount? : Json → Option ℚ
  | .array items => some items.length
  | _ => none

/-- The number of characters of a string. -/
def charCount? : Json → Option ℚ
  | .string s => some s.toList.length
  | _ => none

/-- The number that a value stands for. -/
def number? : Json → Option ℚ
  | .number n => some n.value
  | _ => none

/-- Whether a string matches a pattern. -/
def isMatch (pattern v : Json) : Bool :=
  match pattern, v with
  | .string pattern, .string s => matchesPattern pattern s
  | _, _ => true

/-- What the keywords without schemas in them assert of a value, by the argument of the keyword.  A
keyword for values of one type asserts nothing of others. -/
def assertions : List (String × (Json → Json → Bool)) :=
  [("type", hasType), ("const", same), ("enum", isChoice), ("required", hasKeys),
    ("minItems", keeps (· ≤ ·) itemCount?), ("minLength", keeps (· ≤ ·) charCount?),
    ("minimum", keeps (· ≤ ·) number?), ("exclusiveMinimum", keeps (· < ·) number?),
    ("pattern", isMatch)]

/-- What a keyword without schemas in it asserts of a value; other keywords assert nothing. -/
def asserts (keyword : String) (argument v : Json) : Bool :=
  match assertions.lookup keyword with
  | some holds => holds argument v
  | none => true

/-! ## Schemas -/

/-- The target of a schema that is a reference. -/
def reference? (keywords : Keywords) : Option String :=
  (keywords.lookup "$ref").bind Json.string?

/-- The items of an array; anything else has none. -/
def itemsIn : Json → List Json
  | .array items => items
  | _ => []

mutual

/-- **Whether a schema accepts a value**, where `refs` says what references accept.  What stands beside
a reference does not count. -/
def accepts (refs : String → Json → Bool) : Json → Json → Bool
  | .bool b, _ => b
  | .object keywords, v =>
    match reference? keywords with
    | some target => refs target v
    | none => acceptsAll refs keywords v
  | _, _ => false

/-- Whether all keywords of a schema hold of a value. -/
def acceptsAll (refs : String → Json → Bool) : Keywords → Json → Bool
  | [], _ => true
  | (keyword, argument) :: rest, v =>
    (if keyword = "properties" then acceptsProperties refs argument v
      else if keyword = "items" then (itemsIn v).all fun item => accepts refs argument item
      else if keyword = "not" then !accepts refs argument v
      else if keyword = "oneOf" then (branches refs argument v).count true == 1
      else if keyword = "anyOf" then (branches refs argument v).contains true
      else asserts keyword argument v) && acceptsAll refs rest v

/-- Whether what stands under the keys of an object is accepted. -/
def acceptsProperties (refs : String → Json → Bool) : Json → Json → Bool
  | .object properties, v => acceptsMembers refs properties v
  | _, _ => false

/-- Whether the schemas for some keys accept what stands there, if anything. -/
def acceptsMembers (refs : String → Json → Bool) : List (String × Json) → Json → Bool
  | [], _ => true
  | (key, schema) :: rest, v =>
    (match v.get? key with
      | some w => accepts refs schema w
      | none => true) && acceptsMembers refs rest v

/-- What each schema of an array says of a value. -/
def branches (refs : String → Json → Bool) : Json → Json → List Bool
  | .array schemas, v => acceptsEach refs schemas v
  | _, _ => []

/-- What each schema of a list says of a value. -/
def acceptsEach (refs : String → Json → Bool) : List Json → Json → List Bool
  | [], _ => []
  | schema :: rest, v => accepts refs schema v :: acceptsEach refs rest v

end

/-! ## Keyword by keyword -/

variable {refs : String → Json → Bool} {rest : Keywords} {v : Json}

@[simp] theorem acceptsAll_nil : acceptsAll refs [] v = true := by rw [acceptsAll]

@[simp] theorem acceptsMembers_iff {properties : List (String × Json)} :
    acceptsMembers refs properties v = true ↔
      ∀ p ∈ properties, ∀ w, v.get? p.1 = some w → accepts refs p.2 w = true := by
  induction properties with
  | nil => simp [acceptsMembers]
  | cons p properties ih =>
    obtain ⟨key, schema⟩ := p
    rw [acceptsMembers, Bool.and_eq_true, ih, List.forall_mem_cons]
    refine and_congr_left' ?_
    cases v.get? key <;> simp

theorem acceptsEach_eq_map (schemas : List Json) :
    acceptsEach refs schemas v = schemas.map fun schema => accepts refs schema v := by
  induction schemas with
  | nil => rw [acceptsEach, List.map_nil]
  | cons schema schemas ih => rw [acceptsEach, ih, List.map_cons]

@[simp] theorem acceptsAll_properties {properties : List (String × Json)} :
    acceptsAll refs (("properties", .object properties) :: rest) v =
      (acceptsMembers refs properties v && acceptsAll refs rest v) := by
  simp [acceptsAll, acceptsProperties]

@[simp] theorem acceptsAll_items {schema : Json} :
    acceptsAll refs (("items", schema) :: rest) v =
      ((itemsIn v).all (accepts refs schema) && acceptsAll refs rest v) := by
  simp [acceptsAll]

@[simp] theorem acceptsAll_not {schema : Json} :
    acceptsAll refs (("not", schema) :: rest) v =
      (!accepts refs schema v && acceptsAll refs rest v) := by
  simp [acceptsAll]

@[simp] theorem acceptsAll_oneOf {schemas : List Json} :
    acceptsAll refs (("oneOf", .array schemas) :: rest) v =
      (schemas.countP (fun schema => accepts refs schema v) == 1 && acceptsAll refs rest v) := by
  simp [acceptsAll, branches, acceptsEach_eq_map, List.count, List.countP_map, Function.comp_def]

@[simp] theorem acceptsAll_anyOf {schemas : List Json} :
    acceptsAll refs (("anyOf", .array schemas) :: rest) v =
      (schemas.any (fun schema => accepts refs schema v) && acceptsAll refs rest v) := by
  rw [acceptsAll]
  simp [branches, acceptsEach_eq_map, List.any_eq]

/-- A keyword with no schemas in it is asserted beside the others. -/
theorem acceptsAll_asserts {keyword : String} {argument : Json}
    (h : keyword ∉ ["properties", "items", "not", "oneOf", "anyOf"]) :
    acceptsAll refs ((keyword, argument) :: rest) v =
      (asserts keyword argument v && acceptsAll refs rest v) := by
  simp only [List.mem_cons, List.not_mem_nil, or_false, not_or] at h
  rw [acceptsAll, if_neg h.1, if_neg h.2.1, if_neg h.2.2.1, if_neg h.2.2.2.1, if_neg h.2.2.2.2]

/-- A keyword without schemas in it. -/
theorem acceptsAll_of_assertion {keyword : String} {argument : Json} {holds : Json → Json → Bool}
    (h : assertions.lookup keyword = some holds) :
    acceptsAll refs ((keyword, argument) :: rest) v =
      (holds argument v && acceptsAll refs rest v) := by
  have hkeyword : keyword ∉ ["properties", "items", "not", "oneOf", "anyOf"] := by
    intro hmem
    have hnone : ∀ key ∈ ["properties", "items", "not", "oneOf", "anyOf"],
        (assertions.lookup key).isNone = true := by decide
    rw [Option.isNone_iff_eq_none.mp (hnone keyword hmem)] at h
    cases h
  rw [acceptsAll_asserts hkeyword, asserts, h]

/-- A schema that is no reference asserts what its keywords do. -/
theorem accepts_object {keywords : Keywords} (h : reference? keywords = none) :
    accepts refs (.object keywords) v = acceptsAll refs keywords v := by
  rw [accepts, h]

/-- A reference to a definition is read as the references are. -/
theorem accepts_ref (name : String) (more : Keywords) :
    accepts refs (ref name more) v = refs ("#/definitions/" ++ name) v := by
  rw [ref, accepts]
  rfl

/-! ## References -/

/-- The schema at the target of a reference: a pointer into the document after a number sign. -/
def referent? (document : Json) (target : String) : Option Json :=
  match target.toList with
  | '#' :: pointer => document.pointer? (String.ofList pointer)
  | _ => none

/-- **Whether references are read as a document has them**: what a reference accepts is what the schema
at its target accepts. -/
def Resolves (document : Json) (refs : String → Json → Bool) : Prop :=
  ∀ target schema, referent? document target = some schema →
    ∀ v, refs target v = accepts refs schema v

/-- What references accept, read through so many references one after the other. -/
def readings (document : Json) : Nat → String → Json → Bool
  | 0, _, _ => false
  | depth + 1, target, v =>
    match referent? document target with
    | some schema => accepts (readings document depth) schema v
    | none => false

mutual

/-- The targets of all references in a value. -/
def targets : Json → List String
  | .object members => memberTargets members
  | .array items => itemTargets items
  | .null | .bool _ | .number _ | .string _ => []

/-- The targets of all references in members. -/
def memberTargets : List (String × Json) → List String
  | [] => []
  | (key, v) :: rest =>
    (if key = "$ref" then v.string?.toList else []) ++ targets v ++ memberTargets rest

/-- The targets of all references in items. -/
def itemTargets : List Json → List String
  | [] => []
  | v :: rest => targets v ++ itemTargets rest

end

/-- Whether every chain of references from a target ends after so many of them. -/
def settles (document : Json) : Nat → String → Bool
  | 0, _ => false
  | depth + 1, target =>
    match referent? document target with
    | some schema => (targets schema).all (settles document depth)
    | none => false

/-! ## One reading of references -/

/-- The target of a schema that is a reference is one of its targets. -/
theorem mem_memberTargets_of_reference? {keywords : Keywords} {target : String}
    (h : reference? keywords = some target) : target ∈ memberTargets keywords := by
  induction keywords with
  | nil => cases h
  | cons m keywords ih =>
    obtain ⟨key, value⟩ := m
    rw [memberTargets, List.append_assoc, List.mem_append]
    rw [reference?, List.lookup_cons] at h
    by_cases hkey : key = "$ref"
    · subst hkey
      rw [if_pos rfl]
      exact .inl (Option.mem_toList.mpr h)
    · have hne : ("$ref" == key) = false := beq_eq_false_iff_ne.mpr fun heq => hkey heq.symm
      rw [hne] at h
      exact .inr (List.mem_append_right _ (ih h))

section Congruence

variable {refs' : String → Json → Bool}

/-- Two readings agree on some targets. -/
def AgreeOn (refs refs' : String → Json → Bool) (some : List String) : Prop :=
  ∀ target ∈ some, ∀ v, refs target v = refs' target v

theorem agreeOn_append {as bs : List String} :
    AgreeOn refs refs' (as ++ bs) ↔ AgreeOn refs refs' as ∧ AgreeOn refs refs' bs :=
  List.forall_mem_append

mutual

/-- **What a schema accepts depends on its references only.** -/
theorem accepts_congr : ∀ (schema v : Json), AgreeOn refs refs' (targets schema) →
    accepts refs schema v = accepts refs' schema v
  | .object keywords, v, h => by
    rw [targets] at h
    rw [accepts, accepts]
    cases hreference : reference? keywords with
    | none => exact acceptsAll_congr keywords v h
    | some target => exact h target (mem_memberTargets_of_reference? hreference) v
  | .bool _, _, _ => by rw [accepts, accepts]
  | .null, _, _ | .number _, _, _ | .string _, _, _ | .array _, _, _ => by simp [accepts]

theorem acceptsAll_congr : ∀ (keywords : Keywords) (v : Json),
    AgreeOn refs refs' (memberTargets keywords) →
      acceptsAll refs keywords v = acceptsAll refs' keywords v
  | [], _, _ => by rw [acceptsAll, acceptsAll]
  | (keyword, argument) :: rest, v, h => by
    rw [memberTargets, agreeOn_append, agreeOn_append] at h
    obtain ⟨⟨-, hargument⟩, hrest⟩ := h
    have hitems : (itemsIn v).all (fun item => accepts refs argument item) =
        (itemsIn v).all (fun item => accepts refs' argument item) := by
      simp only [fun item => accepts_congr argument item hargument]
    rw [acceptsAll, acceptsAll, acceptsProperties_congr argument v hargument, hitems,
      accepts_congr argument v hargument, branches_congr argument v hargument,
      acceptsAll_congr rest v hrest]

theorem acceptsProperties_congr : ∀ (argument v : Json), AgreeOn refs refs' (targets argument) →
    acceptsProperties refs argument v = acceptsProperties refs' argument v
  | .object properties, v, h => by
    rw [targets] at h
    rw [acceptsProperties, acceptsProperties, acceptsMembers_congr properties v h]
  | .null, _, _ | .bool _, _, _ | .number _, _, _ | .string _, _, _ | .array _, _, _ => by
    simp [acceptsProperties]

theorem acceptsMembers_congr : ∀ (properties : List (String × Json)) (v : Json),
    AgreeOn refs refs' (memberTargets properties) →
      acceptsMembers refs properties v = acceptsMembers refs' properties v
  | [], _, _ => by rw [acceptsMembers, acceptsMembers]
  | (key, schema) :: rest, v, h => by
    rw [memberTargets, agreeOn_append, agreeOn_append] at h
    obtain ⟨⟨-, hschema⟩, hrest⟩ := h
    rw [acceptsMembers, acceptsMembers, acceptsMembers_congr rest v hrest]
    cases v.get? key with
    | none => rfl
    | some w => exact congrArg (· && _) (accepts_congr schema w hschema)

theorem branches_congr : ∀ (argument v : Json), AgreeOn refs refs' (targets argument) →
    branches refs argument v = branches refs' argument v
  | .array schemas, v, h => by
    rw [targets] at h
    rw [branches, branches, acceptsEach_congr schemas v h]
  | .null, _, _ | .bool _, _, _ | .number _, _, _ | .string _, _, _ | .object _, _, _ => by
    simp [branches]

theorem acceptsEach_congr : ∀ (schemas : List Json) (v : Json),
    AgreeOn refs refs' (itemTargets schemas) →
      acceptsEach refs schemas v = acceptsEach refs' schemas v
  | [], _, _ => by rw [acceptsEach, acceptsEach]
  | schema :: rest, v, h => by
    rw [itemTargets, agreeOn_append] at h
    rw [acceptsEach, acceptsEach, accepts_congr schema v h.1, acceptsEach_congr rest v h.2]

end

end Congruence

variable {document : Json}

/-- A target that settles leads to a schema, all of whose references settle one step earlier. -/
theorem exists_of_settles {depth : Nat} {target : String}
    (h : settles document (depth + 1) target = true) :
    ∃ schema, referent? document target = some schema ∧
      ∀ next ∈ targets schema, settles document depth next = true := by
  rw [settles] at h
  split at h
  · rename_i schema hschema
    exact ⟨schema, hschema, List.all_eq_true.mp h⟩
  · cases h

/-- Reading deeper does not change what a target that has settled accepts. -/
theorem readings_succ {depth : Nat} {target : String} (h : settles document depth target = true)
    (v : Json) : readings document (depth + 1) target v = readings document depth target v := by
  induction depth generalizing target v with
  | zero => cases h
  | succ depth ih =>
    obtain ⟨schema, hschema, hnext⟩ := exists_of_settles h
    rw [readings, readings, hschema]
    exact accepts_congr schema v fun next hmem w => ih (hnext next hmem) w

theorem mem_memberTargets {members : List (String × Json)} {m : String × Json} (h : m ∈ members)
    {target : String} (htarget : target ∈ targets m.2) : target ∈ memberTargets members := by
  induction members with
  | nil => cases h
  | cons n members ih =>
    rw [memberTargets, List.mem_append, List.mem_append]
    rcases List.mem_cons.mp h with rfl | h
    · exact .inl (.inr htarget)
    · exact .inr (ih h)

theorem mem_itemTargets {items : List Json} (h : v ∈ items) {target : String}
    (htarget : target ∈ targets v) : target ∈ itemTargets items := by
  induction items with
  | nil => cases h
  | cons item items ih =>
    rw [itemTargets, List.mem_append]
    rcases List.mem_cons.mp h with rfl | h
    · exact .inl htarget
    · exact .inr (ih h)

/-- What a pointer leads to has no references but those of the document. -/
theorem targets_of_follow? {schema : Json} {steps : List (List Char)}
    (h : document.follow? steps = some schema) :
    ∀ target ∈ targets schema, target ∈ targets document := by
  intro target htarget
  fun_induction Json.follow? document steps with
  | case1 v =>
    cases h
    exact htarget
  | case2 members step rest inner hinner ih =>
    rw [targets]
    exact mem_memberTargets (Json.mem_of_lookup hinner) (ih h)
  | case3 => cases h
  | case4 items step rest inner hinner ih =>
    obtain ⟨i, -, hi⟩ := Option.bind_eq_some_iff.mp hinner
    rw [targets]
    exact mem_itemTargets (List.mem_of_getElem? hi) (ih h)
  | case5 => cases h
  | case6 => cases h

/-- What a reference leads to has no references but those of the document. -/
theorem targets_of_referent? {schema : Json} {target : String}
    (h : referent? document target = some schema) :
    ∀ next ∈ targets schema, next ∈ targets document := by
  unfold referent? at h
  split at h
  · unfold Json.pointer? at h
    split at h
    · cases h
      exact fun _ hnext => hnext
    · exact targets_of_follow? h
    · cases h
  · cases h

/-- **The references of a document can be read** if every chain of them ends. -/
theorem resolves_readings {depth : Nat}
    (h : ∀ target ∈ targets document, settles document depth target = true) :
    Resolves document (readings document (depth + 1)) := by
  intro target schema hschema v
  rw [readings, hschema]
  refine accepts_congr schema v fun next hnext w => (readings_succ (h next ?_) w).symm
  exact targets_of_referent? hschema next hnext

/-- There is no other way to read a reference that has settled. -/
theorem Resolves.eq_readings (hrefs : Resolves document refs) {depth : Nat} {target : String}
    (h : settles document depth target = true) (v : Json) :
    refs target v = readings document depth target v := by
  induction depth generalizing target v with
  | zero => cases h
  | succ depth ih =>
    obtain ⟨schema, hschema, hnext⟩ := exists_of_settles h
    rw [hrefs target schema hschema, readings, hschema]
    exact accepts_congr schema v fun next hmem w => ih (hnext next hmem) w

end Schema

end StatementPress
