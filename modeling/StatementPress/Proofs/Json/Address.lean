import StatementPress.Proofs.Json.Normal

/-!
# Addresses in values

An address leads from a value into it: step by step, to the member of an object with a key or to the
item of an array with an index.  `at?` is what stands at an address, if it leads anywhere, and `put`
puts another value there and leaves everything else as it is.
-/

namespace StatementPress.Json

/-- A step into a value. -/
inductive Step where
  /-- To the member of an object with a key. -/
  | key (name : String)
  /-- To the item of an array with an index. -/
  | index (i : Nat)
  deriving DecidableEq

/-- A way into a value, step by step. -/
abbrev Address := List Step

/-- What is one step into a value. -/
def step? : Json → Step → Option Json
  | v, .key name => v.get? name
  | .array items, .index i => items[i]?
  | _, .index _ => none

/-- What stands at an address. -/
def at? (v : Json) (address : Address) : Option Json := address.foldlM step? v

/-- Whether a value can be stepped into: an object with any key, an array with the index of an
item. -/
def IsContainer : Step → Json → Prop
  | .key _, v => ∃ members, v = .object members
  | .index i, v => ∃ items, v = .array items ∧ i < items.length

/-- Members with another value under a key they have. -/
def putMember (key : String) (w : Json) : List (String × Json) → List (String × Json)
  | [] => []
  | (k, v) :: rest => if key = k then (k, w) :: rest else (k, v) :: putMember key w rest

/-- A value with another one a step into it; a step that leads nowhere changes nothing. -/
def putStep : Json → Step → Json → Json
  | .object members, .key name, w => .object (putMember name w members)
  | .array items, .index i, w => .array (items.set i w)
  | v, _, _ => v

/-- A value with another one at an address; an address that leads nowhere changes nothing. -/
def put : Json → Address → Json → Json
  | _, [], w => w
  | v, step :: rest, w =>
    match v.step? step with
    | some inner => v.putStep step (inner.put rest w)
    | none => v

variable {v w inner old : Json} {a b : Address} {step : Step} {key name : String}

@[simp] theorem at?_nil (v : Json) : v.at? [] = some v := rfl

@[simp] theorem at?_cons (v : Json) (step : Step) (a : Address) :
    v.at? (step :: a) = (v.step? step).bind fun inner => inner.at? a := List.foldlM_cons

@[simp] theorem at?_singleton (v : Json) (step : Step) : v.at? [step] = v.step? step := by
  rw [at?_cons]
  cases v.step? step <;> rfl

/-- Addresses are followed one after the other. -/
theorem at?_append (v : Json) (a b : Address) :
    v.at? (a ++ b) = (v.at? a).bind fun inner => inner.at? b := List.foldlM_append

/-! ## What is put -/

/-- Replacing a member changes what stands under its key and nothing else. -/
theorem lookup_putMember {members : List (String × Json)} (h : members.lookup key = some old)
    (w : Json) (name : String) :
    (putMember key w members).lookup name = if name = key then some w else members.lookup name := by
  induction members with
  | nil => cases h
  | cons m rest ih =>
    rw [List.lookup_cons] at h
    rw [putMember]
    by_cases hkey : key = m.1
    · rw [if_pos hkey, List.lookup_cons, List.lookup_cons, ← hkey]
      by_cases hname : name = key
      · simp [hname]
      · rw [if_neg hname, beq_eq_false_iff_ne.mpr hname]
    · rw [beq_eq_false_iff_ne.mpr hkey] at h
      rw [if_neg hkey, List.lookup_cons, List.lookup_cons, ih h]
      by_cases hname : name = m.1
      · have hother : name ≠ key := fun heq => hkey (heq.symm.trans hname)
        simp only [if_neg hother]
      · rw [beq_eq_false_iff_ne.mpr hname]

/-- Of two replacements under one key the later one counts. -/
theorem putMember_putMember (key : String) (x w : Json) (members : List (String × Json)) :
    putMember key w (putMember key x members) = putMember key w members := by
  induction members with
  | nil => rfl
  | cons m rest ih =>
    by_cases hkey : key = m.1
    · simp [putMember, hkey]
    · simp [putMember, hkey, ih]

theorem putMember_self {members : List (String × Json)} (h : members.lookup key = some old) :
    putMember key old members = members := by
  induction members with
  | nil => rfl
  | cons m rest ih =>
    rw [List.lookup_cons] at h
    by_cases hkey : key = m.1
    · simp only [hkey, beq_self_eq_true, Option.some.injEq] at h
      rw [putMember, if_pos hkey, ← h]
    · rw [beq_eq_false_iff_ne.mpr hkey] at h
      rw [putMember, if_neg hkey, ih h]

/-- What is put a step into a value is found there. -/
theorem step?_putStep (h : v.step? step = some old) (w : Json) :
    (v.putStep step w).step? step = some w := by
  cases step with
  | key name =>
    cases v with
    | object members =>
      rw [putStep, step?, get?, lookup_putMember h, if_pos rfl]
    | _ => cases h
  | index i =>
    cases v with
    | array items =>
      obtain ⟨hi, -⟩ := List.getElem?_eq_some_iff.mp h
      rw [putStep, step?, List.getElem?_set_self hi]
    | _ => cases h

theorem putStep_putStep (v : Json) (step : Step) (x w : Json) :
    (v.putStep step x).putStep step w = v.putStep step w := by
  cases step with
  | key name =>
    cases v with
    | object members => simp [putStep, putMember_putMember]
    | _ => rfl
  | index i =>
    cases v with
    | array items => simp [putStep]
    | _ => rfl

/-- Putting back what stands there changes nothing. -/
theorem putStep_self (h : v.step? step = some old) : v.putStep step old = v := by
  cases step with
  | key name =>
    cases v with
    | object members => rw [putStep, putMember_self h]
    | _ => cases h
  | index i =>
    cases v with
    | array items =>
      obtain ⟨hi, rfl⟩ := List.getElem?_eq_some_iff.mp h
      rw [putStep, List.set_getElem_self]
    | _ => cases h

theorem put_cons (h : v.step? step = some inner) (a : Address) (w : Json) :
    v.put (step :: a) w = v.putStep step (inner.put a w) := by
  rw [put, h]

theorem exists_of_at?_cons (h : v.at? (step :: a) = some old) :
    ∃ inner, v.step? step = some inner ∧ inner.at? a = some old := by
  rw [at?_cons] at h
  exact Option.bind_eq_some_iff.mp h

/-- **Only what was put last counts.** -/
theorem put_put (h : v.at? a = some old) (x w : Json) : (v.put a x).put a w = v.put a w := by
  induction a generalizing v with
  | nil => rfl
  | cons step a ih =>
    obtain ⟨inner, hinner, hold⟩ := exists_of_at?_cons h
    rw [put_cons hinner, put_cons (step?_putStep hinner _), put_cons hinner, putStep_putStep,
      ih hold]

/-- **Putting back what stands at an address changes nothing.** -/
theorem put_self (h : v.at? a = some old) : v.put a old = v := by
  induction a generalizing v with
  | nil => exact (Option.some.inj h).symm
  | cons step a ih =>
    obtain ⟨inner, hinner, hold⟩ := exists_of_at?_cons h
    rw [put_cons hinner, ih hold, putStep_self hinner]

/-! ## Values that differ at one address -/

/-- Whether two values have something at an address and are the same everywhere else: with the same put
there, they are the same. -/
structure DifferAt (a : Address) (v v' old new : Json) : Prop where
  left : v.at? a = some old
  right : v'.at? a = some new
  same : v.put a .null = v'.put a .null

/-- Values that differ at one address differ by a replacement there. -/
theorem DifferAt.eq_put {v' new : Json} (h : DifferAt a v v' old new) : v' = v.put a new :=
  calc v' = v'.put a new := (put_self h.right).symm
    _ = (v'.put a .null).put a new := (put_put h.right .null new).symm
    _ = (v.put a .null).put a new := by rw [h.same]
    _ = v.put a new := put_put h.left .null new

end StatementPress.Json
