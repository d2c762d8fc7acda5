import StatementPress.Json.Skip

/-!
# Reading values of a known type

A `Typed α` reads a text straight into an `α`, so that a value of the wrong type is reported where
it stands, ahead of whatever is wrong with the text behind it.

The main combinator is `record`.  A record is written as an object with its fields in any order, or
as an array with its fields in their order.  Reading starts from a record that holds the defaults,
and each field read updates it.  A required field may not be absent, and no field may occur twice.
Members that are no field are passed over, or handed to the record if it is `Open`.
-/

namespace StatementPress.Json

/-- A reader that takes the nesting still allowed. -/
abbrev Typed (α : Type) := Nat → Reader α

namespace Typed

open Reader

variable {α β σ : Type}

/-- Applies a function to what is read. -/
protected def map (f : α → β) (t : Typed α) : Typed β := fun room => do
  let a ← t room
  pure (f a)

/-- Reads a scalar, or recognises an array or object without entering it. -/
def meet (c : Char) : Reader Met :=
  if c = '[' then pure .array
  else if c = '\x7b' then pure .object
  else do
    match ← scalar c with
    | .bool b => pure (.bool b)
    | .number n => pure (.number n)
    | .string s => pure (.string s)
    | _ => pure .null

/-- Fails on a value that starts with `c`, where another type was expected. -/
def mismatch (c : Char) (expected : String) : Reader α := settle do
  let met ← meet c
  failFloating (.invalidType met expected)

/-- Enters an array or object: one level less is left inside. -/
def nested (inside : Nat → Reader α) : Typed α
  | 0 => failNext .tooDeep
  | room + 1 => do
    skip
    inside room

/-- Reads a string. -/
def string : Typed String := fun _ => do
  let c ← peekOr .endInValue
  if c = '"' then do
    skip
    stringBody
  else mismatch c "a string"

/-- Reads a number and what it stands for; `expected` names what is wanted. -/
def numeric (expected : String) (accept : Number → Except Problem α) : Typed α := fun _ => do
  let c ← peekOr .endInValue
  if c = '-' ∨ c.isDigit then settle do
    let n ← Reader.number
    match accept n with
    | .ok a => pure a
    | .error problem => failFloating problem
  else mismatch c expected

/-- Reads a double. -/
def double : Typed Binary64 := numeric "f64" fun n => .ok n.toBinary64

/-- Reads a natural number below a limit; `expected` names the type of its field. -/
def natural (limit : Nat) (expected : String) : Typed Nat := numeric expected fun
  | .whole i =>
    if 0 ≤ i ∧ i < limit then .ok i.toNat else .error (.invalidValue i expected)
  | .double x h => .error (.invalidType (.number (.double x h)) expected)

/-- Reads a value that may be `null`. -/
def nullable (t : Typed α) : Typed (Option α) := fun room => do
  match ← peek with
  | some 'n' => do
    word ['n', 'u', 'l', 'l']
    pure none
  | _ => do
    let a ← t room
    pure (some a)

/-- Reads an array. -/
def list (t : Typed α) : Typed (List α) := fun room => do
  let c ← peekOr .endInValue
  if c = '[' then
    nested (fun room => closing closeArray (bounded (items (t room)))) room
  else mismatch c "a sequence"

/-! ## Choices -/

/-- Reads the name of a choice, from its opening quotation mark. -/
def choiceName (choices : List (String × α)) : Reader α := settle do
  skip
  let name ← stringBody
  match choices.lookup name with
  | some a => pure a
  | none => failFloating (.unknownName name (choices.map (·.1)))

/-- Reads the name of a choice as the first key of an object. -/
def choiceKey (choices : List (String × α)) : Reader α := do
  let c ← peekOr .endInValue
  if c = '"' then choiceName choices
  else if c = '\x7d' then failNext .expectedValue
  else failNext .keyMustBeString

/-- Reads the `null` that stands for a choice without content. -/
def noContent : Reader Unit := do
  let c ← peekOr .endInValue
  if c = 'n' then word ['n', 'u', 'l', 'l'] else mismatch c "unit"

/-- Reads one of several named choices: a name, or an object with the name as its only key and
`null` as its value. -/
def choice (choices : List (String × α)) : Typed α := fun room => do
  let c ← peekOr .endInValue
  if c = '\x7b' then
    nested (fun _ => do
      let a ← choiceKey choices
      colon
      noContent
      match ← peek with
      | some '\x7d' => do
        skip
        pure a
      | some _ => failHere .expectedValue
      | none => failHere .endInObject) room
  else if c = '"' then choiceName choices
  else failNext .expectedValue

/-! ## Records -/

/-- A field of a record `σ`. -/
structure Field (σ : Type) where
  name : String
  isRequired : Bool
  /-- Reads the value of the field, as an update of the record. -/
  read : Typed (σ → σ)

/-- A field that has to be there. -/
def Field.required (name : String) (t : Typed α) (set : α → σ → σ) : Field σ :=
  ⟨name, true, t.map set⟩

/-- A field that may be absent. -/
def Field.optional (name : String) (t : Typed α) (set : α → σ → σ) : Field σ :=
  ⟨name, false, t.map set⟩

/-- What a record does with members that are none of its fields. -/
inductive Others (σ : Type) where
  /-- They are passed over. -/
  | passed
  /-- They are read and kept. -/
  | kept (keep : String → Json → σ → σ)

/-- Reads the fields of a record from the items of an array.  `total` is their number, and `done`
of them have been read. -/
def positional (title : String) (total : Nat) (room : Nat) :
    List (Field σ) → Nat → σ → Reader σ
  | [], _, record => pure record
  | field :: fields, done, record => do
    if ← nextItem (done = 0) then do
      let update ← field.read room
      positional title total room fields (done + 1) (update record)
    else if field.isRequired then failFloating (.invalidLength done title total)
    else positional title total room fields (done + 1) record

/-- Reads the fields of a record from the members of an object, `seen` of which were read before.
`fuel` bounds the number of members. -/
def keyed (fields : List (Field σ)) (others : Others σ) (room : Nat) :
    Nat → Bool → List String → σ → Reader σ
  | 0, _, _, _ => failNext .endInObject
  | fuel + 1, first, seen, record => do
    if ← nextKey first then do
      let k ← key
      match fields.find? (·.name == k) with
      | some field =>
        if seen.contains k then failFloating (.duplicateField k)
        else do
          colon
          let update ← field.read room
          keyed fields others room fuel false (k :: seen) (update record)
      | none => do
        colon
        match others with
        | .passed => do
          pass
          keyed fields others room fuel false seen record
        | .kept keep => do
          let v ← value room
          keyed fields others room fuel false seen (keep k v record)
    else
      match fields.find? fun field => field.isRequired && !seen.contains field.name with
      | some field => failFloating (.missingField field.name)
      | none => pure record

/-- Reads the inside of an object into a record. -/
def keyedBody (fields : List (Field σ)) (others : Others σ) (start : σ) (room : Nat) :
    Reader σ := do
  let s ← get
  keyed fields others room (s.length + 1) true [] start

/-- Reads a record from an object or an array.  `start` holds the defaults. -/
def record (title : String) (start : σ) (fields : List (Field σ)) : Typed σ := fun room => do
  let c ← peekOr .endInValue
  if c = '[' then
    nested (fun room =>
      closing closeArray (positional title fields.length room fields 0 start)) room
  else if c = '\x7b' then
    nested (fun room => closing closeObject (keyedBody fields .passed start room)) room
  else mismatch c ("struct " ++ title)

/-- Reads a record that keeps the members it does not know; it is never written as an array. -/
def openRecord (title : String) (start : σ) (fields : List (Field σ))
    (keep : String → Json → σ → σ) : Typed σ := fun room => do
  let c ← peekOr .endInValue
  if c = '\x7b' then
    nested (fun room => closing closeObject (keyedBody fields (.kept keep) start room)) room
  else mismatch c ("struct " ++ title)

/-- Reads any value and decodes it.  A value that does not fit is a fault without a place. -/
def decoded (union : String) (decode : Json → Option α) : Typed α := fun room => do
  let v ← value room
  match decode v with
  | some a => pure a
  | none => failFloating (.noCase union)

end Typed

end StatementPress.Json
