import StatementPress.Json.Basic

/-!
# Decoding values

A decoder takes a value as a tree into a type of its own, or refuses it.  The rules are those of
reading from a text: a record is an object in which none of its fields occurs twice, or an array
with its fields in their order, and a required field may not be absent.
-/

namespace StatementPress.Json

variable {α : Type}

/-- The values of the fields `names` of a record. -/
def fields? (names : List String) : Json → Option (String → Option Json)
  | .object members =>
    if names.any fun name => 1 < members.countP (·.1 == name) then none
    else some fun name => members.lookup name
  | .array items =>
    if items.length ≤ names.length then some fun name => (names.zip items).lookup name else none
  | _ => none

/-- Decodes a field that has to be there. -/
def required (field : Option Json) (decode : Json → Option α) : Option α := field.bind decode

/-- Decodes a field that may be absent. -/
def optional (field : Option Json) (default : α) (decode : Json → Option α) : Option α :=
  match field with
  | none => some default
  | some v => decode v

/-- Decodes a value that may be `null`. -/
def nullable? (decode : Json → Option α) : Json → Option (Option α)
  | .null => some none
  | v => (decode v).map some

/-- Decodes a double. -/
def double? : Json → Option Binary64
  | .number n => some n.toBinary64
  | _ => none

/-- Decodes a natural number below a limit. -/
def natural? (limit : Nat) : Json → Option Nat
  | .number (.whole i) => if 0 ≤ i ∧ i < limit then some i.toNat else none
  | _ => none

/-- Decodes an array. -/
def list? (decode : Json → Option α) : Json → Option (List α)
  | .array items => items.mapM decode
  | _ => none

/-- Decodes one of several named choices: a name, or an object with the name as its only key and
nothing as its value. -/
def choice? (choices : List (String × α)) : Json → Option α
  | .string name => choices.lookup name
  | .object [(name, .null)] => choices.lookup name
  | .object [(name, .object [])] => choices.lookup name
  | _ => none

end StatementPress.Json
