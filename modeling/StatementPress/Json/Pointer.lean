import StatementPress.Json.Basic
import StatementPress.Payload.Path

/-!
# Pointers into values

A pointer is empty, for the value itself, or a list of steps with a slash before each.  In a step
`~1` stands for a slash and `~0` for a tilde.  A step into an array is an index without leading zeros.
-/

namespace StatementPress.Json

/-- The text of a step, its escapes resolved. -/
def pointerStep : List Char → List Char
  | '~' :: '1' :: rest => '/' :: pointerStep rest
  | '~' :: '0' :: rest => '~' :: pointerStep rest
  | c :: rest => c :: pointerStep rest
  | [] => []

/-- The index that a step names. -/
def pointerIndex? (step : List Char) : Option Nat :=
  if step.isEmpty ∨ !step.all Char.isDigit ∨ (1 < step.length ∧ step.head? = some '0') then none
  else some (Text.numberOf 10 step)

/-- The value that a list of steps leads to. -/
def follow? : Json → List (List Char) → Option Json
  | v, [] => some v
  | .object members, step :: rest =>
    match members.lookup (String.ofList (pointerStep step)) with
    | some v => v.follow? rest
    | none => none
  | .array items, step :: rest =>
    match (pointerIndex? step).bind (items[·]?) with
    | some v => v.follow? rest
    | none => none
  | _, _ :: _ => none

/-- The value that a pointer leads to. -/
def pointer? (v : Json) (pointer : String) : Option Json :=
  match pointer.toList with
  | [] => some v
  | '/' :: rest => v.follow? (Path.split rest)
  | _ => none

end StatementPress.Json
