import StatementPress.Binary64.Shortest
import StatementPress.Json.Basic
import StatementPress.Text.Digits

/-!
# Writing JSON

The compact text of a value: no blanks, members in order.  Doubles are written with the fewest
digits that read back, always recognisable as doubles: positional with a point between `1e-5` and
`1e16`, scientific outside.
-/

namespace StatementPress.Json

/-- The text of a finite double. -/
def doubleText (x : Binary64) : String :=
  let d := x.shortest .even
  let plain := x.isZero || (-5 < d.point && d.point ≤ 16)
  let body := if plain then d.positional ['.', '0'] else d.scientific
  String.ofList (if x.negative then '-' :: body else body)

/-- The text of a number. -/
def Number.text : Number → String
  | .whole i => Text.signedDecimal i
  | .double x _ => doubleText x

/-- One character inside the quotation marks of a string. -/
def escapeChar (c : Char) : List Char :=
  if c = '"' then ['\\', '"']
  else if c = '\\' then ['\\', '\\']
  else if c = '\x08' then ['\\', 'b']
  else if c = '\x0c' then ['\\', 'f']
  else if c = '\n' then ['\\', 'n']
  else if c = '\r' then ['\\', 'r']
  else if c = '\t' then ['\\', 't']
  else if c.toNat < 0x20 then
    ['\\', 'u', '0', '0', Nat.digitChar (c.toNat / 16), Nat.digitChar (c.toNat % 16)]
  else [c]

/-- A string between its quotation marks. -/
def stringText (s : String) : String :=
  String.ofList ('"' :: (s.toList.flatMap escapeChar ++ ['"']))

mutual

/-- The compact text of a value. -/
def text : Json → String
  | .null => "null"
  | .bool true => "true"
  | .bool false => "false"
  | .number n => n.text
  | .string s => stringText s
  | .array items => "[" ++ itemsText items ++ "]"
  | .object members => "\x7b" ++ membersText members ++ "\x7d"

/-- The items of an array, separated by commas. -/
def itemsText : List Json → String
  | [] => ""
  | [item] => text item
  | item :: rest => text item ++ "," ++ itemsText rest

/-- The members of an object, separated by commas. -/
def membersText : List (String × Json) → String
  | [] => ""
  | [(k, v)] => stringText k ++ ":" ++ text v
  | (k, v) :: rest => stringText k ++ ":" ++ text v ++ "," ++ membersText rest

end

end StatementPress.Json
