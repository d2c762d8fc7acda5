import StatementPress.Json.Printer
import StatementPress.Text.Place
import StatementPress.Text.Quoted

/-!
# What can be wrong with a JSON text

`Problem` lists the faults that stop a reading: faults of the text, and faults of data where a
reading of a particular type meets a value of another.  A `ReadError` is a problem with the place
where it was found, if it has one.
-/

namespace StatementPress.Json

/-- What a reading met instead of the type that it expected. -/
inductive Met where
  | null
  | bool (b : Bool)
  | number (n : Number)
  | string (s : String)
  | array
  | object

/-- The description of a met value in a message. -/
def Met.text : Met → String
  | .null => "null"
  | .bool true => "boolean `true`"
  | .bool false => "boolean `false`"
  | .number (.whole i) => "integer `" ++ Text.signedDecimal i ++ "`"
  | .number (.double x _) => "floating point `" ++ doubleText x ++ "`"
  | .string s => "string " ++ Text.quoted s
  | .array => "sequence"
  | .object => "map"

/-- A fault that stops a reading. -/
inductive Problem where
  | endInArray
  | endInObject
  | endInString
  /-- The text ends where a value should stand. -/
  | endInValue
  /-- No colon after a key. -/
  | expectedColon
  | expectedCommaOrEndOfArray
  | expectedCommaOrEndOfObject
  /-- A word other than `null`, `true` and `false`. -/
  | expectedWord
  | expectedValue
  | invalidEscape
  | invalidNumber
  /-- A number beyond the doubles. -/
  | numberOutOfRange
  /-- A bare control character in a string. -/
  | controlCharacter
  | keyMustBeString
  /-- Half of a surrogate pair. -/
  | loneSurrogate
  | trailingComma
  | trailingCharacters
  /-- The second half of a surrogate pair is not an escape. -/
  | unexpectedEndOfEscape
  /-- Too many arrays and objects inside each other. -/
  | tooDeep
  | invalidType (met : Met) (expected : String)
  /-- A whole number outside the range of its field. -/
  | invalidValue (i : Int) (expected : String)
  /-- An array with too few items for a record. -/
  | invalidLength (found : Nat) (title : String) (fields : Nat)
  | missingField (name : String)
  | duplicateField (name : String)
  | unknownName (name : String) (allowed : List String)
  /-- A value that fits no case of a union. -/
  | noCase (union : String)

/-- The names of a list for a message, each between grave accents. -/
def alternatives : List String → String
  | [] => "there are no variants"
  | [a] => "expected `" ++ a ++ "`"
  | [a, b] => "expected `" ++ a ++ "` or `" ++ b ++ "`"
  | names => "expected one of " ++ ", ".intercalate (names.map fun n => "`" ++ n ++ "`")

/-- The wording of a problem. -/
def Problem.message : Problem → String
  | .endInArray => "EOF while parsing a list"
  | .endInObject => "EOF while parsing an object"
  | .endInString => "EOF while parsing a string"
  | .endInValue => "EOF while parsing a value"
  | .expectedColon => "expected `:`"
  | .expectedCommaOrEndOfArray => "expected `,` or `]`"
  | .expectedCommaOrEndOfObject => "expected `,` or `\x7d`"
  | .expectedWord => "expected ident"
  | .expectedValue => "expected value"
  | .invalidEscape => "invalid escape"
  | .invalidNumber => "invalid number"
  | .numberOutOfRange => "number out of range"
  | .controlCharacter => "control character (\\u0000-\\u001F) found while parsing a string"
  | .keyMustBeString => "key must be a string"
  | .loneSurrogate => "lone leading surrogate in hex escape"
  | .trailingComma => "trailing comma"
  | .trailingCharacters => "trailing characters"
  | .unexpectedEndOfEscape => "unexpected end of hex escape"
  | .tooDeep => "recursion limit exceeded"
  | .invalidType met expected => "invalid type: " ++ met.text ++ ", expected " ++ expected
  | .invalidValue i expected =>
    "invalid value: integer `" ++ Text.signedDecimal i ++ "`, expected " ++ expected
  | .invalidLength found title fields =>
    "invalid length " ++ Text.decimal found ++ ", expected struct " ++ title ++ " with " ++
      Text.decimal fields ++ (if fields = 1 then " element" else " elements")
  | .missingField name => "missing field `" ++ name ++ "`"
  | .duplicateField name => "duplicate field `" ++ name ++ "`"
  | .unknownName name allowed => "unknown variant `" ++ name ++ "`, " ++ alternatives allowed
  | .noCase union => "data did not match any variant of untagged enum " ++ union

/-- Why a text could not be read, and where. -/
structure ReadError where
  problem : Problem
  /-- The place, unless the fault has none of its own. -/
  place : Option Text.Place

/-- The wording of a read error. -/
def ReadError.message (e : ReadError) : String :=
  match e.place with
  | none => e.problem.message
  | some p => e.problem.message ++ " at line " ++ Text.decimal p.line ++ " column " ++
      Text.decimal p.column

end StatementPress.Json
