import StatementPress.Json.Numeral

/-!
# Reading values

Arrays and objects are read item by item.  When the reading inside one stops with a fault of data,
the enclosing array or object still passes its closing bracket if it stands there, and the fault is
reported at the place reached (`closing`).

Arrays and objects may stand inside each other up to `maxNesting` deep.  The reader of values
recurses on the nesting that is still allowed, so the bound is also the reason why it ends.
-/

namespace StatementPress.Json

namespace Reader

variable {α : Type}

/-- How many arrays and objects may stand inside each other. -/
def maxNesting : Nat := 127

/-! ## Closing -/

/-- Passes the end of an array: the rest, and the fault if the end does not stand there. -/
def closeArray (s : List Char) : List Char × Option Problem :=
  match s.dropWhile isSpace with
  | ']' :: rest => (rest, none)
  | ',' :: rest =>
    let rest := rest.dropWhile isSpace
    (rest, if rest.head? = some ']' then some .trailingComma else some .trailingCharacters)
  | [] => ([], some .endInArray)
  | rest => (rest, some .trailingCharacters)

/-- Passes the end of an object: the rest, and the fault if the end does not stand there. -/
def closeObject (s : List Char) : List Char × Option Problem :=
  match s.dropWhile isSpace with
  | '\x7d' :: rest => (rest, none)
  | ',' :: rest => (',' :: rest, some .trailingComma)
  | [] => ([], some .endInObject)
  | rest => (rest, some .trailingCharacters)

/-- Reads the inside of an array or object and then its end. -/
def closing (close : List Char → List Char × Option Problem) (inside : Reader α) : Reader α :=
  fun s =>
    match inside s with
    | .ok (a, rest) =>
      match close rest with
      | (rest, none) => .ok (a, rest)
      | (rest, some problem) => .error (.placed problem rest 1)
    | .error (.floating problem rest) => .error (.placed problem (close rest).1 0)
    | .error failure => .error failure

/-! ## Items and members -/

/-- Goes to the next item of an array; false at its end. -/
def nextItem (first : Bool) : Reader Bool := do
  let c ← peekOr .endInArray
  if c = ']' then pure false
  else if first then pure true
  else if c = ',' then do
    skip
    let c ← peekOr .endInValue
    if c = ']' then failNext .trailingComma else pure true
  else failNext .expectedCommaOrEndOfArray

/-- Goes to the next key of an object; false at its end. -/
def nextKey (first : Bool) : Reader Bool := do
  let c ← peekOr .endInObject
  if c = '\x7d' then pure false
  else if first then
    if c = '"' then pure true else failNext .keyMustBeString
  else if c = ',' then do
    skip
    let c ← peekOr .endInValue
    if c = '"' then pure true
    else if c = '\x7d' then failNext .trailingComma
    else failNext .keyMustBeString
  else failNext .expectedCommaOrEndOfObject

/-- Reads a key, from its opening quotation mark. -/
def key : Reader String := do
  skip
  stringBody

/-- Passes the colon after a key. -/
def colon : Reader Unit := do
  let c ← peekOr .endInObject
  if c = ':' then skip else failNext .expectedColon

/-- Reads the items of an array up to its end.  `fuel` bounds their number. -/
def items (item : Reader α) : Nat → Bool → Reader (List α)
  | 0, _ => failNext .endInArray
  | fuel + 1, first => do
    if ← nextItem first then do
      let a ← item
      let rest ← items item fuel false
      pure (a :: rest)
    else pure []

/-- Reads the members of an object up to its end.  `fuel` bounds their number. -/
def members (value : Reader α) : Nat → Bool → Reader (List (String × α))
  | 0, _ => failNext .endInObject
  | fuel + 1, first => do
    if ← nextKey first then do
      let k ← key
      colon
      let v ← value
      let rest ← members value fuel false
      pure ((k, v) :: rest)
    else pure []

/-- Reads the whole inside of an array or object with a reader that takes a bound on the number of
its parts. -/
def bounded (inside : Nat → Bool → Reader α) : Reader α := do
  let s ← get
  inside (s.length + 1) true

/-! ## Values -/

/-- Reads a value that is neither array nor object. -/
def scalar (c : Char) : Reader Json :=
  match c with
  | 'n' => do
    word ['n', 'u', 'l', 'l']
    pure .null
  | 't' => do
    word ['t', 'r', 'u', 'e']
    pure (.bool true)
  | 'f' => do
    word ['f', 'a', 'l', 's', 'e']
    pure (.bool false)
  | '"' => do
    skip
    let s ← stringBody
    pure (.string s)
  | c =>
    if c = '-' ∨ c.isDigit then do
      let n ← number
      pure (.number n)
    else failNext .expectedValue

/-- Reads a value.  The first argument is the nesting that is still allowed. -/
def value : Nat → Reader Json
  | 0 => do
    let c ← peekOr .endInValue
    if c = '[' ∨ c = '\x7b' then failNext .tooDeep else scalar c
  | room + 1 => do
    let c ← peekOr .endInValue
    if c = '[' then do
      skip
      let vs ← closing closeArray (bounded (items (value room)))
      pure (.array vs)
    else if c = '\x7b' then do
      skip
      let ms ← closing closeObject (bounded (members (value room)))
      pure (.object ms)
    else scalar c

end Reader

/-! ## Whole texts -/

/-- Reads a whole text with a reader that takes the nesting still allowed. -/
def readText (reader : Nat → Reader α) (text : String) : Except ReadError α :=
  let cs := text.toList
  let fault (problem : Problem) (rest : List Char) (ahead : Nat) : ReadError :=
    ⟨problem, some (Text.Place.ofRestBytes cs rest ahead)⟩
  match reader Reader.maxNesting cs with
  | .error (.placed problem rest ahead) => .error (fault problem rest ahead)
  | .error (.floating problem _) => .error ⟨problem, none⟩
  | .ok (a, rest) =>
    let rest := rest.dropWhile Reader.isSpace
    if rest.isEmpty then .ok a else .error (fault .trailingCharacters rest 1)

/-- The value of a text, in its normal form. -/
def ofText (text : String) : Except ReadError Json := (readText Reader.value text).map normalize

end StatementPress.Json
