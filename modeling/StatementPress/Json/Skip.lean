import StatementPress.Json.Reader

/-!
# Passing over values

The value of a member that nobody asks for is passed over.  The text still has to be well formed, but
numbers are not computed, codes of characters are not checked, and there is no bound on the nesting:
the brackets still open are kept in a list.
-/

namespace StatementPress.Json.Reader

/-- A bracket that is still open. -/
inductive Bracket where
  | array
  | object
  deriving DecidableEq

/-- The fault of a text that ends inside a bracket. -/
def Bracket.atEnd : Bracket → Problem
  | .array => .endInArray
  | .object => .endInObject

/-- The fault of an item that is followed by neither comma nor end. -/
def Bracket.noComma : Bracket → Problem
  | .array => .expectedCommaOrEndOfArray
  | .object => .expectedCommaOrEndOfObject

/-- The closing character of a bracket. -/
def Bracket.close : Bracket → Char
  | .array => ']'
  | .object => '\x7d'

/-- Passes an escape after its backslash. -/
def passEscape : Reader Unit := do
  match ← get with
  | [] => failHere .endInString
  | c :: rest =>
    if c = 'u' then do
      set rest
      let _ ← fourHex
      pure ()
    else if (letterEscape? c).isSome then set rest
    else failNext .invalidEscape

/-- Passes the characters of a string up to and with its closing quotation mark.  `fuel` bounds the
characters looked at. -/
def passChars : Nat → Reader Unit
  | 0 => failHere .endInString
  | fuel + 1 => do
    match ← get with
    | [] => failHere .endInString
    | c :: rest =>
      if c = '"' then set rest
      else if c = '\\' then do
        set rest
        passEscape
        passChars fuel
      else if c.toNat < 0x20 then failHere .controlCharacter
      else do
        set rest
        passChars fuel

/-- Passes a string after its opening quotation mark. -/
def passString : Reader Unit := do
  let s ← get
  passChars (s.length + 1)

/-- Passes digits. -/
def passDigits : Reader Unit := modify (List.dropWhile Char.isDigit)

/-- Passes an exponent after its letter. -/
def passExponent : Reader Unit := do
  match ← get with
  | '+' :: rest | '-' :: rest => set rest
  | _ => pure ()
  let s ← get
  if startsWithDigit s then passDigits else failNext .invalidNumber

/-- Passes the exponent of a numeral, if there is one. -/
def passExponent? : Reader Unit := do
  match ← get with
  | 'e' :: rest | 'E' :: rest => do
    set rest
    passExponent
  | _ => pure ()

/-- Passes what follows the whole digits of a numeral. -/
def passAfterWhole : Reader Unit := do
  match ← get with
  | '.' :: rest => do
    set rest
    if startsWithDigit rest then do
      passDigits
      passExponent?
    else failNext .invalidNumber
  | _ => passExponent?

/-- Passes a numeral after its sign. -/
def passNumeral : Reader Unit := do
  match ← get with
  | '0' :: rest =>
    if startsWithDigit rest then failAt .invalidNumber rest 1
    else do
      set rest
      passAfterWhole
  | s =>
    if startsWithDigit s then do
      passDigits
      passAfterWhole
    else failNext .invalidNumber

/-- Passes a value that is neither array nor object. -/
def passScalar (c : Char) : Reader Unit :=
  match c with
  | 'n' => word ['n', 'u', 'l', 'l']
  | 't' => word ['t', 'r', 'u', 'e']
  | 'f' => word ['f', 'a', 'l', 's', 'e']
  | '"' => do
    skip
    passString
  | '-' => do
    skip
    passNumeral
  | c => if c.isDigit then passNumeral else failNext .expectedValue

/-- Passes the key of a member and its colon. -/
def passKey : Reader Unit := do
  let c ← peekOr .endInObject
  if c = '"' then do
    skip
    passString
    colon
  else failNext .keyMustBeString

/-- Goes to the value of the next item or member of a bracket. -/
def toValue : Bracket → Reader Unit
  | .array => pure ()
  | .object => passKey

mutual

/-- Passes a value and whatever closes the brackets in `outer`. -/
def passValue : Nat → List Bracket → Reader Unit
  | 0, _ => failNext .endInValue
  | fuel + 1, outer => do
    let c ← peekOr .endInValue
    if c = '[' then do
      skip
      passOpened fuel .array outer
    else if c = '\x7b' then do
      skip
      passOpened fuel .object outer
    else do
      passScalar c
      passFollowing fuel outer

/-- Goes on after an opening bracket. -/
def passOpened : Nat → Bracket → List Bracket → Reader Unit
  | 0, b, _ => failNext b.atEnd
  | fuel + 1, b, outer => do
    let c ← peekOr b.atEnd
    if c = b.close then do
      skip
      passFollowing fuel outer
    else do
      toValue b
      passValue fuel (b :: outer)

/-- Goes on after a value inside the brackets `outer`. -/
def passFollowing : Nat → List Bracket → Reader Unit
  | _, [] => pure ()
  | 0, b :: _ => failNext b.atEnd
  | fuel + 1, b :: outer => do
    let c ← peekOr b.atEnd
    if c = ',' then do
      skip
      toValue b
      passValue fuel (b :: outer)
    else if c = b.close then do
      skip
      passFollowing fuel outer
    else failNext b.noComma

end

/-- Passes over a value. -/
def pass : Reader Unit := do
  let s ← get
  passValue (2 * s.length + 2) []

end StatementPress.Json.Reader
