import StatementPress.Xml.Char
import StatementPress.Xml.Error

/-!
# Scanning documents

A `Scanner` consumes characters from the front of what is left of a document.  It fails at the first
problem, with what was left at the place the message names.

Here stand the parts below tags: white space, single characters and fixed texts, runs of characters,
and names.
-/

namespace StatementPress.Xml

/-- Why a scanner stopped: the problem, and what was left at its place. -/
structure Failure where
  problem : Problem
  /-- What was left. -/
  rest : List Char

/-- Reads a value from the front of a document, leaving the rest. -/
abbrev Scanner (α : Type) := StateT (List Char) (Except Failure) α

/-- A name with its qualifier, which is empty if there is none. -/
structure Name where
  /-- What stands before the colon. -/
  qualifier : String
  /-- What stands after it. -/
  localName : String
  deriving DecidableEq

/-- A name as it is written. -/
def Name.text (n : Name) : String :=
  if n.qualifier.isEmpty then n.localName else n.qualifier ++ ":" ++ n.localName

namespace Scanner

variable {α : Type}

/-- Fails at the place where `rest` is left. -/
def failAt (problem : Problem) (rest : List Char) : Scanner α :=
  fun _ => .error ⟨problem, rest⟩

/-- Fails at the next character. -/
def failHere (problem : Problem) : Scanner α := fun s => .error ⟨problem, s⟩

/-- The first byte of an encoded character, as a character of its own. -/
def firstByte (c : Char) : Char :=
  let n := c.toNat
  if n < 0x80 then c
  else if n < 0x800 then Char.ofNat (0xC0 + n / 0x40)
  else if n < 0x10000 then Char.ofNat (0xE0 + n / 0x1000)
  else Char.ofNat (0xF0 + n / 0x40000)

/-- Passes a given number of characters. -/
def skip (n : Nat) : Scanner Unit := modify (List.drop n)

/-- Passes white space. -/
def skipSpaces : Scanner Unit := modify (List.dropWhile isSpace)

/-- The next character; there has to be one. -/
def next : Scanner Char := do
  match ← get with
  | [] => failHere .endOfText
  | c :: _ => pure c

/-- Passes one given character. -/
def char (expected : Char) : Scanner Unit := do
  let c ← next
  if c = expected then skip 1 else failHere (.expectedChar expected (firstByte c))

/-- Passes a given text. -/
def text (expected : String) : Scanner Unit := do
  let s ← get
  if expected.toList.isPrefixOf s then skip expected.length
  else failHere (.expectedText expected)

/-- Reads characters while `go` holds of what is left, starting with the character.  Each has to be
allowed, also the one at which the reading stops. -/
def charsWhile (go : List Char → Bool) (s : List Char) : Except Failure (List Char × List Char) :=
  match s with
  | [] => .ok ([], [])
  | c :: rest =>
    if !isAllowed c then .error ⟨.forbiddenChar c, s⟩
    else if go s then
      match charsWhile go rest with
      | .ok (cs, rest) => .ok (c :: cs, rest)
      | .error failure => .error failure
    else .ok ([], s)

/-- Whether some characters stand next to each other, in their order, in a list. -/
def contains (part : List Char) : List Char → Bool
  | [] => part.isEmpty
  | c :: cs => part.isPrefixOf (c :: cs) || contains part cs

/-- Reads characters up to a given text, or to the end. -/
def charsUntil (stop : String) : Scanner (List Char) :=
  charsWhile fun s => !stop.toList.isPrefixOf s

/-! ## Names -/

/-- Whether a list of characters is empty or starts as a name does. -/
def startsName (cs : List Char) : Bool := cs.head?.all isNameStart

/-- Reads a name without looking at colons. -/
def plainName : Scanner String := do
  let s ← get
  match s with
  | [] => failHere .invalidName
  | c :: rest =>
    if isNameStart c then do
      set (rest.dropWhile isNameChar)
      pure (String.ofList (c :: rest.takeWhile isNameChar))
    else failHere .invalidName

/-- Reads a name with at most one colon in it.  Both parts have to start as names do; the part after
the colon may not be empty. -/
def name : Scanner Name := do
  let s ← get
  let isPart (c : Char) : Bool := c ≠ ':' && isNameChar c
  let first := s.takeWhile isPart
  let afterFirst := s.dropWhile isPart
  match afterFirst with
  | ':' :: afterColon =>
    let second := afterColon.takeWhile isPart
    let rest := afterColon.dropWhile isPart
    if rest.head? = some ':' ∨ !startsName first ∨ second.isEmpty ∨ !startsName second then
      failHere .invalidName
    else do
      set rest
      pure ⟨String.ofList first, String.ofList second⟩
  | rest =>
    if first.isEmpty ∨ !startsName first then failHere .invalidName
    else do
      set rest
      pure ⟨"", String.ofList first⟩

/-! ## Attributes -/

/-- Reads the opening quotation mark of a value. -/
def quote : Scanner Char := do
  let c ← next
  if c = '\'' ∨ c = '"' then do
    skip 1
    pure c
  else failHere (.expectedQuote (firstByte c))

/-- Reads an attribute: its name, what is left where its value starts, and the raw value. -/
def attributeParts : Scanner (Name × List Char × List Char) := do
  let n ← name
  skipSpaces
  char '='
  skipSpaces
  let q ← quote
  let start ← get
  let raw ← charsWhile fun s => s.head? ≠ some q && s.head? ≠ some '<'
  char q
  pure (n, start, raw)

end Scanner

end StatementPress.Xml
