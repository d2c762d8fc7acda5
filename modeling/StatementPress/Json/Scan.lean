import StatementPress.Json.Problem

/-!
# Scanning JSON

A `Reader` consumes characters from the front of what is left of a text.  It fails at the first
fault.  Most faults know their place when they arise (`Failure.placed`): some characters were left,
and some bytes of those had been looked at.  A fault of data (`Failure.floating`) gets its place from
the reading around it, once that has gone past what it can still pass.

Here stand the parts below values: blanks, words, and strings.
-/

namespace StatementPress.Json

/-- Why a reader stopped. -/
inductive Failure where
  /-- A fault `ahead` bytes after the place where `rest` was left. -/
  | placed (problem : Problem) (rest : List Char) (ahead : Nat)
  /-- A fault without a place yet; `rest` was left when it arose. -/
  | floating (problem : Problem) (rest : List Char)

/-- Reads a value from the front of a text, leaving the rest. -/
abbrev Reader (α : Type) := StateT (List Char) (Except Failure) α

namespace Reader

variable {α : Type}

/-- Fails where `rest` is left, `ahead` bytes further on. -/
def failAt (problem : Problem) (rest : List Char) (ahead : Nat) : Reader α :=
  fun _ => .error (.placed problem rest ahead)

/-- Fails on the next byte. -/
def failNext (problem : Problem) : Reader α := fun s => .error (.placed problem s 1)

/-- Fails before the next byte. -/
def failHere (problem : Problem) : Reader α := fun s => .error (.placed problem s 0)

/-- Fails and leaves the place open. -/
def failFloating (problem : Problem) : Reader α := fun s => .error (.floating problem s)

/-- Gives a fault without a place the place where it arose. -/
def settle (r : Reader α) : Reader α := fun s =>
  match r s with
  | .error (.floating problem rest) => .error (.placed problem rest 0)
  | outcome => outcome

/-- Drops the next character. -/
def skip : Reader Unit := modify (List.drop 1)

/-! ## Blanks and words -/

/-- The blanks between the parts of a text. -/
def isSpace (c : Char) : Bool := c = ' ' || c = '\n' || c = '\t' || c = '\r'

/-- Passes blanks and shows the next character, if any. -/
def peek : Reader (Option Char) := fun s =>
  let s := s.dropWhile isSpace
  .ok (s.head?, s)

/-- Passes blanks and shows the next character; fails as told if there is none. -/
def peekOr (problem : Problem) : Reader Char := do
  match ← peek with
  | some c => pure c
  | none => failNext problem

/-- Reads the characters of a word. -/
def word : List Char → Reader Unit
  | [] => pure ()
  | w :: ws => do
    match ← get with
    | [] => failHere .endInValue
    | c :: rest =>
      if c = w then do
        set rest
        word ws
      else failNext .expectedWord

/-! ## Strings -/

/-- Reads the four hexadecimal digits of an escape.  They are looked at as four bytes. -/
def fourHex : Reader Nat := do
  let s ← get
  if Text.byteSize s < 4 then failAt .endInString [] 0
  else
    match s with
    | a :: b :: c :: d :: rest =>
      match Text.hexValue? a, Text.hexValue? b, Text.hexValue? c, Text.hexValue? d with
      | some a, some b, some c, some d => do
        set rest
        pure (((a * 16 + b) * 16 + c) * 16 + d)
      | _, _, _, _ => failAt .invalidEscape s 4
    | _ => failAt .invalidEscape s 4

/-- Reads one expected character inside a surrogate pair. -/
def pairChar (expected : Char) : Reader Unit := do
  match ← get with
  | [] => failHere .endInString
  | c :: rest => if c = expected then set rest else failNext .unexpectedEndOfEscape

/-- Reads the rest of an escape that gives a character by its code.  A code of the first half of a
surrogate pair needs the escape of a second half after it. -/
def codeEscape : Reader Char := do
  let high ← fourHex
  if 0xDC00 ≤ high ∧ high ≤ 0xDFFF then failHere .loneSurrogate
  else if high < 0xD800 ∨ 0xDBFF < high then pure (Char.ofNat high)
  else do
    pairChar '\\'
    pairChar 'u'
    let low ← fourHex
    if low < 0xDC00 ∨ 0xDFFF < low then failHere .loneSurrogate
    else pure (Char.ofNat (0x10000 + (high - 0xD800) * 1024 + (low - 0xDC00)))

/-- The character that a one-letter escape stands for. -/
def letterEscape? : Char → Option Char
  | '"' => some '"'
  | '\\' => some '\\'
  | '/' => some '/'
  | 'b' => some '\x08'
  | 'f' => some '\x0c'
  | 'n' => some '\n'
  | 'r' => some '\r'
  | 't' => some '\t'
  | _ => none

/-- Reads an escape after its backslash. -/
def escape : Reader Char := do
  match ← get with
  | [] => failHere .endInString
  | c :: rest =>
    if c = 'u' then do
      set rest
      codeEscape
    else
      match letterEscape? c with
      | some e => do
        set rest
        pure e
      | none => failNext .invalidEscape

/-- Reads the characters of a string up to and with its closing quotation mark.  `fuel` bounds the
characters looked at. -/
def stringChars : Nat → Reader (List Char)
  | 0 => failHere .endInString
  | fuel + 1 => do
    match ← get with
    | [] => failHere .endInString
    | c :: rest =>
      set rest
      if c = '"' then pure []
      else if c = '\\' then do
        let e ← escape
        let cs ← stringChars fuel
        pure (e :: cs)
      else if c.toNat < 0x20 then failHere .controlCharacter
      else do
        let cs ← stringChars fuel
        pure (c :: cs)

/-- Reads a string after its opening quotation mark. -/
def stringBody : Reader String := do
  let s ← get
  let cs ← stringChars (s.length + 1)
  pure (String.ofList cs)

end Reader

end StatementPress.Json
