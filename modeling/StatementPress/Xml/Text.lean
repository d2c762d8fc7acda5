import StatementPress.Xml.Scan

/-!
# References and line ends

What the characters of a document stand for.  A reference stands for the character it names.  In
element text every line end, however written, stands for a line feed; in an attribute value white
space stands for a plain space.  A character given by its code stands for itself in both, and in
element text so does the character right after it.
-/

namespace StatementPress.Xml

/-- What a reference refers to. -/
inductive Reference where
  | char (c : Char)
  /-- An entity that is not predefined. -/
  | entity (name : String)

/-- The predefined entities. -/
def predefined : List (String × Char) :=
  [("quot", '"'), ("amp", '&'), ("apos", '\''), ("lt", '<'), ("gt", '>')]

/-- The character with a given code.  A code that is no character's stands for the replacement
character, and the code has to fit in 32 bits. -/
def charOfCode? (base : Nat) (digits : List Char) : Option Char :=
  let n := Text.numberOf base digits
  if digits.isEmpty ∨ UInt32.size ≤ n then none
  else
    let c := if n.isValidChar then Char.ofNat n else '\uFFFD'
    if isAllowed c then some c else none

/-- What follows the semicolon of a reference. -/
def afterSemicolon? : List Char → Option (List Char)
  | ';' :: rest => some rest
  | _ => none

/-- A reference after its ampersand, and what is left after it. -/
def reference? (s : List Char) : Option (Reference × List Char) := do
  match s with
  | '#' :: 'x' :: rest =>
    let c ← charOfCode? 16 (rest.takeWhile Text.isHexDigit)
    return (.char c, ← afterSemicolon? (rest.dropWhile Text.isHexDigit))
  | '#' :: rest =>
    let c ← charOfCode? 10 (rest.takeWhile Char.isDigit)
    return (.char c, ← afterSemicolon? (rest.dropWhile Char.isDigit))
  | c :: rest =>
    if isNameStart c then
      let name := String.ofList (c :: rest.takeWhile isNameChar)
      let rest ← afterSemicolon? (rest.dropWhile isNameChar)
      match predefined.lookup name with
      | some c => return (.char c, rest)
      | none => return (.entity name, rest)
    else none
  | [] => none

/-- A piece of text: a character as it stands, or one that a reference stands for. -/
inductive Piece where
  /-- A character as it stands. -/
  | plain (c : Char)
  /-- A character that a reference stands for. -/
  | referred (c : Char)

/-- Splits raw text into pieces.  `after` is what follows the text in the document, and `fuel` bounds
the number of pieces. -/
def pieces (after : List Char) : Nat → List Char → Except Failure (List Piece)
  | 0, _ => .ok []
  | _ + 1, [] => .ok []
  | fuel + 1, c :: rest =>
    if c = '&' then
      match reference? rest with
      | none => .error ⟨.malformedReference, c :: rest ++ after⟩
      | some (.entity name, _) => .error ⟨.unknownEntity name, c :: rest ++ after⟩
      | some (.char r, rest) => do
        let others ← pieces after fuel rest
        return .referred r :: others
    else do
      let others ← pieces after fuel rest
      return .plain c :: others

/-- The text of an attribute value. -/
def attributeText : List Piece → List Char
  | [] => []
  | .plain '\r' :: .plain '\n' :: rest => ' ' :: attributeText rest
  | .plain c :: rest => (if isSpace c then ' ' else c) :: attributeText rest
  | .referred c :: rest => c :: attributeText rest

/-- Adds a plain character to text that is kept in reverse.  A carriage return before it becomes a
line feed, together with a line feed that follows it. -/
def pushPlain (done : List Char) (c : Char) (last : Bool) : List Char :=
  match done with
  | '\r' :: earlier =>
    let done := '\n' :: earlier
    if last && c = '\r' then '\n' :: done else if c = '\n' then done else c :: done
  | _ => if last && c = '\r' then '\n' :: done else c :: done

/-- The text of pieces of element text, after `done`, kept in reverse.  `literal` says that the next
plain character is taken as it stands. -/
def elementText : List Char → Bool → List Piece → List Char
  | done, _, [] => done.reverse
  | done, _, .referred c :: rest => elementText (c :: done) true rest
  | done, true, .plain c :: rest => elementText (c :: done) false rest
  | done, false, .plain c :: rest => elementText (pushPlain done c rest.isEmpty) false rest

/-- Decodes the raw value of an attribute, which `after` follows in the document. -/
def decodeAttribute (raw after : List Char) : Except Failure String := do
  return String.ofList (attributeText (← pieces after raw.length raw))

/-- Decodes raw element text, which `after` follows in the document. -/
def decodeText (raw after : List Char) : Except Failure String := do
  return String.ofList (elementText [] false (← pieces after raw.length raw))

/-- Decodes the characters of a literal section, in which only line ends are not literal. -/
def decodeSection (raw : List Char) : String :=
  String.ofList (elementText [] false (raw.map .plain))

end StatementPress.Xml
