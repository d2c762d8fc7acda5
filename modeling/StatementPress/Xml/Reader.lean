import StatementPress.Xml.Document
import StatementPress.Xml.Namespace

/-!
# Reading documents

A document is read from front to back and refused at the first problem.  There may be an XML
declaration, then comments and instructions, one element, and again comments and instructions.  A
document type declaration is refused.

Reading counts the nodes it makes, the document itself included, and stops when there would be more
than a given number.  Attributes do not count, and neighbouring pieces of text count once.
-/

namespace StatementPress.Xml

open Scanner

namespace Scanner

variable {α : Type}

/-- Takes the outcome of a function on characters as that of a scanner that reads nothing. -/
def ofExcept (outcome : Except Failure α) : Scanner α := fun s =>
  match outcome with
  | .ok a => .ok (a, s)
  | .error failure => .error failure

/-- Whether a given text comes next. -/
def comesNext (expected : String) : Scanner Bool := do
  let s ← get
  pure (expected.toList.isPrefixOf s)

/-- The number of nodes with one more, if `limit` allows it. -/
def countNode (limit count : Nat) : Scanner Nat :=
  if limit ≤ count then failHere .tooManyNodes else pure (count + 1)

/-! ## The parts between tags -/

/-- Reads a comment. -/
def comment : Scanner Unit := do
  let start ← get
  skip 4
  let body ← charsUntil "-->"
  text "-->"
  if contains ['-', '-'] body ∨ body.getLast? = some '-' then failAt .doubleHyphen start

/-- Reads a processing instruction. -/
def instruction : Scanner Unit := do
  if ← comesNext "<?xml " then failHere .unexpectedDeclaration
  else do
    skip 2
    let _ ← plainName
    skipSpaces
    let _ ← charsUntil "?>"
    text "?>"

/-- Reads a literal section. -/
def literalSection : Scanner String := do
  skip 9
  let raw ← charsUntil "]]>"
  text "]]>"
  pure (decodeSection raw)

/-- Reads text up to the next tag, or to the end. -/
def plainText : Scanner String := do
  let raw ← charsWhile fun s => s.head? ≠ some '<'
  if contains [']', ']', '>'] raw then failHere .sectionEndInText
  else do
    let after ← get
    ofExcept (decodeText raw after)

/-! ## Tags -/

/-- How an opening tag ends. -/
inductive TagEnd where
  /-- The element has content. -/
  | opened
  /-- The element is empty. -/
  | closed
  /-- The text ends right after a name or a value. -/
  | cut
  deriving DecidableEq

/-- Reads the attributes of an opening tag and its end.  `fuel` bounds their number. -/
def tagRest : Nat → Tag → Scanner (Tag × TagEnd)
  | 0, tag => pure (tag, .cut)
  | fuel + 1, tag => do
    let s ← get
    if s.isEmpty then pure (tag, .cut)
    else do
      skipSpaces
      let start ← get
      let c ← next
      if c = '/' then do
        skip 1
        char '>'
        pure (tag, .closed)
      else if c = '>' then do
        skip 1
        pure (tag, .opened)
      else if !s.head?.any isSpace then failHere (.expectedSpace (firstByte c))
      else do
        let (n, valueStart, raw) ← attributeParts
        let value ← ofExcept (decodeAttribute raw (valueStart.drop raw.length))
        let tag ← ofExcept (tag.add ⟨n, value, start⟩)
        tagRest fuel tag

/-- Reads a closing tag, which has to name the open element. -/
def closingTag (element : Name) : Scanner Unit := do
  let start ← get
  skip 2
  let n ← name
  skipSpaces
  char '>'
  if n ≠ element then failAt (.wrongCloseTag element.text n.text) start

/-! ## Elements -/

mutual

/-- Reads an element, from its opening tag on: the element and the number of nodes.  There is none if
the text ends inside the opening tag.  `fuel` bounds the characters read. -/
def element (limit : Nat) : Nat → Scope → Nat → Scanner (Option Element × Nat)
  | 0, _, count => pure (none, count)
  | fuel + 1, outer, count => do
    skip 1
    let nameStart ← get
    let n ← name
    if n.qualifier = "xmlns" then failAt .xmlnsElement nameStart
    else do
      let (tag, tagEnd) ← tagRest fuel {}
      if tagEnd = .cut then pure (none, count)
      else do
        let scope := tag.declared ++ outer
        let attributes ← ofExcept (scope.attributes [] tag.attributes)
        let _ ← ofExcept (scope.resolve n.qualifier nameStart)
        let count ← countNode limit count
        if tagEnd = .closed then pure (some ⟨n.localName, attributes, []⟩, count)
        else do
          let (children, count) ← content limit fuel scope n false count
          pure (some ⟨n.localName, attributes, children⟩, count)

/-- Reads what stands in an element, and its closing tag.  `afterText` says that a text node comes
just before. -/
def content (limit : Nat) : Nat → Scope → Name → Bool → Nat → Scanner (List Node × Nat)
  | 0, _, _, _, _ => failHere .unclosedRoot
  | fuel + 1, scope, n, afterText, count => do
    let addText (s : String) : Scanner (List Node × Nat) := do
      let count ← if afterText then pure count else countNode limit count
      let (rest, count) ← content limit fuel scope n true count
      pure (joinText s rest, count)
    let addNode (node : Node) : Scanner (List Node × Nat) := do
      let count ← countNode limit count
      let (rest, count) ← content limit fuel scope n false count
      pure (node :: rest, count)
    match ← get with
    | [] => failHere .unclosedRoot
    | '<' :: '!' :: _ =>
      if ← comesNext "<!--" then do
        comment
        addNode .comment
      else if ← comesNext "<![CDATA[" then do
        let s ← literalSection
        addText s
      else failHere .unknownToken
    | '<' :: '?' :: _ => do
      instruction
      addNode .instruction
    | '<' :: '/' :: _ => do
      closingTag n
      pure ([], count)
    | ['<'] => failHere .unknownToken
    | '<' :: _ => do
      match ← element limit fuel scope count with
      | (none, _) => failHere .unclosedRoot
      | (some e, count) => do
        let (rest, count) ← content limit fuel scope n false count
        pure (e.toNode :: rest, count)
    | _ => do
      let s ← plainText
      addText s

end

/-! ## Whole documents -/

/-- Reads comments and instructions outside the element. -/
def misc (limit : Nat) : Nat → Nat → Scanner (List Node × Nat)
  | 0, count => pure ([], count)
  | fuel + 1, count => do
    skipSpaces
    if ← comesNext "<!--" then do
      comment
      let count ← countNode limit count
      let (rest, count) ← misc limit fuel count
      pure (.comment :: rest, count)
    else if ← comesNext "<?" then do
      instruction
      let count ← countNode limit count
      let (rest, count) ← misc limit fuel count
      pure (.instruction :: rest, count)
    else pure ([], count)

/-- Passes the white space between two parts of the XML declaration. -/
def declarationSpaces : Scanner Unit := do
  match ← get with
  | [] => pure ()
  | c :: _ =>
    if isSpace c then skipSpaces
    else if ← comesNext "?>" then pure ()
    else failHere (.expectedSpace (firstByte c))

/-- Reads an XML declaration. -/
def declaration : Scanner Unit := do
  skip 5
  declarationSpaces
  if ← comesNext "version" then do
    let _ ← attributeParts
    declarationSpaces
  else failHere (.expectedText "version")
  if ← comesNext "encoding" then do
    let _ ← attributeParts
    declarationSpaces
  if ← comesNext "standalone" then do
    let _ ← attributeParts
  skipSpaces
  text "?>"

/-- Reads a document with at most `limit` nodes. -/
def document (limit : Nat) : Scanner Document := do
  if ← comesNext "\uFEFF" then skip 1
  if ← comesNext "<?xml " then declaration
  let s ← get
  let fuel := s.length + 1
  let (before, count) ← misc limit fuel 1
  skipSpaces
  if ← comesNext "<!DOCTYPE" then failHere .doctype
  else if ← comesNext "<" then do
    let (root?, count) ← element limit fuel [] count
    let (after, _) ← misc limit fuel count
    let s ← get
    if !s.isEmpty then failHere .unknownToken
    else
      match root? with
      | some root => pure ⟨before, root, after⟩
      | none => failHere .noRoot
  else do
    let s ← get
    if s.isEmpty then failHere .noRoot else failHere .unknownToken

end Scanner

/-- Reads a document with at most `limit` nodes from a text. -/
def Document.ofText (limit : Nat) (text : String) : Except Error Document :=
  match (Scanner.document limit).run text.toList with
  | .ok (d, _) => .ok d
  | .error failure => .error ⟨failure.problem, Text.Place.ofRest text.toList failure.rest⟩

end StatementPress.Xml
