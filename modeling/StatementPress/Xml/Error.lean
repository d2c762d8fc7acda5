import StatementPress.Text.Digits
import StatementPress.Text.Place
import StatementPress.Text.Quoted

/-!
# What can be wrong with a document

`Problem` lists the reasons for which a document is refused, `Error` adds the place.  A few reasons
concern the document as a whole; their wording does not name the place.
-/

namespace StatementPress.Xml

/-- A reason to refuse a document. -/
inductive Problem where
  /-- The qualifier `xml` is declared for another namespace. -/
  | wrongXmlUri
  /-- The namespace of `xml` is declared for another qualifier. -/
  | xmlUriElsewhere
  /-- The namespace of `xmlns` is declared. -/
  | xmlnsUriDeclared
  /-- An element is qualified by `xmlns`. -/
  | xmlnsElement
  /-- A qualifier is declared twice in one tag. -/
  | duplicateNamespace (qualifier : String)
  /-- A qualifier is not declared. -/
  | unknownNamespace (qualifier : String)
  /-- A closing tag does not belong to the open element. -/
  | wrongCloseTag (expected found : String)
  /-- A reference to an entity that is not predefined. -/
  | unknownEntity (name : String)
  /-- A reference that is none. -/
  | malformedReference
  /-- An attribute occurs twice in one tag. -/
  | duplicateAttribute (name : String)
  /-- There is no element. -/
  | noRoot
  /-- The text ends before the outermost element does. -/
  | unclosedRoot
  /-- An XML declaration that does not stand at the start. -/
  | unexpectedDeclaration
  | doctype
  | tooManyNodes
  | invalidName
  /-- A character that may not stand in a document. -/
  | forbiddenChar (c : Char)
  /-- Another byte than the one that has to stand here. -/
  | expectedChar (expected found : Char)
  /-- No white space where there has to be some. -/
  | expectedSpace (found : Char)
  /-- No quotation mark where there has to be one. -/
  | expectedQuote (found : Char)
  /-- Another text than the one that has to stand here. -/
  | expectedText (text : String)
  /-- A comment with two hyphens inside. -/
  | doubleHyphen
  /-- The end of a literal section without its start. -/
  | sectionEndInText
  /-- Something that is no part of a document. -/
  | unknownToken
  /-- The text ends inside a tag. -/
  | endOfText

/-- Why a document is refused, and where. -/
structure Error where
  problem : Problem
  /-- The place, its column counted in characters. -/
  place : Text.Place

/-- Line and column of a place. -/
def placeText (p : Text.Place) : String := Text.decimal p.line ++ ":" ++ Text.decimal p.column

/-- The wording of an error. -/
def Error.message (e : Error) : String :=
  let place := placeText e.place
  match e.problem with
  | .wrongXmlUri => "'xml' namespace prefix mapped to wrong URI at " ++ place
  | .xmlUriElsewhere => "the 'xml' namespace URI is used for not 'xml' prefix at " ++ place
  | .xmlnsUriDeclared => "the 'xmlns' URI is used at " ++ place ++ ", but it must not be declared"
  | .xmlnsElement => "the 'xmlns' prefix is used at " ++ place ++ ", but it must not be"
  | .duplicateNamespace n => "namespace '" ++ n ++ "' at " ++ place ++ " is already defined"
  | .unknownNamespace n => "an unknown namespace prefix '" ++ n ++ "' at " ++ place
  | .wrongCloseTag expected found =>
    "expected '" ++ expected ++ "' tag, not '" ++ found ++ "' at " ++ place
  | .unknownEntity n => "unknown entity reference '" ++ n ++ "' at " ++ place
  | .malformedReference => "malformed entity reference at " ++ place
  | .duplicateAttribute n => "attribute '" ++ n ++ "' at " ++ place ++ " is already defined"
  | .noRoot => "the document does not have a root node"
  | .unclosedRoot => "the root node was opened but never closed"
  | .unexpectedDeclaration => "unexpected XML declaration at " ++ place
  | .doctype => "XML with DTD detected"
  | .tooManyNodes => "nodes limit reached"
  | .invalidName => "invalid name token at " ++ place
  | .forbiddenChar c => "a non-XML character " ++ Text.quotedChar c ++ " found at " ++ place
  | .expectedChar expected found =>
    "expected '" ++ expected.toString ++ "' not '" ++ found.toString ++ "' at " ++ place
  | .expectedSpace found => "expected a whitespace not '" ++ found.toString ++ "' at " ++ place
  | .expectedQuote found => "expected a quote not '" ++ found.toString ++ "' at " ++ place
  | .expectedText s => "expected '" ++ s ++ "' at " ++ place
  | .doubleHyphen => "comment at " ++ place ++ " contains '--'"
  | .sectionEndInText => "']]>' at " ++ place ++ " is not allowed inside a character data"
  | .unknownToken => "unknown token at " ++ place
  | .endOfText => "unexpected end of stream"

end StatementPress.Xml
