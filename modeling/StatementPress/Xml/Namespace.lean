import StatementPress.Xml.Text

/-!
# Namespaces

A tag may declare qualifiers for its element and everything inside it.  The reader resolves
qualifiers to tell equal attributes from different ones and to refuse undeclared ones.  The
namespace of elements without a qualifier is of no consequence and is not kept.
-/

namespace StatementPress.Xml

/-- The namespace of the qualifier `xml`. -/
def xmlUri : String := "http://www.w3.org/XML/1998/namespace"

/-- The namespace of the qualifier `xmlns`. -/
def xmlnsUri : String := "http://www.w3.org/2000/xmlns/"

/-- The qualifiers that are declared at some place, with their namespaces. -/
abbrev Scope := List (String × String)

/-- An attribute of a tag: its name, its value, and what was left where it started. -/
structure Attribute where
  name : Name
  value : String
  /-- What was left at its start. -/
  start : List Char

/-- What a tag has so far: the qualifiers it declares and its other attributes, both in order. -/
structure Tag where
  /-- The qualifiers declared. -/
  declared : Scope := []
  /-- The attributes that declare nothing. -/
  attributes : List Attribute := []

/-- Adds an attribute to a tag, as a declaration if it is one. -/
def Tag.add (t : Tag) (a : Attribute) : Except Failure Tag :=
  let fail (problem : Problem) : Except Failure Tag := .error ⟨problem, a.start⟩
  if a.name.qualifier = "xmlns" then
    if a.value = xmlnsUri then fail .xmlnsUriDeclared
    else if a.name.localName = "xml" ∧ a.value ≠ xmlUri then fail .wrongXmlUri
    else if a.name.localName ≠ "xml" ∧ a.value = xmlUri then fail .xmlUriElsewhere
    else if (t.declared.lookup a.name.localName).isSome then
      fail (.duplicateNamespace a.name.localName)
    else if a.value = xmlUri then .ok t
    else .ok { t with declared := t.declared ++ [(a.name.localName, a.value)] }
  else if a.name.localName = "xmlns" then
    if a.value = xmlUri then fail .xmlUriElsewhere
    else if a.value = xmlnsUri then fail .xmlnsUriDeclared
    else .ok t
  else .ok { t with attributes := t.attributes ++ [a] }

/-- The namespace of a qualifier, which is none if the qualifier is empty.  `rest` is what was left
at the place to name if the qualifier is not declared. -/
def Scope.resolve (scope : Scope) (qualifier : String) (rest : List Char) :
    Except Failure (Option String) :=
  if qualifier.isEmpty then .ok none
  else
    match scope.lookup qualifier with
    | some uri => .ok (some uri)
    | none => .error ⟨.unknownNamespace qualifier, rest⟩

/-- The namespace of an attribute.  The qualifier `xml` needs no declaration. -/
def Scope.resolveAttribute (scope : Scope) (a : Attribute) : Except Failure (Option String) :=
  if a.name.qualifier = "xml" then .ok (some xmlUri)
  else scope.resolve a.name.qualifier a.start

/-- The attributes of a tag by local name.  No two of them may have the same namespace and local
name; `seen` holds those of the attributes before. -/
def Scope.attributes (scope : Scope) (seen : List (Option String × String)) :
    List Attribute → Except Failure (List (String × String))
  | [] => .ok []
  | a :: rest => do
    let uri ← scope.resolveAttribute a
    if seen.contains (uri, a.name.localName) then
      .error ⟨.duplicateAttribute a.name.localName, a.start⟩
    else
      let others ← scope.attributes ((uri, a.name.localName) :: seen) rest
      return (a.name.localName, a.value) :: others

end StatementPress.Xml
