import StatementPress.Log
import StatementPress.Payload.Builder
import StatementPress.Payload.Error
import StatementPress.Payload.Limits
import StatementPress.Text.Blank
import StatementPress.Xml.Reader

/-!
# Payloads from documents

The payload of a document is an element with one entry, under the name of the outermost element.  An
element becomes an element with an entry for each attribute, then one for each name among its
children, then one for its text, if any.  Children of one name are one node if there is one of them,
and a sequence if there are more.  An element without attributes and children becomes its text.
Text is what stands directly in the element, without the blanks at its ends.
-/

namespace StatementPress.Payload

/-- Adds the elements among document nodes as children, in order.  There is no answer if elements
are nested deeper than `room`. -/
def Builder.addNodes? (room : Nat) (b : Builder) : List Xml.Node → Option Builder
  | [] => some b
  | .element name attributes children :: rest =>
    match room with
    | 0 => none
    | room + 1 => do
      let inner ← addNodes? room (ofAttributes attributes) children
      let node := inner.finish (Text.trim (Xml.directText children))
      addNodes? (room + 1) (b.addChild name node) rest
  | _ :: rest => addNodes? room b rest

/-- The payload of a document whose elements are nested at most `room` deep. -/
def ofDocument? (room : Nat) (d : Xml.Document) : Option Payload :=
  (Builder.addNodes? room {} [d.root.toNode]).map fun top => .element top.entries

/-- Reads a payload within ceilings.  The size is checked before the text is looked at, the number of
nodes while it is read, and the nesting afterwards. -/
def ofText (limits : Limits) (text : String) : Run PayloadError Payload := do
  let size := Text.byteSize text.toList
  if limits.maxBytes.toNat < size then .fail (.tooLarge size limits.maxBytes.toNat)
  else do
    let d ← .ofExcept ((Xml.Document.ofText limits.maxNodes.toNat text).mapError .malformed)
    match ofDocument? limits.maxDepth.toNat d with
    | none => .fail (.tooDeep limits.maxDepth.toNat)
    | some payload => do
      .record .debug ("parsed XML payload: " ++ Text.decimal size ++ " bytes, root <" ++
        d.root.name ++ ">")
      return payload

end StatementPress.Payload
