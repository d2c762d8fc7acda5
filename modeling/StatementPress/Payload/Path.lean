import StatementPress.Payload.Basic
import StatementPress.Payload.Error

/-!
# Paths into payloads

A path is absolute: it starts with a slash, and its segments are what stands between slashes and is
not empty.  Each segment names an entry.  On the way down a sequence counts as its first node; at the
end it is all of its nodes.
-/

namespace StatementPress

namespace Path

/-- The parts of a text between slashes, empty parts included. -/
def split : List Char → List (List Char)
  | [] => [[]]
  | c :: cs =>
    if c = '/' then [] :: split cs
    else
      match split cs with
      | part :: parts => (c :: part) :: parts
      | [] => [[c]]

/-- The segments of an absolute path. -/
def segments (path : String) : Except PayloadError (List String) :=
  match path.toList with
  | '/' :: rest => .ok (((split rest).filter (!·.isEmpty)).map String.ofList)
  | _ => .error (.relativePath path)

/-- The path with given segments. -/
def ofSegments (segments : List String) : String := "/" ++ "/".intercalate segments

end Path

namespace Payload

/-- The node at the end of a list of segments. -/
def lookup : Payload → List String → Option Payload
  | node, [] => some node
  | node, segment :: rest =>
    match node.first?.bind (get? segment) with
    | some inner => inner.lookup rest
    | none => none

/-- The text at a path, empty if nothing stands there. -/
def resolve (node : Payload) (path : String) : Except PayloadError String := do
  let segments ← Path.segments path
  return match node.lookup segments with
    | some found => found.text
    | none => ""

/-- Every node at a path: the nodes of a sequence one by one. -/
def resolveAll (node : Payload) (path : String) : Except PayloadError (List Payload) := do
  let segments ← Path.segments path
  return match node.lookup segments with
    | some (.sequence items) => items
    | some found => [found]
    | none => []

end Payload

end StatementPress
