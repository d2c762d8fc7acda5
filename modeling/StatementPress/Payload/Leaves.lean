import StatementPress.Payload.Basic

/-!
# Leaf paths

The paths at which a payload has texts, for an author to choose from: depth first, in document order,
attributes left out, and each path once however many nodes stand there.

`leaves` says which paths these are by recursion on the payload.  `LeafWalk` finds them one at a
time, so that a caller may stop early: it keeps the nodes still to be visited, with their paths, and
the paths already given.
-/

namespace StatementPress

namespace Payload

/-- The path of an entry of the node at `path`.  The text of an element has the element's path. -/
def entryPath (path key : String) : String := if key = textKey then path else path ++ "/" ++ key

/-- The entries of an element to look into, with their paths. -/
def visible (path : String) (entries : List (String × Payload)) : List (String × Payload) :=
  (entries.filter (!isAttributeKey ·.1)).map fun e => (entryPath path e.1, e.2)

/-- The nodes of a sequence, each with the path of the sequence. -/
def beside (path : String) (items : List Payload) : List (String × Payload) :=
  items.map fun item => (path, item)

mutual

/-- The paths of the texts of a node, with repetitions, where the node's own path is `path`. -/
def leaves (path : String) : Payload → List String
  | .scalar _ => [path]
  | .element entries => entryLeaves path entries
  | .sequence items => itemLeaves path items

/-- The paths of the texts of entries. -/
def entryLeaves (path : String) : List (String × Payload) → List String
  | [] => []
  | (key, node) :: rest =>
    if isAttributeKey key then entryLeaves path rest
    else leaves (entryPath path key) node ++ entryLeaves path rest

/-- The paths of the texts of the nodes of a sequence. -/
def itemLeaves (path : String) : List Payload → List String
  | [] => []
  | node :: rest => leaves path node ++ itemLeaves path rest

end

mutual

/-- The number of nodes of a payload. -/
def size : Payload → Nat
  | .scalar _ => 1
  | .element entries => 1 + entriesSize entries
  | .sequence items => 1 + itemsSize items

/-- The number of nodes in entries. -/
def entriesSize : List (String × Payload) → Nat
  | [] => 0
  | (_, node) :: rest => size node + entriesSize rest

/-- The number of nodes in a sequence. -/
def itemsSize : List Payload → Nat
  | [] => 0
  | node :: rest => size node + itemsSize rest

end

theorem entriesSize_append (a b : List (String × Payload)) :
    entriesSize (a ++ b) = entriesSize a + entriesSize b := by
  induction a with
  | nil => simp [entriesSize]
  | cons e a ih => obtain ⟨k, n⟩ := e; simp only [List.cons_append, entriesSize, ih]; omega

/-- Leaving out attributes does not make entries larger. -/
theorem entriesSize_visible_le (path : String) (entries : List (String × Payload)) :
    entriesSize (visible path entries) ≤ entriesSize entries := by
  induction entries with
  | nil => simp [visible, entriesSize]
  | cons e entries ih =>
    obtain ⟨k, n⟩ := e
    by_cases h : isAttributeKey k
    · simp only [visible, List.filter, h, Bool.not_true, entriesSize] at ih ⊢
      omega
    · simp only [visible, List.filter, h, Bool.not_false, List.map_cons, entriesSize] at ih ⊢
      omega

theorem entriesSize_beside (path : String) (items : List Payload) :
    entriesSize (beside path items) = itemsSize items := by
  induction items with
  | nil => simp [beside, entriesSize, itemsSize]
  | cons n items ih =>
    simp only [beside, List.map_cons, entriesSize, itemsSize] at ih ⊢
    omega

end Payload

open Payload

/-- A walk over the leaf paths of a payload. -/
structure LeafWalk where
  /-- The nodes still to be visited, with their paths, next one first. -/
  pending : List (String × Payload)
  /-- The paths already given. -/
  given : List String

namespace LeafWalk

/-- The walk over a payload. -/
def start (p : Payload) : LeafWalk := ⟨[("", p)], []⟩

/-- Goes on to the next path that has not been given: the path, and what is then pending.  A node at
the top has no path and is passed over. -/
def advance (given : List String) : List (String × Payload) → Option (String × List (String × Payload))
  | [] => none
  | (path, .scalar _) :: rest =>
    if path.isEmpty || given.contains path then advance given rest else some (path, rest)
  | (path, .element entries) :: rest => advance given (visible path entries ++ rest)
  | (path, .sequence items) :: rest => advance given (beside path items ++ rest)
termination_by pending => entriesSize pending
decreasing_by
  all_goals simp only [entriesSize, entriesSize_append, entriesSize_beside, size]
  · omega
  · have := entriesSize_visible_le path entries
    omega
  · omega

/-- Each path that a walk gives leaves less to visit. -/
theorem advance_lt {given : List String} {pending : List (String × Payload)} {path : String}
    {rest : List (String × Payload)} (h : advance given pending = some (path, rest)) :
    entriesSize rest < entriesSize pending := by
  fun_induction advance given pending with
  | case1 => simp at h
  | case2 path' s rest' hseen ih =>
    have := ih h
    simp only [entriesSize, size]
    omega
  | case3 path' s rest' hseen =>
    simp only [Option.some.injEq, Prod.mk.injEq] at h
    obtain ⟨-, rfl⟩ := h
    simp only [entriesSize, size]
    omega
  | case4 path' entries rest' ih =>
    have h₁ := ih h
    have h₂ := entriesSize_visible_le path' entries
    simp only [entriesSize_append, entriesSize, size] at h₁ ⊢
    omega
  | case5 path' items rest' ih =>
    have h₁ := ih h
    simp only [entriesSize_append, entriesSize_beside, entriesSize, size] at h₁ ⊢
    omega

/-- The next path of a walk, and the walk after it. -/
def next? (w : LeafWalk) : Option (String × LeafWalk) :=
  (advance w.given w.pending).map fun (path, rest) => (path, ⟨rest, path :: w.given⟩)

/-- The paths that a walk gives from here on, after those in `given`. -/
def pathsFrom (given : List String) (pending : List (String × Payload)) : List String :=
  match _h : advance given pending with
  | none => []
  | some (path, rest) => path :: pathsFrom (path :: given) rest
termination_by entriesSize pending
decreasing_by exact advance_lt _h

/-- All paths that a walk still gives. -/
def toList (w : LeafWalk) : List String := pathsFrom w.given w.pending

end LeafWalk

/-- Every leaf path of a payload, once. -/
def Payload.leafPaths (p : Payload) : List String := (LeafWalk.start p).toList

end StatementPress
