import StatementPress.Payload.Leaves
import StatementPress.Proofs.Payload.Within

/-!
# The walk over leaf paths

A walk keeps a list of nodes to visit and the paths it has given.  What lies ahead of it are the paths
of the texts of those nodes (`ahead`).  One step drops paths that are empty or were given, and gives
the first other one (`ahead_of_advance`).  So a whole walk over a payload gives the paths of its texts
in order, each where it comes up first and the empty path left out, and a walk that is left off has
given the first of them.
-/

namespace StatementPress

namespace Payload

/-- The paths of the texts of nodes with paths of their own, one node after the other. -/
def ahead (pending : List (String × Payload)) : List String := pending.flatMap fun e => leaves e.1 e.2

/-- What lies ahead of a walk begins with the leaves of the next node. -/
theorem ahead_cons (path : String) (node : Payload) (rest : List (String × Payload)) :
    ahead ((path, node) :: rest) = leaves path node ++ ahead rest := List.flatMap_cons

@[simp] theorem ahead_append (first rest : List (String × Payload)) :
    ahead (first ++ rest) = ahead first ++ ahead rest := List.flatMap_append

/-- Looking into the entries of an element that are no attributes. -/
theorem ahead_visible (path : String) (entries : List (String × Payload)) :
    ahead (visible path entries) = leaves path (.element entries) := by
  rw [leaves]
  induction entries with
  | nil => rfl
  | cons e entries ih =>
    rw [visible, entryLeaves]
    cases hkey : isAttributeKey e.1 with
    | true => rw [List.filter_cons_of_neg (by simp [hkey]), if_pos rfl, ← ih, visible]
    | false =>
      rw [List.filter_cons_of_pos (by simp [hkey]), List.map_cons, ahead_cons, if_neg (by simp), ← ih,
        visible]

/-- Nodes side by side have the leaves of their sequence. -/
theorem ahead_beside (path : String) (items : List Payload) :
    ahead (beside path items) = leaves path (.sequence items) := by
  rw [leaves]
  induction items with
  | nil => rfl
  | cons item items ih => rw [beside, List.map_cons, ahead_cons, itemLeaves, ← ih, beside]

mutual

/-- A payload has no more texts than nodes. -/
theorem length_leaves_le (path : String) : ∀ p : Payload, (leaves path p).length ≤ p.size
  | .scalar _ => by
    rw [leaves, size]
    exact Nat.le_refl 1
  | .element entries => by
    have hentries := length_entryLeaves_le path entries
    rw [leaves, size]
    omega
  | .sequence items => by
    have hitems := length_itemLeaves_le path items
    rw [leaves, size]
    omega

theorem length_entryLeaves_le (path : String) :
    ∀ entries, (entryLeaves path entries).length ≤ entriesSize entries
  | [] => Nat.le_refl 0
  | (key, node) :: rest => by
    have hnode := length_leaves_le (entryPath path key) node
    have hrest := length_entryLeaves_le path rest
    rw [entryLeaves, entriesSize]
    split
    · omega
    · rw [List.length_append]
      omega

theorem length_itemLeaves_le (path : String) :
    ∀ items, (itemLeaves path items).length ≤ itemsSize items
  | [] => Nat.le_refl 0
  | node :: rest => by
    have hnode := length_leaves_le path node
    have hrest := length_itemLeaves_le path rest
    rw [itemLeaves, itemsSize, List.length_append]
    omega

end

end Payload

open Payload

namespace LeafWalk

/-! ## One step -/

/-- Whether a walk passes a path over: it is empty, or was given before. -/
def passesOver (given : List String) (path : String) : Bool := path.isEmpty || given.contains path

variable {given : List String} {pending rest : List (String × Payload)} {path : String}

/-- A walk ends if all paths ahead of it are passed over. -/
theorem passesOver_of_advance_eq_none (h : advance given pending = none) :
    ∀ q ∈ ahead pending, passesOver given q = true := by
  fun_induction advance given pending with
  | case1 => exact List.forall_mem_nil _
  | case2 path s rest hseen ih =>
    rw [ahead_cons, leaves, List.singleton_append]
    exact List.forall_mem_cons.mpr ⟨hseen, ih h⟩
  | case3 => cases h
  | case4 path entries rest ih =>
    rw [ahead_cons, ← ahead_visible, ← ahead_append]
    exact ih h
  | case5 path items rest ih =>
    rw [ahead_cons, ← ahead_beside, ← ahead_append]
    exact ih h

/-- **A step gives the first path ahead that is not passed over**, and what is then ahead comes after
it. -/
theorem ahead_of_advance (h : advance given pending = some (path, rest)) :
    ∃ passed, ahead pending = passed ++ path :: ahead rest ∧
      (∀ q ∈ passed, passesOver given q = true) ∧ passesOver given path = false := by
  fun_induction advance given pending with
  | case1 => cases h
  | case2 path' s rest' hseen ih =>
    obtain ⟨passed, hahead, hpassed, hpath⟩ := ih h
    refine ⟨path' :: passed, ?_, List.forall_mem_cons.mpr ⟨hseen, hpassed⟩, hpath⟩
    rw [ahead_cons, leaves, hahead]
    rfl
  | case3 path' s rest' hseen =>
    cases h
    refine ⟨[], ?_, List.forall_mem_nil _, Bool.eq_false_iff.mpr hseen⟩
    rw [ahead_cons, leaves]
    rfl
  | case4 path' entries rest' ih =>
    rw [ahead_cons, ← ahead_visible, ← ahead_append]
    exact ih h
  | case5 path' items rest' ih =>
    rw [ahead_cons, ← ahead_beside, ← ahead_append]
    exact ih h

/-! ## A whole walk -/

/-- After a path was given it is passed over, and no other path is that was not before. -/
theorem passesOver_cons (given : List String) (path q : String) :
    (!passesOver (path :: given) q) = (!passesOver given q && !(q == path)) := by
  rw [passesOver, passesOver, List.contains_cons]
  cases q.isEmpty <;> cases q == path <;> cases given.contains q <;> rfl

/-- **A walk gives the paths ahead of it, each once**, those left out that it passes over. -/
theorem pathsFrom_eq (given : List String) (pending : List (String × Payload)) :
    pathsFrom given pending = ((ahead pending).filter fun q => !passesOver given q).eraseDups := by
  fun_induction pathsFrom given pending with
  | case1 given pending h =>
    have hpassed := passesOver_of_advance_eq_none h
    rw [List.filter_eq_nil_iff.mpr fun q hq => by simp [hpassed q hq]]
    rfl
  | case2 given pending path rest h ih =>
    obtain ⟨passed, hahead, hpassed, hpath⟩ := ahead_of_advance h
    have hnone : passed.filter (fun q => !passesOver given q) = [] :=
      List.filter_eq_nil_iff.mpr fun q hq => by simp [hpassed q hq]
    rw [ih, hahead, List.filter_append, hnone, List.nil_append,
      List.filter_cons_of_pos (by simp [hpath]), List.eraseDups_cons, List.filter_filter]
    simp only [passesOver_cons, Bool.and_comm]

/-- The paths that the first `n` steps of a walk give; a walk that has ended gives none. -/
def first : Nat → LeafWalk → List String
  | 0, _ => []
  | n + 1, w =>
    match w.next? with
    | none => []
    | some (path, rest) => path :: first n rest

/-- All paths of a walk are its next one and all of the walk after it. -/
theorem toList_eq (w : LeafWalk) :
    w.toList = match w.next? with
      | none => []
      | some (path, rest) => path :: rest.toList := by
  rw [toList, pathsFrom, next?]
  split
  · rename_i h
    rw [h]
    rfl
  · rename_i path rest h
    rw [h]
    rfl

/-- **A walk that is left off has given the first of its paths.** -/
theorem first_eq_take (n : Nat) (w : LeafWalk) : w.first n = w.toList.take n := by
  induction n generalizing w with
  | zero => rfl
  | succ n ih =>
    rw [first, toList_eq]
    cases w.next? with
    | none => rfl
    | some next => exact congrArg (next.1 :: ·) (ih next.2)

end LeafWalk

/-! ## The paths of a payload -/

namespace Payload

/-- Erasing repetitions leaves the rest in order. -/
theorem sublist_eraseDups (l : List String) : l.eraseDups.Sublist l := by
  match l with
  | [] => exact List.nil_sublist _
  | a :: l =>
    rw [List.eraseDups_cons]
    exact ((sublist_eraseDups _).trans List.filter_sublist).cons_cons a
termination_by l.length
decreasing_by exact Nat.lt_succ_of_le (List.length_filter_le _ _)

theorem leafPaths_eq (p : Payload) :
    p.leafPaths = ((leaves "" p).filter fun path => !path.isEmpty).eraseDups := by
  rw [leafPaths, LeafWalk.toList, LeafWalk.start, LeafWalk.pathsFrom_eq]
  simp [LeafWalk.passesOver, ahead]

theorem mem_leafPaths_iff {p : Payload} {path : String} :
    path ∈ p.leafPaths ↔ path ≠ "" ∧ path ∈ leaves "" p := by
  rw [leafPaths_eq, List.mem_eraseDups, List.mem_filter]
  simp [and_comm]

/-- **The leaf paths of a payload are the paths of its texts in order**, the empty one left out and each
where it first comes up: none twice, none missed, none out of place.  There are no more of them than
nodes, and the first `n` steps of a walk give the first `n`. -/
theorem leafPaths_each_once_in_order (p : Payload) :
    p.leafPaths = ((leaves "" p).filter fun path => !path.isEmpty).eraseDups ∧
      p.leafPaths.Nodup ∧ p.leafPaths.Sublist (leaves "" p) ∧
      (∀ path, path ∈ p.leafPaths ↔ path ≠ "" ∧ path ∈ leaves "" p) ∧
      p.leafPaths.length ≤ p.size ∧ ∀ n, (LeafWalk.start p).first n = p.leafPaths.take n := by
  have hsublist : p.leafPaths.Sublist (leaves "" p) := by
    rw [leafPaths_eq]
    exact (sublist_eraseDups _).trans List.filter_sublist
  refine ⟨leafPaths_eq p, ?_, hsublist, fun _ => mem_leafPaths_iff, ?_,
    fun n => LeafWalk.first_eq_take n _⟩
  · rw [leafPaths_eq]
    exact nodup_eraseDups _
  · exact Nat.le_trans hsublist.length_le (length_leaves_le "" p)

example : (Payload.element [("@_id", .scalar "1"), ("#text", .scalar "t"),
    ("a", .sequence [.sequence [], .element [("b", .scalar "")], .sequence [.scalar "x"]]),
    ("c", .element []), ("a", .element [("b", .scalar "y")])]).leafPaths = ["/a/b", "/a"] := by
  rw [leafPaths_eq]
  cbv

end Payload

end StatementPress
