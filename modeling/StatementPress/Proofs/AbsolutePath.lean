import StatementPress.Payload.Path
import StatementPress.Proofs.Outcome

/-!
# Absolute paths

Whether a path can be used is decided by its first character alone.  An absolute path always has
segments (`parts`), and what it leads to in a payload is then a total function of the payload: the
text there (`Payload.textAt`) and the nodes there (`Payload.nodesAt`).
-/

namespace StatementPress

namespace Path

/-- A path that starts with a slash. -/
def IsAbsolute (path : String) : Prop := path.toList.head? = some '/'

instance : DecidablePred IsAbsolute := fun path =>
  inferInstanceAs (Decidable (path.toList.head? = some '/'))

/-- What stands between the slashes after the first character and is not empty. -/
def parts (path : String) : List String :=
  ((split (path.toList.drop 1)).filter (!·.isEmpty)).map String.ofList

variable {path : String}

theorem IsAbsolute.exists_rest (h : IsAbsolute path) : ∃ rest, path.toList = '/' :: rest :=
  List.head?_eq_some_iff.mp h

/-- An absolute path has segments. -/
theorem segments_of_isAbsolute (h : IsAbsolute path) : segments path = .ok (parts path) := by
  obtain ⟨rest, hrest⟩ := h.exists_rest
  simp only [segments, parts, hrest, List.drop_one, List.tail_cons]

/-- Any other text is refused, with the text itself in the error. -/
theorem segments_of_not_isAbsolute (h : ¬ IsAbsolute path) :
    segments path = .error (.relativePath path) := by
  unfold segments
  split
  · rename_i rest hrest
    exact absurd (show IsAbsolute path by rw [IsAbsolute, hrest]; rfl) h
  · rfl

/-- Putting a slash in front of segments gives an absolute path, whatever the segments are. -/
theorem isAbsolute_ofSegments (segments : List String) : IsAbsolute (ofSegments segments) := by
  simp [IsAbsolute, ofSegments]

/-! ## Going on from a path -/

theorem split_ne_nil (cs : List Char) : split cs ≠ [] := by
  cases cs with
  | nil => exact List.cons_ne_nil _ _
  | cons c cs =>
    rw [split]
    split
    · exact List.cons_ne_nil _ _
    · split <;> exact List.cons_ne_nil _ _

/-- Splitting goes on anew after each slash. -/
theorem split_append_slash (as bs : List Char) : split (as ++ '/' :: bs) = split as ++ split bs := by
  induction as with
  | nil => simp [split]
  | cons c as ih =>
    rw [List.cons_append, split, split, ih]
    by_cases hslash : c = '/'
    · rw [if_pos hslash, if_pos hslash, List.cons_append]
    · rw [if_neg hslash, if_neg hslash]
      cases has : split as with
      | nil => exact absurd has (split_ne_nil as)
      | cons part parts => rfl

theorem split_of_not_mem {cs : List Char} (h : '/' ∉ cs) : split cs = [cs] := by
  induction cs with
  | nil => rfl
  | cons c cs ih =>
    obtain ⟨hfirst, hrest⟩ := List.ne_and_not_mem_of_not_mem_cons h
    rw [split, if_neg hfirst.symm, ih hrest]

/-- A text that can be a segment of a path. -/
structure IsSegment (key : String) : Prop where
  nonempty : key ≠ ""
  no_slash : '/' ∉ key.toList

/-- Characters other than slashes make a segment, if there are any. -/
theorem isSegment_ofList {cs : List Char} (hne : cs ≠ []) (h : '/' ∉ cs) :
    IsSegment (String.ofList cs) := by
  refine ⟨fun hempty => hne (String.ofList_eq_empty_iff.mp hempty), ?_⟩
  rwa [String.toList_ofList]

/-- A path to go on from: it is absolute, or leads nowhere yet. -/
def IsStart (path : String) : Prop := path = "" ∨ IsAbsolute path

theorem toList_append_slash (path key : String) :
    (path ++ "/" ++ key).toList = path.toList ++ '/' :: key.toList := by
  simp

theorem isAbsolute_append_slash (h : IsStart path) (key : String) :
    IsAbsolute (path ++ "/" ++ key) := by
  rw [IsAbsolute, toList_append_slash]
  rcases h with rfl | h
  · rfl
  · rw [List.head?_append, h]
    rfl

/-- The segments of what follows the first slash of a path. -/
def partsAfter (cs : List Char) : List String :=
  ((split cs).filter (!·.isEmpty)).map String.ofList

theorem parts_eq_partsAfter {cs : List Char} (h : path.toList = '/' :: cs) :
    parts path = partsAfter cs := by
  rw [parts, h, List.drop_one, List.tail_cons, partsAfter]

/-- Paths are joined at a slash part by part. -/
theorem partsAfter_append_slash (cs rest : List Char) :
    partsAfter (cs ++ '/' :: rest) = partsAfter cs ++ partsAfter rest := by
  rw [partsAfter, split_append_slash, List.filter_append, List.map_append, partsAfter, partsAfter]

theorem partsAfter_of_isSegment {name : String} (h : IsSegment name) :
    partsAfter name.toList = [name] := by
  rw [partsAfter, split_of_not_mem h.no_slash]
  simp [h.nonempty]

/-- Going on with a segment goes on with one part. -/
theorem parts_append_slash (h : IsStart path) {key : String} (hkey : IsSegment key) :
    parts (path ++ "/" ++ key) = parts path ++ [key] := by
  rcases h with rfl | h
  · rw [parts_eq_partsAfter (toList_append_slash "" key), partsAfter_of_isSegment hkey]
    rfl
  · obtain ⟨rest, hrest⟩ := h.exists_rest
    have hwhole : (path ++ "/" ++ key).toList = '/' :: (rest ++ '/' :: key.toList) := by
      rw [toList_append_slash, hrest, List.cons_append]
    rw [parts_eq_partsAfter hwhole, parts_eq_partsAfter hrest, partsAfter_append_slash,
      partsAfter_of_isSegment hkey]

end Path

namespace Payload

open StatementPress.Path

/-- The text at a path, empty if nothing stands there. -/
def textAt (node : Payload) (path : String) : String :=
  ((node.lookup (parts path)).map text).getD ""

/-- The nodes at a path, those of a sequence one by one. -/
def nodesAt (node : Payload) (path : String) : List Payload :=
  match node.lookup (parts path) with
  | some (.sequence items) => items
  | some found => [found]
  | none => []

variable {path : String}

/-- A path that goes on goes on from where it led. -/
theorem lookup_append (node : Payload) (names rest : List String) :
    node.lookup (names ++ rest) = (node.lookup names).bind fun found => found.lookup rest := by
  induction names generalizing node with
  | nil => rw [List.nil_append, lookup, Option.bind_some]
  | cons name names ih =>
    rw [List.cons_append, lookup, lookup]
    cases node.first?.bind (get? name) with
    | none => rfl
    | some inner => exact ih inner

/-- Resolving an absolute path does not fail. -/
theorem resolve_of_isAbsolute (h : IsAbsolute path) (node : Payload) :
    node.resolve path = .ok (node.textAt path) := by
  simp only [resolve, segments_of_isAbsolute h, ok_bind, textAt]
  cases node.lookup (parts path) <;> rfl

theorem resolveAll_of_isAbsolute (h : IsAbsolute path) (node : Payload) :
    node.resolveAll path = .ok (node.nodesAt path) := by
  rw [resolveAll, segments_of_isAbsolute h, nodesAt]
  rfl

end Payload

end StatementPress
