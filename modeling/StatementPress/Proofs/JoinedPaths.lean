import StatementPress.Proofs.AbsolutePath

/-!
# Paths put together from segments

A path can go on with any number of segments (`extend`), and the path with given segments is the empty
one going on with them (`ofSegments_eq_extend`).  Segments that can be segments are found again:
`parts_extend`, `parts_ofSegments`; and the parts of a path always can be (`isSegment_of_mem_parts`).
-/

namespace StatementPress.Path

/-- A path that goes on with segments. -/
def extend (path : String) (names : List String) : String :=
  names.foldl (fun p name => p ++ "/" ++ name) path

variable {path : String} {names : List String}

@[simp] theorem extend_nil (path : String) : extend path [] = path := rfl

theorem extend_cons (path name : String) (names : List String) :
    extend path (name :: names) = extend (path ++ "/" ++ name) names := rfl

theorem extend_append (path : String) (names rest : List String) :
    extend path (names ++ rest) = extend (extend path names) rest := List.foldl_append

/-- Extending a path by segments appends them to its parts. -/
theorem parts_extend (h : IsStart path) (hnames : ∀ name ∈ names, IsSegment name) :
    parts (extend path names) = parts path ++ names := by
  induction names generalizing path with
  | nil => rw [extend_nil, List.append_nil]
  | cons name names ih =>
    obtain ⟨hname, hnames⟩ := List.forall_mem_cons.mp hnames
    rw [extend_cons, ih (.inr (isAbsolute_append_slash h name)) hnames, parts_append_slash h hname,
      List.append_assoc, List.singleton_append]

theorem toList_extend (path : String) (names : List String) :
    (extend path names).toList = path.toList ++ names.flatMap fun name => '/' :: name.toList := by
  induction names generalizing path with
  | nil => rw [extend_nil, List.flatMap_nil, List.append_nil]
  | cons name names ih => rw [extend_cons, ih, toList_append_slash, List.flatMap_cons, List.append_assoc]

/-- A slash in front and slashes between come to a slash in front of each. -/
theorem cons_intercalate_slash {parts : List (List Char)} (h : parts ≠ []) :
    '/' :: ['/'].intercalate parts = parts.flatMap ('/' :: ·) := by
  induction parts with
  | nil => exact absurd rfl h
  | cons part parts ih =>
    cases parts with
    | nil => simp
    | cons next parts =>
      rw [List.intercalate_cons_cons, List.flatMap_cons, ← ih (List.cons_ne_nil _ _), List.append_assoc]
      rfl

/-- **The path with given segments is the empty one going on with them**, if there are any. -/
theorem ofSegments_eq_extend (h : names ≠ []) : ofSegments names = extend "" names := by
  apply String.toList_injective
  have hparts : names.map String.toList ≠ [] := fun hnil => h (List.map_eq_nil_iff.mp hnil)
  have hslash : "/".toList = ['/'] := rfl
  rw [toList_extend, ofSegments, String.toList_append, String.toList_intercalate, hslash,
    List.singleton_append, cons_intercalate_slash hparts, List.flatMap_map]
  rfl

/-- The parts of joined segments are the segments. -/
theorem parts_ofSegments (h : ∀ name ∈ names, IsSegment name) : parts (ofSegments names) = names := by
  by_cases hne : names = []
  · rw [hne]
    decide
  · rw [ofSegments_eq_extend hne, parts_extend (.inl rfl) h]
    rfl

/-! ## The segments of a path -/

theorem slash_not_mem_of_mem_split {cs part : List Char} (h : part ∈ split cs) : '/' ∉ part := by
  induction cs generalizing part with
  | nil =>
    rw [List.mem_singleton.mp h]
    exact List.not_mem_nil
  | cons c cs ih =>
    rw [split] at h
    by_cases hslash : c = '/'
    · rw [if_pos hslash] at h
      rcases List.mem_cons.mp h with rfl | h
      · exact List.not_mem_nil
      · exact ih h
    · rw [if_neg hslash] at h
      cases hcs : split cs with
      | nil => exact absurd hcs (split_ne_nil cs)
      | cons first rest =>
        rw [hcs] at h ih
        rcases List.mem_cons.mp h with rfl | h
        · exact List.not_mem_cons_of_ne_of_not_mem (Ne.symm hslash) (ih List.mem_cons_self)
        · exact ih (List.mem_cons_of_mem first h)

/-- The parts of a path are segments. -/
theorem isSegment_of_mem_parts {name : String} (h : name ∈ parts path) : IsSegment name := by
  obtain ⟨part, hpart, rfl⟩ := List.mem_map.mp h
  obtain ⟨hsplit, hne⟩ := List.mem_filter.mp hpart
  refine isSegment_ofList (fun hempty => ?_) (slash_not_mem_of_mem_split hsplit)
  rw [hempty] at hne
  cases hne

end StatementPress.Path
