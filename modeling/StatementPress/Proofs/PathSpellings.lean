import StatementPress.Proofs.JoinedPaths

/-!
# Spellings of paths

Many paths have the same segments.  A path *spells* segments (`Spells`) if a slash or more stands
before each of them and any number of slashes after the last; where there are no segments one slash
has to stand all the same.  Finding the segments of a path undoes every spelling, and only
spellings have segments (`segments_eq_ok_iff`).  The path with given segments, which has no slash
more than it needs, is one of them (`spells_ofSegments`).

Payloads are looked up by segments, so every spelling of a path leads to the same nodes.  A column
of a table relies on this: the rest of its path is put together again from segments, and where no
segment is left, the path `/` leads to the row itself.
-/

namespace StatementPress

namespace Path

/-- **Whether a text spells segments**: slashes before each of them, and perhaps after the last. -/
inductive Spells : List Char → List String → Prop
  /-- No segments at all. -/
  | root : Spells ['/'] []
  /-- One slash more than before. -/
  | slash {path : List Char} {names : List String} (h : Spells path names) :
      Spells ('/' :: path) names
  /-- A segment at the end of the text. -/
  | last {name : String} (hname : IsSegment name) : Spells ('/' :: name.toList) [name]
  /-- A segment with more text behind it. -/
  | next {name : String} {path : List Char} {names : List String} (hname : IsSegment name)
      (h : Spells path names) : Spells ('/' :: (name.toList ++ path)) (name :: names)

/-- One slash more adds no part. -/
theorem partsAfter_slash (cs : List Char) : partsAfter ('/' :: cs) = partsAfter cs :=
  partsAfter_append_slash [] cs

/-! ## Spelling and finding again -/

/-- A text that spells segments starts with a slash, and they are found after it. -/
theorem Spells.exists_rest {path : List Char} {names : List String} (h : Spells path names) :
    ∃ cs, path = '/' :: cs ∧ partsAfter cs = names := by
  induction h with
  | root => exact ⟨[], rfl, rfl⟩
  | slash _ ih =>
    obtain ⟨cs, rfl, hcs⟩ := ih
    exact ⟨'/' :: cs, rfl, (partsAfter_slash cs).trans hcs⟩
  | last hname => exact ⟨_, rfl, partsAfter_of_isSegment hname⟩
  | next hname _ ih =>
    obtain ⟨cs, rfl, hcs⟩ := ih
    refine ⟨_, rfl, ?_⟩
    rw [partsAfter_append_slash, partsAfter_of_isSegment hname, hcs, List.singleton_append]

/-- Whatever follows a slash spells its segments.  The induction is on the length of the text: up to
the next slash it is a segment or nothing, and after that slash less of it is left. -/
theorem spells_partsAfter (cs : List Char) : Spells ('/' :: cs) (partsAfter cs) := by
  by_cases hslash : '/' ∈ cs
  · obtain ⟨name, rest, hcs, hname⟩ := List.eq_append_cons_of_mem hslash
    have hshorter : rest.length < cs.length := by
      rw [hcs, List.length_append, List.length_cons]
      omega
    have hrest : Spells ('/' :: rest) (partsAfter rest) := spells_partsAfter rest
    rw [hcs, partsAfter_append_slash]
    by_cases hempty : name = []
    · subst hempty
      exact .slash hrest
    · have hsegment := isSegment_ofList hempty hname
      have hfound := partsAfter_of_isSegment hsegment
      have hspelled := Spells.next hsegment hrest
      rw [String.toList_ofList] at hfound hspelled
      rwa [hfound]
  · by_cases hempty : cs = []
    · subst hempty
      exact .root
    · have hsegment := isSegment_ofList hempty hslash
      have hfound := partsAfter_of_isSegment hsegment
      have hspelled := Spells.last hsegment
      rw [String.toList_ofList] at hfound hspelled
      rwa [hfound]
termination_by cs.length

/-- **The segments of a path are those that it spells.**  A text that spells none is no path. -/
theorem segments_eq_ok_iff {path : String} {names : List String} :
    segments path = .ok names ↔ Spells path.toList names := by
  constructor
  · intro h
    by_cases habsolute : IsAbsolute path
    · obtain ⟨cs, hcs⟩ := habsolute.exists_rest
      rw [segments_of_isAbsolute habsolute, Except.ok.injEq, parts_eq_partsAfter hcs] at h
      rw [hcs, ← h]
      exact spells_partsAfter cs
    · rw [segments_of_not_isAbsolute habsolute] at h
      cases h
  · intro h
    obtain ⟨cs, hcs, hnames⟩ := h.exists_rest
    have habsolute : IsAbsolute path := by
      rw [IsAbsolute, hcs, List.head?_cons]
    rw [segments_of_isAbsolute habsolute, parts_eq_partsAfter hcs, hnames]

/-- The path with given segments spells them. -/
theorem spells_ofSegments {names : List String} (h : ∀ name ∈ names, IsSegment name) :
    Spells (ofSegments names).toList names := by
  rw [← segments_eq_ok_iff, segments_of_isAbsolute (isAbsolute_ofSegments names), parts_ofSegments h]

end Path

/-! ## Looking up -/

open StatementPress.Path

/-- Paths with the same segments lead to the same text and to the same nodes. -/
theorem Payload.resolve_eq_of_segments_eq {path other : String} (h : segments path = segments other)
    (node : Payload) :
    node.resolve path = node.resolve other ∧ node.resolveAll path = node.resolveAll other := by
  rw [resolve, resolve, resolveAll, resolveAll, h]
  exact ⟨rfl, rfl⟩

/-- **Finding the segments of a path undoes joining them.**  Segments that were joined are found
again, whatever they are and however many.  The segments of an absolute path are not empty and hold
no slash, and the path leads from any node where they lead when they are joined.  The paths with
these segments are all their spellings: how many slashes stand between the segments, before the
first and after the last makes no difference. -/
theorem Path.segments_undo_joining :
    (∀ names, (∀ name ∈ names, IsSegment name) → segments (ofSegments names) = .ok names) ∧
    (∀ path, IsAbsolute path → ∃ names, segments path = .ok names ∧
      (∀ name ∈ names, IsSegment name) ∧
      ∀ node : Payload, node.resolve path = node.resolve (ofSegments names) ∧
        node.resolveAll path = node.resolveAll (ofSegments names)) ∧
    ∀ path names, segments path = .ok names ↔ Spells path.toList names := by
  have hjoined : ∀ names, (∀ name ∈ names, IsSegment name) →
      segments (ofSegments names) = .ok names := by
    intro names hnames
    exact segments_eq_ok_iff.mpr (spells_ofSegments hnames)
  refine ⟨hjoined, ?_, fun _ _ => segments_eq_ok_iff⟩
  intro path habsolute
  have hsegments := segments_of_isAbsolute habsolute
  have hnames : ∀ name ∈ parts path, IsSegment name := fun _ => isSegment_of_mem_parts
  refine ⟨parts path, hsegments, hnames, fun node => ?_⟩
  exact Payload.resolve_eq_of_segments_eq (hsegments.trans (hjoined _ hnames).symm) node

/-- A path with slashes in front, between and behind, and the segments it spells. -/
theorem Path.segments_undo_joining_of_looseDebtPath :
    (∀ name ∈ ["Case", "Debt"], IsSegment name) ∧ IsAbsolute "//Case///Debt/" ∧
      segments (ofSegments ["Case", "Debt"]) = .ok ["Case", "Debt"] ∧
      Spells "//Case///Debt/".toList ["Case", "Debt"] ∧
      ∀ node : Payload, node.resolve "//Case///Debt/" = node.resolve "/Case/Debt" ∧
        node.resolveAll "//Case///Debt/" = node.resolveAll "/Case/Debt" := by
  obtain ⟨hjoined, hfound, hspelled⟩ := segments_undo_joining
  have hsegments : ∀ name ∈ ["Case", "Debt"], IsSegment name := by
    intro name hname
    rcases List.mem_pair.mp hname with rfl | rfl
    · exact ⟨by decide, by decide⟩
    · exact ⟨by decide, by decide⟩
  have hloose : segments "//Case///Debt/" = .ok ["Case", "Debt"] := rfl
  obtain ⟨names, hnames, -, hsame⟩ := hfound "//Case///Debt/" (by decide)
  rw [hloose, Except.ok.injEq] at hnames
  subst hnames
  exact ⟨hsegments, by decide, hjoined _ hsegments, (hspelled _ _).mp hloose, hsame⟩

end StatementPress
