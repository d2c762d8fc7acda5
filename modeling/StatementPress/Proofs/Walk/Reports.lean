import Mathlib
import StatementPress.Proofs.Walk.Addresses

/-!
# What a walk reports

Each event of a walk is true of the value that is walked over (`Event.TrueOf`): its path leads to the
place it speaks of, and what it says of the place holds there.  A finding tells of something that is
missing exactly if there is nothing (`Tells`).  The one finding that does not say so is that of a text
without content: it is reported at the content, whether there is some or not.

The walk goes along the value, so there is one statement for each of its parts, with what its path
leads to as the only hypothesis (`TrueThroughout`).
-/

namespace StatementPress

open Finding (join item)

/-- The wording of what is missing. -/
def Finding.missing : String := "is required"

/-- The wording of a text that has nothing to show. -/
def Finding.showsNothing : String := "text component must include content or binding"

/-- The wording of an identifier that came up before. -/
def Finding.repeatedId (id first : String) : String :=
  "duplicate component id '" ++ id ++ "' (also used by " ++ first ++ ")"

/-- The wording of a page number that came up before. -/
def Finding.repeatedNumber (n : Nat) (first : String) : String :=
  "duplicate page number " ++ Text.decimal n ++ " (also used by " ++ first ++ ")"

/-- Whether a wording is about a value that is there, and not about its repetition: only that is worded
with a `d` in front. -/
def Finding.IsFault (reason : String) : Prop :=
  reason ≠ missing ∧ reason.toList[0]? ≠ some 'd'

instance : DecidablePred Finding.IsFault := fun reason =>
  inferInstanceAs (Decidable (reason ≠ Finding.missing ∧ reason.toList[0]? ≠ some 'd'))

/-- Whether a wording fits what stands at the place that it speaks of. -/
inductive Finding.Tells : String → Option Json → Prop
  | missing : Tells Finding.missing none
  | fault {reason : String} (v : Json) (h : IsFault reason) : Tells reason (some v)
  | showsNothing (value : Option Json) : Tells Finding.showsNothing value

open Finding (IsFault Tells)

/-- What is reported as missing is not there. -/
theorem Finding.Tells.eq_none {reason : String} {value : Option Json} (h : Tells reason value)
    (hreason : reason = Finding.missing) : value = none := by
  cases h with
  | missing => rfl
  | fault v hfault => exact absurd hreason hfault.1
  | showsNothing => exact absurd hreason (by decide)

/-- What is reported otherwise is there, unless it shows nothing. -/
theorem Finding.Tells.isSome {reason : String} {value : Option Json} (h : Tells reason value)
    (hreason : reason ≠ Finding.missing) (hshows : reason ≠ Finding.showsNothing) :
    value.isSome = true := by
  cases h with
  | missing => exact absurd rfl hreason
  | fault v hfault => rfl
  | showsNothing => exact absurd rfl hshows

theorem Finding.getElem?_append {start : String} {i : Nat} {c : Char}
    (h : start.toList[i]? = some c) (rest : String) : (start ++ rest).toList[i]? = some c := by
  rw [String.toList_append, List.getElem?_append_left (List.getElem?_eq_some_iff.mp h).1, h]

theorem Finding.isFault_append {start : String} (h : start.toList[0]? = some 'm') (rest : String) :
    IsFault (start ++ rest) := by
  have hfirst := Finding.getElem?_append h rest
  refine ⟨fun heq => ?_, ?_⟩
  · rw [heq] at hfirst
    revert hfirst
    decide
  · rw [hfirst]
    decide

theorem Finding.repeatedId_getElem? (id first : String) :
    (Finding.repeatedId id first).toList[0]? = some 'd' ∧
      (Finding.repeatedId id first).toList[10]? = some 'c' := by
  unfold Finding.repeatedId
  constructor
  all_goals
    iterate 4 refine Finding.getElem?_append ?_ _
    decide

theorem Finding.repeatedNumber_getElem? (n : Nat) (first : String) :
    (Finding.repeatedNumber n first).toList[0]? = some 'd' ∧
      (Finding.repeatedNumber n first).toList[10]? = some 'p' := by
  unfold Finding.repeatedNumber
  constructor
  all_goals
    iterate 4 refine Finding.getElem?_append ?_ _
    decide

/-- The wordings of the two kinds of repetition differ. -/
theorem Finding.repeatedId_ne_repeatedNumber (id first : String) (n : Nat) (place : String) :
    Finding.repeatedId id first ≠ Finding.repeatedNumber n place := by
  intro h
  have hchar := (Finding.repeatedId_getElem? id first).2
  rw [h, (Finding.repeatedNumber_getElem? n place).2] at hchar
  exact absurd hchar (by decide)

/-! ## Rules -/

/-- Whether what a rule finds wrong with a value, or with its absence, is worded accordingly. -/
def Rule.IsApt (rule : Rule) : Prop := ∀ value, ∀ reason ∈ rule value, Tells reason value

namespace Walk

theorem isApt_name : Rule.name.IsApt := by
  intro value reason h
  unfold Rule.name at h
  split at h
  · cases h
    exact .missing
  · split at h
    · cases h
      exact .fault _ (by decide)
    · cases h
  · cases h
    exact .fault _ (by decide)

theorem isApt_optionalString : Rule.optionalString.IsApt := by
  intro value reason h
  unfold Rule.optionalString at h
  split at h
  · cases h
  · cases h
  · cases h
    exact .fault _ (by decide)

/-- A broken bound is worded as a fault. -/
theorem isFault_of_bound {bound : Rule.Bound} {x : Binary64} {reason : String}
    (h : reason ∈ bound.fault x) : IsFault reason := by
  unfold Rule.Bound.fault at h
  split at h
  all_goals
    split at h
    · cases h
      decide
    · cases h

/-- What the rule for numbers finds wrong is worded accordingly. -/
theorem isApt_optionalNumber (bound : Rule.Bound) : (Rule.optionalNumber bound).IsApt := by
  intro value reason h
  unfold Rule.optionalNumber at h
  split at h
  · cases h
  · exact .fault _ (isFault_of_bound h)
  · cases h
    exact .fault _ (by decide)

theorem isApt_number (bound : Rule.Bound) : (Rule.number bound).IsApt := by
  intro value reason h
  unfold Rule.number at h
  split at h
  · cases h
    exact .missing
  · exact isApt_optionalNumber bound _ reason h

theorem isApt_optionalOneOf (allowed : List String) : (Rule.optionalOneOf allowed).IsApt := by
  have hreason : IsFault (Rule.optionalOneOf.reason allowed) :=
    Finding.isFault_append (by decide) _
  intro value reason h
  unfold Rule.optionalOneOf at h
  split at h
  · cases h
  · split at h
    · cases h
    · cases h
      exact .fault _ hreason
  · cases h
    exact .fault _ hreason

/-- What the rule for choices finds wrong is worded accordingly. -/
theorem isApt_oneOf (allowed : List String) : (Rule.oneOf allowed).IsApt := by
  intro value reason h
  unfold Rule.oneOf at h
  split at h
  · cases h
    exact .missing
  · exact isApt_optionalOneOf allowed _ reason h

theorem isApt_optionalColor : Rule.optionalColor.IsApt := by
  intro value reason h
  unfold Rule.optionalColor at h
  split at h
  · cases h
  · split at h
    · cases h
    · cases h
      exact .fault _ (by decide)
  · cases h
    exact .fault _ (by decide)

theorem isApt_version : Rule.version.IsApt := by
  intro value reason h
  unfold Rule.version at h
  split at h
  · cases h
    exact .missing
  · split at h
    · cases h
    · cases h
      exact .fault _ (by decide)
  · cases h
    exact .fault _ (by decide)

theorem isApt_fontFamily : Rule.IsApt fontFamily := by
  intro value reason h
  unfold fontFamily at h
  split at h
  · cases h
  · exact isApt_name _ reason h

theorem tells_of_counter {value : Option Json} {reason : String}
    (h : Rule.counter value = .error reason) : Tells reason value := by
  unfold Rule.counter at h
  split at h
  · cases h
    exact .missing
  · split at h
    · cases h
      exact .fault _ (by decide)
    · split at h
      · cases h
        exact .fault _ (by decide)
      · cases h
  · split at h
    · cases h
      exact .fault _ (by decide)
    · cases h
      exact .fault _ (by decide)
  · cases h
    exact .fault _ (by decide)

theorem isApt_counterRule : counterRule.IsApt := by
  intro value reason h
  unfold counterRule at h
  split at h
  · cases h
  · rename_i fault hfault
    cases h
    exact tells_of_counter hfault

end Walk

/-! ## Events -/

/-- Whether what an event says is true of a value. -/
def Event.TrueOf (raw : Json) : Event → Prop
  | .finding f => ∃ value, Walk.LeadsTo raw f.path value ∧ Tells f.reason value
  | .componentId id path => ∃ members, Walk.LeadsTo raw path (some (.object members)) ∧
      (Json.object members).get? "id" = some (.string id)
  | .pageNumber n path => ∃ members, Walk.LeadsTo raw path (some (.object members)) ∧
      (Json.object members).get? "pageNumber" = some (.ofNat n)
  | .unknownKind _ _ => True

namespace Walk

/-- Whether what all events say is true of a value. -/
def TrueThroughout (raw : Json) (events : List Event) : Prop := ∀ e ∈ events, e.TrueOf raw

variable {raw : Json} {xs ys : List Event} {path key : String} {value : Option Json}
  {members : List (String × Json)}

theorem true_nil (raw : Json) : TrueThroughout raw [] := List.forall_mem_nil _

theorem true_append (hx : TrueThroughout raw xs) (hy : TrueThroughout raw ys) :
    TrueThroughout raw (xs ++ ys) := List.forall_mem_append.mpr ⟨hx, hy⟩

/-- A report is true if the path leads to the value and the wording tells of it. -/
theorem true_report {fault : Option String} (h : LeadsTo raw path value)
    (hfault : ∀ reason ∈ fault, Tells reason value) : TrueThroughout raw (report path fault) := by
  cases fault with
  | none => exact true_nil raw
  | some reason => exact List.forall_mem_singleton.mpr ⟨value, h, hfault reason rfl⟩

theorem true_finding {reason : String} (h : LeadsTo raw path value) (htells : Tells reason value) :
    TrueThroughout raw (report path (some reason)) :=
  true_report h fun _ hreason => Option.some.inj hreason ▸ htells

/-- What is reported of a field is true of the member under its key. -/
theorem true_field {rule : Rule} (h : LeadsTo raw path (some (.object members)))
    (hkey : IsPlainKey key) (hrule : rule.IsApt) :
    TrueThroughout raw (field (.object members) path key rule) :=
  true_report (h.member _ hkey) (hrule _)

/-- What is reported of an object is true of it, and a value that is none is reported as such. -/
theorem true_object {inside : Json → List Event} (h : LeadsTo raw path value)
    (hinside : ∀ members, LeadsTo raw path (some (.object members)) →
      TrueThroughout raw (inside (.object members))) :
    TrueThroughout raw (object value path inside) := by
  unfold object
  split
  · exact true_finding h .missing
  · exact hinside _ h
  · exact true_finding h (.fault _ (by decide))

/-- What is reported of items is true of them. -/
theorem true_items {visit : Json → String → List Event} {values : List Json}
    (h : LeadsTo raw path (some (.array values)))
    (hvisit : ∀ v q, LeadsTo raw q (some v) → TrueThroughout raw (visit v q)) :
    TrueThroughout raw (items visit path 0 values) := by
  -- the items that are left are at the indices from `i` on
  suffices hfrom : ∀ (rest : List Json) (i : Nat), (∀ j, values[i + j]? = rest[j]?) →
      TrueThroughout raw (items visit path i rest) from hfrom values 0 (by simp)
  intro rest
  induction rest with
  | nil => exact fun i _ => true_nil raw
  | cons v rest ih =>
    intro i hrest
    have hv : values[i]? = some v := hrest 0
    refine true_append (hvisit v _ (h.item hv)) (ih (i + 1) fun j => ?_)
    rw [Nat.add_assoc, Nat.add_comm 1 j, hrest (j + 1), List.getElem?_cons_succ]

/-! ### Parts of components -/

theorem true_binding (h : LeadsTo raw path value) : TrueThroughout raw (binding value path) := by
  refine true_object h fun members h => true_append ?_ ?_
  · exact true_field h (by decide) isApt_name
  · exact true_field h (by decide) isApt_optionalString

theorem true_position (h : LeadsTo raw path value) : TrueThroughout raw (position value path) := by
  refine true_object h fun members h => ?_
  repeat' refine true_append ?_ ?_
  all_goals exact true_field h (by decide) (isApt_number _)

theorem true_style (h : LeadsTo raw path value) : TrueThroughout raw (style value path) := by
  refine true_object h fun members h => ?_
  refine true_append (true_append (true_append (true_append ?_ ?_) ?_) ?_) ?_
  · exact true_field h (by decide) isApt_fontFamily
  · exact true_field h (by decide) (isApt_optionalNumber _)
  · exact true_field h (by decide) (isApt_optionalOneOf _)
  · exact true_field h (by decide) isApt_optionalColor
  · exact true_field h (by decide) (isApt_optionalOneOf _)

/-- What is not `null` stands where it is looked for. -/
theorem get?_of_present {obj v : Json} (h : present obj key = some v) : obj.get? key = some v := by
  unfold present at h
  split at h
  · cases h
  · exact h

theorem true_text (h : LeadsTo raw path (some (.object members))) :
    TrueThroughout raw (text (.object members) path) := by
  have hcontent := h.member "content" (by decide)
  have hbinding := h.member "binding" (by decide)
  refine true_append (true_append (true_append ?_ ?_) ?_)
    (true_style (h.member "style" (by decide)))
  · refine true_report hcontent fun reason hreason => ?_
    cases hpresent : present (.object members) "content" with
    | none =>
      rw [hpresent] at hreason
      cases hreason
    | some v =>
      rw [hpresent] at hreason
      rw [get?_of_present hpresent]
      exact isApt_optionalString _ reason hreason
  · split
    · rename_i hbound
      obtain ⟨v, hv⟩ := Option.isSome_iff_exists.mp hbound
      rw [get?_of_present hv] at hbinding
      rw [hv]
      exact true_binding hbinding
    · exact true_nil raw
  · split
    · exact true_finding hcontent (.showsNothing _)
    · exact true_nil raw

theorem true_column {v : Json} (h : LeadsTo raw path (some v)) :
    TrueThroughout raw (column v path) := by
  refine true_object h fun members h => ?_
  refine true_append (true_append (true_append ?_ ?_) ?_) ?_
  · exact true_field h (by decide) isApt_name
  · exact true_field h (by decide) isApt_name
  · exact true_field h (by decide) (isApt_number _)
  · exact true_binding (h.member _ (by decide))

theorem true_columns (h : LeadsTo raw path value) : TrueThroughout raw (columns value path) := by
  unfold columns
  split
  · exact true_finding h .missing
  · exact true_finding h (.fault _ (by decide))
  · exact true_items h fun v q hv => true_column hv
  · exact true_finding h (.fault _ (by decide))

theorem true_kindFields (h : LeadsTo raw path (some (.object members))) (kind : String) :
    TrueThroughout raw (kindFields kind (.object members) path) := by
  have hbinding : ∀ key, IsPlainKey key →
      TrueThroughout raw (binding ((Json.object members).get? key) (join path key)) :=
    fun key hkey => true_binding (h.member _ hkey)
  unfold kindFields
  split
  · exact true_text h
  · exact true_append (true_field h (by decide) isApt_name)
      (true_field h (by decide) isApt_optionalString)
  · exact true_append (true_field h (by decide) (isApt_optionalNumber _))
      (true_field h (by decide) isApt_optionalColor)
  · exact true_append (hbinding _ (by decide)) (true_columns (h.member _ (by decide)))
  · exact true_append (true_field h (by decide) isApt_optionalString) (hbinding _ (by decide))
  · exact true_append (true_field h (by decide) isApt_name) (hbinding _ (by decide))
  · exact true_append (true_field h (by decide) isApt_name) (true_field h (by decide) isApt_name)
  · exact true_nil raw

/-! ### Components, regions, pages -/

theorem true_identifier (h : LeadsTo raw path (some (.object members))) :
    TrueThroughout raw (identifier (.object members) path) := by
  have hid := h.member "id" (by decide)
  unfold identifier
  split
  · rename_i s hs
    split
    · rw [hs] at hid
      exact true_finding hid (.fault _ (by decide))
    · exact List.forall_mem_singleton.mpr ⟨members, h, hs⟩
  · exact true_report hid (isApt_name _)

theorem true_kind (h : LeadsTo raw path (some (.object members))) :
    TrueThroughout raw (kind (.object members) path) := by
  have htype := h.member "type" (by decide)
  unfold kind
  split
  · rename_i hnone
    rw [hnone] at htype
    exact true_finding htype .missing
  · split
    · exact true_append (true_position (h.member _ (by decide))) (true_kindFields h _)
    · exact List.forall_mem_singleton.mpr trivial
  · rename_i hv
    rw [hv] at htype
    exact true_finding htype (.fault _ (by decide))

/-- What is reported of a component is true of it. -/
theorem true_component {v : Json} (h : LeadsTo raw path (some v)) :
    TrueThroughout raw (component v path) :=
  true_object h fun _ h => true_append (true_identifier h) (true_kind h)

/-- What is reported of a region is true of it. -/
theorem true_region (hpath : path ≠ "") (h : LeadsTo raw path value) :
    TrueThroughout raw (region value path) := by
  refine true_object h fun members h => ?_
  have hcomponents := h.member "components" (by decide)
  split
  · exact true_nil raw
  · rename_i values hvalues
    rw [hvalues, ← components_eq_join hpath] at hcomponents
    exact true_items hcomponents fun v q hv => true_component hv
  · rename_i hv
    rw [hv] at hcomponents
    exact true_finding hcomponents (.fault _ (by decide))

theorem true_number (h : LeadsTo raw path (some (.object members))) :
    TrueThroughout raw (number (.object members) path) := by
  unfold number
  split
  · rename_i n hn
    exact List.forall_mem_singleton.mpr ⟨members, h, (counter_eq_ok.mp hn).1⟩
  · rename_i fault hfault
    refine true_report (h.member _ (by decide)) fun reason hreason => ?_
    cases hreason
    exact tells_of_counter hfault

/-- What is reported of a page is true of it. -/
theorem true_page {v : Json} (h : LeadsTo raw path (some v)) : TrueThroughout raw (page v path) := by
  refine true_object h fun members h => ?_
  have hregion : ∀ key, IsPlainKey key →
      TrueThroughout raw (region ((Json.object members).get? key) (join path key)) :=
    fun key hkey => true_region (join_ne_empty path hkey.1) (h.member _ hkey)
  refine true_append (true_append (true_append (true_append (true_append ?_ ?_) ?_) ?_) ?_) ?_
  · exact true_field h (by decide) isApt_name
  · exact true_number h
  · exact true_field h (by decide) (isApt_oneOf _)
  · exact hregion _ (by decide)
  · exact hregion _ (by decide)
  · exact hregion _ (by decide)

/-- What is reported of the pages is true of them. -/
theorem true_pages (h : LeadsTo raw path value) : TrueThroughout raw (pages value path) := by
  unfold pages
  split
  · exact true_finding h .missing
  · exact true_finding h (.fault _ (by decide))
  · exact true_items h fun v q hv => true_page hv
  · exact true_finding h (.fault _ (by decide))

/-- **What the walk over a value says is true of the value.** -/
theorem true_template (raw : Json) : TrueThroughout raw (template raw) := by
  refine true_object (leadsTo_root raw) fun members h => ?_
  have hname : ∀ key, IsPlainKey key →
      TrueThroughout raw (field (.object members) "" key Rule.name) :=
    fun key hkey => true_field h hkey isApt_name
  refine true_append (true_append (true_append (true_append (true_append (true_append (true_append
    (true_append (true_append ?_ ?_) ?_) ?_) ?_) ?_) ?_) ?_) ?_) ?_
  · exact true_field h (by decide) isApt_version
  · exact hname _ (by decide)
  · exact hname _ (by decide)
  · exact hname _ (by decide)
  · exact true_field h (by decide) isApt_optionalString
  · exact true_field h (by decide) (isApt_oneOf _)
  · exact true_field h (by decide) isApt_counterRule
  · exact hname _ (by decide)
  · exact hname _ (by decide)
  · exact true_pages (h.member "pages" (by decide))

/-! ## Findings -/

/-- A finding comes from one event, and depends on those before it. -/
theorem mem_findingsAfter_iff {done events : List Event} {f : Finding} :
    f ∈ findingsAfter done events ↔
      ∃ earlier e later, events = earlier ++ e :: later ∧ finding? (done ++ earlier) e = some f := by
  induction events generalizing done with
  | nil => simp [findingsAfter]
  | cons e rest ih =>
    rw [findingsAfter, List.mem_append, Option.mem_toList, ih]
    constructor
    · rintro (he | ⟨earlier, e', later, rfl, he'⟩)
      · exact ⟨[], e, rest, rfl, by rwa [List.append_nil]⟩
      · refine ⟨e :: earlier, e', later, rfl, ?_⟩
        rwa [List.append_assoc] at he'
    · rintro ⟨earlier, e', later, hsplit, he'⟩
      cases earlier with
      | nil =>
        obtain ⟨rfl, rfl⟩ := List.cons.inj hsplit
        exact .inl (by rwa [List.append_nil] at he')
      | cons first earlier =>
        obtain ⟨rfl, rfl⟩ := List.cons.inj hsplit
        refine .inr ⟨earlier, e', later, rfl, ?_⟩
        rwa [List.append_assoc]

/-- A finding comes from an event, given the events before it. -/
theorem mem_findings_iff {events : List Event} {f : Finding} : f ∈ findings events ↔
    ∃ earlier e later, events = earlier ++ e :: later ∧ finding? earlier e = some f :=
  mem_findingsAfter_iff

/-- A finding is about what its path leads to, and if it is about repetition there is something. -/
theorem tells_of_mem_findings {f : Finding} (h : f ∈ findings (template raw)) :
    ∃ value, LeadsTo raw f.path value ∧
      (Tells f.reason value ∨ f.reason.toList[0]? = some 'd' ∧ value.isSome) := by
  obtain ⟨earlier, e, later, hsplit, hf⟩ := mem_findings_iff.mp h
  have he : e.TrueOf raw := true_template raw e (by simp [hsplit])
  cases e with
  | finding g =>
    cases hf
    obtain ⟨value, hvalue, htells⟩ := he
    exact ⟨value, hvalue, .inl htells⟩
  | componentId id path =>
    obtain ⟨first, -, rfl⟩ := Option.map_eq_some_iff.mp hf
    obtain ⟨members, hpath, hid⟩ := he
    refine ⟨_, hpath.member _ (by decide), .inr ⟨(Finding.repeatedId_getElem? id first).1, ?_⟩⟩
    rw [hid]
    rfl
  | pageNumber n path =>
    obtain ⟨first, -, rfl⟩ := Option.map_eq_some_iff.mp hf
    obtain ⟨members, hpath, hnumber⟩ := he
    refine ⟨_, hpath.member _ (by decide), .inr ⟨(Finding.repeatedNumber_getElem? n first).1, ?_⟩⟩
    rw [hnumber]
    rfl
  | unknownKind kind path => cases hf

end Walk

end StatementPress
