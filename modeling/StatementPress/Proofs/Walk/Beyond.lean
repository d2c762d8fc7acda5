import Mathlib
import StatementPress.Proofs.Walk.Namings

/-!
# What matters beyond a place

What is found at a place or inside it is nobody else's business.  Beyond the place only the names matter
that were given there, because they may come up again.  So of the events of a walk only those count that
give a name, and those that are found elsewhere (`beyond`): the findings outside the place are the same
without the others (`findings_beyond`).

Of the events of a component no more than its identifier is left, seen from outside the component
(`beyond_component`).  If two values differ in a component only, with the same identifier, their walks
look the same from outside (`beyond_template`).  That is shown from the component up to the template, one
statement for each part of the walk on the way.
-/

namespace StatementPress

open Json (Step Address get?)
open Finding (join item)

namespace Walk

variable {base path key : String} {xs ys earlier events : List Event}

/-- Being below a place can be read off the texts. -/
theorem isBelow_iff_drop : IsBelow base path ↔
    base = "" ∨ base.toList <+: path.toList ∧ LeadsInto (path.toList.drop base.toList.length) := by
  refine or_congr_right ⟨?_, ?_⟩
  · rintro ⟨tail, hpath, htail⟩
    rw [hpath, List.drop_left]
    exact ⟨List.prefix_append _ _, htail⟩
  · rintro ⟨⟨tail, hpath⟩, htail⟩
    rw [← hpath, List.drop_left] at htail
    exact ⟨tail, hpath.symm, htail⟩

instance (tail : List Char) : Decidable (LeadsInto tail) :=
  inferInstanceAs (Decidable (∀ c ∈ tail.head?, c = '.' ∨ c = '['))

instance (base path : String) : Decidable (IsBelow base path) :=
  decidable_of_iff _ isBelow_iff_drop.symm

/-- The findings that are neither at a place nor inside it. -/
def outside (base : String) (findings : List Finding) : List Finding :=
  findings.filter fun f => ¬ IsBelow base f.path

@[simp] theorem outside_append (fs gs : List Finding) :
    outside base (fs ++ gs) = outside base fs ++ outside base gs := List.filter_append ..

/-- Whether an event matters for the findings outside a place. -/
def mattersBeyond (base : String) : Event → Bool
  | .finding f => ¬ IsBelow base f.path
  | .componentId _ _ => true
  | .pageNumber _ _ => true
  | .unknownKind _ _ => false

/-- The events that matter for the findings outside a place. -/
def beyond (base : String) (events : List Event) : List Event := events.filter (mattersBeyond base)

@[simp] theorem beyond_append (xs ys : List Event) :
    beyond base (xs ++ ys) = beyond base xs ++ beyond base ys := List.filter_append ..

/-- The names that were given all matter. -/
theorem Naming.names_beyond {α : Type} [DecidableEq α] (naming : Naming α)
    (h : ∀ e, mattersBeyond base e = false → naming.named? e = none) (events : List Event) :
    naming.names (beyond base events) = naming.names events := by
  rw [names, names, beyond, List.filterMap_filter]
  refine List.filterMap_congr fun e _ => ?_
  by_cases hmatters : mattersBeyond base e = true
  · rw [if_pos hmatters]
  · rw [if_neg hmatters, h e (by simpa using hmatters)]

/-- What an event reports depends only on the events before it that matter. -/
theorem finding?_beyond (base : String) (earlier : List Event) (e : Event) :
    finding? (beyond base earlier) e = finding? earlier e := by
  have hids : ids.names (beyond base earlier) = ids.names earlier := by
    refine ids.names_beyond (fun e he => ?_) earlier
    cases e <;> first | rfl | cases he
  have hnumbers : numbers.names (beyond base earlier) = numbers.names earlier := by
    refine numbers.names_beyond (fun e he => ?_) earlier
    cases e <;> first | rfl | cases he
  cases e with
  | componentId id path =>
    have hnamed : ids.named? (.componentId id path) = some (id, path) := rfl
    rw [ids.finding?_eq hnamed, ids.finding?_eq hnamed]
    exact congrArg (fun names => (List.lookup id names).map (ids.finding id path)) hids
  | pageNumber n path =>
    have hnamed : numbers.named? (.pageNumber n path) = some (n, path) := rfl
    rw [numbers.finding?_eq hnamed, numbers.finding?_eq hnamed]
    exact congrArg (fun names => (List.lookup n names).map (numbers.finding n path)) hnumbers
  | _ => rfl

/-- An event that does not matter has no finding outside. -/
theorem outside_of_not_matters {e : Event} (h : mattersBeyond base e = false)
    (earlier : List Event) : outside base (finding? earlier e).toList = [] := by
  cases e with
  | finding f =>
    have hbelow : IsBelow base f.path := by simpa [mattersBeyond] using h
    simp [finding?, outside, hbelow]
  | unknownKind kind path => rfl
  | _ => cases h

/-- **The findings outside a place are those of the events that matter there.** -/
theorem findingsAfter_beyond (base : String) (earlier events : List Event) :
    outside base (findingsAfter (beyond base earlier) (beyond base events)) =
      outside base (findingsAfter earlier events) := by
  induction events generalizing earlier with
  | nil => rfl
  | cons e rest ih =>
    have hrest := ih (earlier ++ [e])
    rw [findingsAfter, outside_append, ← hrest, beyond_append]
    -- an event that does not matter is left out, and what is found of it is inside the place
    by_cases h : mattersBeyond base e = true
    · have hevents : beyond base (e :: rest) = e :: beyond base rest := List.filter_cons_of_pos h
      have hone : beyond base [e] = [e] := List.filter_cons_of_pos h
      rw [hevents, hone, findingsAfter, outside_append, finding?_beyond]
    · have hnot : mattersBeyond base e = false := by simpa using h
      have hevents : beyond base (e :: rest) = beyond base rest := List.filter_cons_of_neg h
      have hone : beyond base [e] = [] := List.filter_cons_of_neg h
      rw [hevents, hone, List.append_nil, outside_of_not_matters hnot, List.nil_append]

/-- **Findings outside a place are those of the events beyond it.** -/
theorem findings_beyond (base : String) (events : List Event) :
    outside base (findings (beyond base events)) = outside base (findings events) :=
  findingsAfter_beyond base [] events

/-! ## Components -/

/-- What is found inside a place does not matter beyond it. -/
theorem inside_parametric (base : String) :
    Parametric (fun p _ => IsBelow base p) fun xs _ => beyond base xs = [] where
  join _ hp := hp.trans (isBelow_join _ _)
  item _ hp := hp.trans (isBelow_item _ _)
  components hp := hp.trans (isBelow_components _)
  nil := rfl
  append hx hy := by rw [beyond_append, hx, hy, List.append_nil]
  finding hp := by simp [beyond, mattersBeyond, hp]
  unknownKind _ := rfl

/-- **From outside no more can be seen of a component than its identifier.** -/
theorem beyond_component (v : Json) (path : String) :
    beyond path (component v path) = ((idOf? v).map (Event.componentId · path)).toList := by
  have hinside := inside_parametric path
  have hhere : IsBelow path path := isBelow_refl path
  have hreport : ∀ fault, beyond path (report (join path "id") fault) = [] :=
    hinside.report (q := path) (hhere.trans (isBelow_join path "id"))
  cases v with
  | object members =>
    rw [component, object, beyond_append, hinside.kind (q := path) hhere, List.append_nil]
    unfold identifier idOf?
    cases (Json.object members).get? "id" with
    | none => exact hreport _
    | some w =>
      cases w with
      | string id =>
        by_cases hid : id = ""
        · simp [hid, hreport]
        · simp [hid, beyond, mattersBeyond]
      | _ => exact hreport _
  | _ => exact hinside.report (q := path) hhere (some "must be an object")

/-! ## Walks that look the same -/

variable {v w old new : Json} {a : Address}

/-- The walk over an item that looks the same from outside looks the same among the others. -/
theorem beyond_items_set {visit : Json → String → List Event} {values : List Json} {i j : Nat}
    (hold : values[j]? = some old)
    (h : beyond base (visit new (item path (i + j))) = beyond base (visit old (item path (i + j)))) :
    beyond base (items visit path i (values.set j new)) = beyond base (items visit path i values) := by
  induction values generalizing i j with
  | nil => cases hold
  | cons first rest ih =>
    cases j with
    | zero =>
      cases hold
      rw [List.set_cons_zero, items, items, beyond_append, beyond_append]
      exact congrArg (· ++ beyond base (items visit path (i + 1) rest)) h
    | succ j =>
      have hindex : i + (j + 1) = i + 1 + j := by omega
      rw [hindex] at h
      rw [List.set_cons_succ, items, items, beyond_append, beyond_append, ih hold h]

theorem object_of_get? (h : v.get? key = some old) (path : String) (inside : Json → List Event) :
    object (some v) path inside = inside v := by
  cases v with
  | object members => rfl
  | _ => cases h

/-- Under the key stands what was put there. -/
theorem get?_putStep_self (h : v.get? key = some old) (w : Json) :
    (v.putStep (.key key) w).get? key = some w := by
  have hstep : v.step? (.key key) = some old := h
  exact Json.step?_putStep hstep w

/-- Under other keys stands what stood there. -/
theorem get?_putStep_of_ne (h : v.get? key = some old) (w : Json) {name : String} (hname : name ≠ key) :
    (v.putStep (.key key) w).get? name = v.get? name := by
  cases v with
  | object members => rw [Json.putStep, get?, Json.lookup_putMember h, if_neg hname, get?]
  | _ => cases h

/-- What is put into an item of an array that is a member. -/
theorem exists_of_at?_item {i : Nat} (h : v.at? (.key key :: .index i :: a) = some old) :
    ∃ values inner, v.get? key = some (.array values) ∧ values[i]? = some inner ∧
      inner.at? a = some old ∧ ∀ w, v.put (.key key :: .index i :: a) w =
        v.putStep (.key key) (.array (values.set i (inner.put a w))) := by
  obtain ⟨arr, harr, h⟩ := Json.exists_of_at?_cons h
  obtain ⟨inner, hinner, hold⟩ := Json.exists_of_at?_cons h
  cases arr with
  | array values =>
    refine ⟨values, inner, harr, hinner, hold, fun w => ?_⟩
    rw [Json.put_cons harr, Json.put_cons hinner, Json.putStep]
  | _ => cases hinner

/-- A change in one component of a region shows only at the component. -/
theorem beyond_region {j : Nat} (h : v.at? [.key "components", .index j] = some old)
    (hcomponent : beyond base (component new (item (path ++ ".components") j)) =
      beyond base (component old (item (path ++ ".components") j))) :
    beyond base (region (some (v.put [.key "components", .index j] new)) path) =
      beyond base (region (some v) path) := by
  obtain ⟨values, inner, hvalues, hinner, hold, hput⟩ := exists_of_at?_item h
  cases hold
  have hvalues' := get?_putStep_self hvalues (.array (values.set j new))
  rw [hput, Json.put, region, region, object_of_get? hvalues', object_of_get? hvalues, hvalues',
    hvalues]
  exact beyond_items_set hinner (by rwa [Nat.zero_add])

/-- A change in one region of a page shows only in the region. -/
theorem beyond_page {kind : RegionKind}
    (h : v.at? (.key kind.name :: a) = some old)
    (hregion : ∀ r, r.at? a = some old →
      beyond base (region (some (r.put a new)) (join path kind.name)) =
        beyond base (region (some r) (join path kind.name))) :
    beyond base (page (v.put (.key kind.name :: a) new) path) = beyond base (page v path) := by
  obtain ⟨r, hr, hold⟩ := Json.exists_of_at?_cons h
  rw [Json.put_cons hr]
  rw [Json.step?] at hr
  have hr' := get?_putStep_self hr (r.put a new)
  have hother : ∀ name ≠ kind.name,
      (v.putStep (.key kind.name) (r.put a new)).get? name = v.get? name :=
    fun name hname => get?_putStep_of_ne hr (r.put a new) hname
  -- from here on it counts only that all other members are the same
  generalize v.putStep (.key kind.name) (r.put a new) = v' at hr' hother
  have hregions : ∀ k : RegionKind, beyond base (region (v'.get? k.name) (join path k.name)) =
      beyond base (region (v.get? k.name) (join path k.name)) := by
    intro k
    by_cases hk : k.name = kind.name
    · rw [hk, hr', hr]
      exact hregion r hold
    · rw [hother k.name hk]
  have hheader := hregions .header
  have hbody := hregions .body
  have hfooter := hregions .footer
  have hid : v'.get? "id" = v.get? "id" := hother "id" (by cases kind <;> decide)
  have hnumber : v'.get? "pageNumber" = v.get? "pageNumber" :=
    hother "pageNumber" (by cases kind <;> decide)
  have hsize : v'.get? "size" = v.get? "size" := hother "size" (by cases kind <;> decide)
  simp only [RegionKind.name] at hheader hbody hfooter
  rw [page, page, object_of_get? hr', object_of_get? hr]
  simp only [beyond_append, field, number, hid, hnumber, hsize, hheader, hbody, hfooter]

/-- A change in one page shows only in the page. -/
theorem beyond_pages {values : List Json} {i : Nat} (hold : values[i]? = some old)
    (hpage : beyond base (page new (item path i)) = beyond base (page old (item path i))) :
    beyond base (pages (some (.array (values.set i new))) path) =
      beyond base (pages (some (.array values)) path) := by
  have hitems : beyond base (items page path 0 (values.set i new)) =
      beyond base (items page path 0 values) := beyond_items_set hold (by rwa [Nat.zero_add])
  -- there is an item, so neither array is empty
  cases values with
  | nil => cases hold
  | cons first rest =>
    cases i with
    | zero => exact hitems
    | succ i => exact hitems

/-- A change of the pages shows only in the pages. -/
theorem beyond_putStep_pages {raw : Json} (hold : raw.get? "pages" = some old)
    (hpages : beyond base (pages (some new) "pages") = beyond base (pages (some old) "pages")) :
    beyond base (template (raw.putStep (.key "pages") new)) = beyond base (template raw) := by
  have hnew := get?_putStep_self hold new
  have hother : ∀ name ≠ "pages", (raw.putStep (.key "pages") new).get? name = raw.get? name :=
    fun name hname => get?_putStep_of_ne hold new hname
  generalize raw.putStep (.key "pages") new = raw' at hnew hother
  have hfield : ∀ key rule, key ≠ "pages" → field raw' "" key rule = field raw "" key rule := by
    intro key rule hkey
    rw [field, field, hother key hkey]
  rw [template, template, object_of_get? hnew, object_of_get? hold, hnew, hold]
  simp (disch := decide) only [beyond_append, hfield, hpages]

/-- **Walks over two values that differ in a component only, with the same identifier, look the same
from outside the component.** -/
theorem beyond_template {raw : Json} {s : Slot} (h : raw.at? s.address = some old)
    (hid : idOf? old = idOf? new) :
    beyond s.path (template (raw.put s.address new)) = beyond s.path (template raw) := by
  obtain ⟨values, p, hvalues, hp, hold, hput⟩ := exists_of_at?_item h
  rw [Slot.address, hput]
  refine beyond_putStep_pages hvalues (beyond_pages hp ?_)
  refine beyond_page hold fun r hr => beyond_region hr ?_
  rw [← s.path_eq, beyond_component, beyond_component, hid]

end Walk

end StatementPress
