import StatementPress.Proofs.Walk.Decoding
import StatementPress.Proofs.Walk.Places

/-!
# Identifiers and page numbers of a walk

An identifier or a page number is an event, and one that came up before is a finding.  So a walk is
without findings exactly if it is clean and no identifier and no page number comes up twice
(`findings_eq_nil_iff`).

Which of them come up, and in which order, can be read off the value: the identifiers of its
component slots that are strings and not empty, and the numbers of its pages that are counters.
-/

namespace StatementPress

/-- The identifier of an event. -/
def Event.componentId? : Event → Option String
  | .componentId id _ => some id
  | _ => none

/-- The page number of an event. -/
def Event.pageNumber? : Event → Option Nat
  | .pageNumber n _ => some n
  | _ => none

namespace Walk

open Json (get? itemsOf)

variable {events earlier : List Event} {path : String}

/-- The identifiers that events come across, in order. -/
def componentIds (events : List Event) : List String := events.filterMap Event.componentId?

/-- The page numbers that events come across, in order. -/
def pageNumbers (events : List Event) : List Nat := events.filterMap Event.pageNumber?

@[simp] theorem componentIds_append (xs ys : List Event) :
    componentIds (xs ++ ys) = componentIds xs ++ componentIds ys := List.filterMap_append

@[simp] theorem pageNumbers_append (xs ys : List Event) :
    pageNumbers (xs ++ ys) = pageNumbers xs ++ pageNumbers ys := List.filterMap_append

@[simp] theorem componentIds_componentId (id : String) :
    componentIds [.componentId id path] = [id] := rfl

@[simp] theorem pageNumbers_componentId (id : String) :
    pageNumbers [.componentId id path] = [] := rfl

@[simp] theorem componentIds_pageNumber (n : Nat) :
    componentIds [.pageNumber n path] = [] := rfl

@[simp] theorem pageNumbers_pageNumber (n : Nat) : pageNumbers [.pageNumber n path] = [n] := rfl

/-! ## Findings of repetition -/

/-- There is no first component with an identifier exactly if none has it. -/
theorem firstComponent?_eq_none_iff {id : String} :
    firstComponent? id events = none ↔ id ∉ componentIds events := by
  induction events with
  | nil => simp [firstComponent?, componentIds]
  | cons e rest ih =>
    cases e with
    | componentId other path =>
      rw [firstComponent?]
      by_cases h : other = id
      · simp [h, componentIds, Event.componentId?]
      · rw [if_neg h, ih]
        simp [componentIds, Event.componentId?, Ne.symm h]
    | _ => exact ih

theorem firstPage?_eq_none_iff {n : Nat} : firstPage? n events = none ↔ n ∉ pageNumbers events := by
  induction events with
  | nil => simp [firstPage?, pageNumbers]
  | cons e rest ih =>
    cases e with
    | pageNumber other path =>
      rw [firstPage?]
      by_cases h : other = n
      · simp [h, pageNumbers, Event.pageNumber?]
      · rw [if_neg h, ih]
        simp [pageNumbers, Event.pageNumber?, Ne.symm h]
    | _ => exact ih

theorem nodup_append_singleton {α : Type} {l : List α} (h : l.Nodup) {a : α} :
    (l ++ [a]).Nodup ↔ a ∉ l := by
  rw [(List.perm_append_singleton a l).nodup_iff, List.nodup_cons, and_iff_left h]

/-- One event is no finding exactly if it is clean and repeats nothing. -/
theorem finding?_eq_none_iff (hids : (componentIds earlier).Nodup)
    (hnumbers : (pageNumbers earlier).Nodup) {e : Event} :
    finding? earlier e = none ↔
      Clean [e] ∧ (componentIds (earlier ++ [e])).Nodup ∧ (pageNumbers (earlier ++ [e])).Nodup := by
  rw [componentIds_append, pageNumbers_append]
  cases e with
  | finding f => simp [finding?, Clean]
  | componentId id path =>
    simp [finding?, Clean, firstComponent?_eq_none_iff, nodup_append_singleton hids, hnumbers]
  | pageNumber n path =>
    simp [finding?, Clean, firstPage?_eq_none_iff, nodup_append_singleton hnumbers, hids]
  | unknownKind kind path =>
    have hid : componentIds [.unknownKind kind path] = [] := rfl
    have hnumber : pageNumbers [.unknownKind kind path] = [] := rfl
    simp [finding?, Clean, hid, hnumber, hids, hnumbers]

/-- **Nothing is found exactly if no rule is broken and no identifier or page number comes up
again.** -/
theorem findingsAfter_eq_nil_iff (hids : (componentIds earlier).Nodup)
    (hnumbers : (pageNumbers earlier).Nodup) :
    findingsAfter earlier events = [] ↔ Clean events ∧ (componentIds (earlier ++ events)).Nodup ∧
      (pageNumbers (earlier ++ events)).Nodup := by
  induction events generalizing earlier with
  | nil => simp [findingsAfter, hids, hnumbers]
  | cons e rest ih =>
    have hclean : Clean (e :: rest) ↔ Clean [e] ∧ Clean rest := by
      rw [← List.singleton_append, clean_append]
    rw [findingsAfter, List.append_eq_nil_iff, Option.toList_eq_nil_iff,
      finding?_eq_none_iff hids hnumbers, hclean, List.append_cons earlier e rest]
    constructor
    · rintro ⟨⟨he, hid, hnumber⟩, hrest⟩
      obtain ⟨hrest, hnodup⟩ := (ih hid hnumber).mp hrest
      exact ⟨⟨he, hrest⟩, hnodup⟩
    · rintro ⟨⟨he, hrest⟩, hid, hnumber⟩
      -- what does not repeat with all that follows does not repeat before it
      have hid' := hid.sublist ((List.sublist_append_left (earlier ++ [e]) rest).filterMap _)
      have hnumber' :=
        hnumber.sublist ((List.sublist_append_left (earlier ++ [e]) rest).filterMap _)
      exact ⟨⟨he, hid', hnumber'⟩, (ih hid' hnumber').mpr ⟨hrest, hid, hnumber⟩⟩

/-- **A walk has no finding exactly if it is clean and repeats no identifier and no page
number.** -/
theorem findings_eq_nil_iff : findings events = [] ↔
    Clean events ∧ (componentIds events).Nodup ∧ (pageNumbers events).Nodup :=
  findingsAfter_eq_nil_iff List.nodup_nil List.nodup_nil

/-! ## Which names come up -/

/-- Findings and unknown kinds name no identifiers and no page numbers. -/
theorem silent_parametric :
    Parametric (fun _ _ => True) fun xs _ => componentIds xs = [] ∧ pageNumbers xs = [] where
  join _ _ := trivial
  item _ _ := trivial
  components _ := trivial
  nil := ⟨rfl, rfl⟩
  append hx hy := by simp [hx, hy]
  finding _ := ⟨rfl, rfl⟩
  unknownKind _ := ⟨rfl, rfl⟩

theorem unnumbered_parametric : Parametric (fun _ _ => True) fun xs _ => pageNumbers xs = [] where
  join _ _ := trivial
  item _ _ := trivial
  components _ := trivial
  nil := rfl
  append hx hy := by rw [pageNumbers_append, hx, hy, List.append_nil]
  finding _ := rfl
  unknownKind _ := rfl

@[simp] theorem componentIds_report (fault : Option String) :
    componentIds (report path fault) = [] :=
  (silent_parametric.report (q := path) trivial fault).1

@[simp] theorem pageNumbers_report (fault : Option String) : pageNumbers (report path fault) = [] :=
  (silent_parametric.report (q := path) trivial fault).2

theorem componentIds_items {visit : Json → String → List Event} {names : Json → List String}
    (h : ∀ v path, componentIds (visit v path) = names v) (path : String) (i : Nat)
    (values : List Json) : componentIds (items visit path i values) = values.flatMap names := by
  induction values generalizing i with
  | nil => rfl
  | cons v rest ih => rw [items, componentIds_append, h, ih, List.flatMap_cons]

theorem pageNumbers_items {visit : Json → String → List Event} {numbers : Json → List Nat}
    (h : ∀ v path, pageNumbers (visit v path) = numbers v) (path : String) (i : Nat)
    (values : List Json) : pageNumbers (items visit path i values) = values.flatMap numbers := by
  induction values generalizing i with
  | nil => rfl
  | cons v rest ih => rw [items, pageNumbers_append, h, ih, List.flatMap_cons]

/-- The identifier under which a component is known: a string that is not empty. -/
def idOf? (v : Json) : Option String :=
  match v.get? "id" with
  | some (.string s) => if s.isEmpty then none else some s
  | _ => none

/-- The number under which a page is known. -/
def numberOf? (v : Json) : Option Nat := (Rule.counter (v.get? "pageNumber")).toOption

/-- The component slots of a region. -/
def regionSlots (v : Option Json) : List Json := itemsOf (v.bind (get? "components"))

/-- The component slots of a page, in the order of the walk. -/
def pageSlots (v : Json) : List Json :=
  regionSlots (v.get? "header") ++ regionSlots (v.get? "body") ++ regionSlots (v.get? "footer")

/-- The component slots of a template, in the order of the walk. -/
def slots (v : Json) : List Json := (itemsOf (v.get? "pages")).flatMap pageSlots

theorem componentIds_identifier (obj : Json) (path : String) :
    componentIds (identifier obj path) = (idOf? obj).toList := by
  unfold identifier idOf?
  cases obj.get? "id" with
  | none => simp
  | some v =>
    cases v with
    | string s => by_cases hs : s = "" <;> simp [hs]
    | _ => simp

/-- A component has one identifier, if any. -/
theorem componentIds_component (v : Json) (path : String) :
    componentIds (component v path) = (idOf? v).toList := by
  cases v with
  | object members =>
    have hkind := (silent_parametric.kind (p := path) (q := path) trivial (.object members)).1
    rw [component, object, componentIds_append, hkind, List.append_nil, componentIds_identifier]
  | _ => simp [component, object, idOf?, get?]

/-- The identifiers in a region are those of its components, in order. -/
theorem componentIds_region (v : Option Json) (path : String) :
    componentIds (region v path) = (regionSlots v).filterMap idOf? := by
  rcases v with _ | v
  · simp [region, object, regionSlots, itemsOf]
  · cases v with
    | object members =>
      rw [region, object, regionSlots, Option.bind_some]
      cases (Json.object members).get? "components" with
      | none => simp [itemsOf, componentIds]
      | some w =>
        cases w with
        | array values =>
          rw [itemsOf, List.filterMap_eq_flatMap_toList]
          exact componentIds_items componentIds_component _ 0 values
        | _ => simp [itemsOf]
    | _ => simp [region, object, regionSlots, itemsOf, get?]

theorem pageNumbers_region (v : Option Json) (path : String) : pageNumbers (region v path) = [] :=
  unnumbered_parametric.region (q := path) (fun _ => rfl) trivial v

@[simp] theorem componentIds_field (obj : Json) (base key : String) (rule : Rule) :
    componentIds (field obj base key rule) = [] := componentIds_report _

@[simp] theorem pageNumbers_field (obj : Json) (base key : String) (rule : Rule) :
    pageNumbers (field obj base key rule) = [] := pageNumbers_report _

/-- The identifiers in a page are those of its components, in order. -/
theorem componentIds_page (v : Json) (path : String) :
    componentIds (page v path) = (pageSlots v).filterMap idOf? := by
  cases v with
  | object members =>
    have hnumber : componentIds (number (.object members) path) = [] := by
      unfold number
      cases Rule.counter ((Json.object members).get? "pageNumber") <;> simp
    simp [page, object, pageSlots, hnumber, componentIds_region]
  | _ => simp [page, object, pageSlots, regionSlots, itemsOf, get?]

/-- A page has one number, if any. -/
theorem pageNumbers_page (v : Json) (path : String) :
    pageNumbers (page v path) = (numberOf? v).toList := by
  cases v with
  | object members =>
    have hnumber : pageNumbers (number (.object members) path) =
        (numberOf? (.object members)).toList := by
      unfold number numberOf?
      cases Rule.counter ((Json.object members).get? "pageNumber") <;> simp [Except.toOption]
    simp [page, object, hnumber, pageNumbers_region]
  | _ => simp [page, object, numberOf?, get?, Rule.counter, Except.toOption]

/-- What the walk over each page names, the walk over all of them names in order. -/
theorem names_pages {α : Type} {names : List Event → List α} {of : Json → List α}
    (hreport : ∀ reason, names (report path (some reason)) = [])
    (hitems : ∀ values, names (items page path 0 values) = values.flatMap of) (v : Option Json) :
    names (pages v path) = (itemsOf v).flatMap of := by
  rcases v with _ | v
  · exact hreport "is required"
  · cases v with
    | array values =>
      cases values with
      | nil => exact hreport "must contain at least one page"
      | cons v rest => exact hitems (v :: rest)
    | _ => exact hreport "must be an array"

/-- **The identifiers of a walk are those of the component slots**, in order. -/
theorem componentIds_template (v : Json) :
    componentIds (template v) = (slots v).filterMap idOf? := by
  cases v with
  | object members =>
    have hpages : ∀ v, componentIds (pages v "pages") =
        (itemsOf v).flatMap fun p => (pageSlots p).filterMap idOf? :=
      names_pages (fun _ => componentIds_report _) (componentIds_items componentIds_page _ 0)
    simp [template, object, hpages, slots, List.filterMap_flatMap]
  | _ => simp [template, object, slots, itemsOf, get?]

/-- **The page numbers of a walk are those of the pages**, in order. -/
theorem pageNumbers_template (v : Json) :
    pageNumbers (template v) = (itemsOf (v.get? "pages")).filterMap numberOf? := by
  cases v with
  | object members =>
    have hpages : ∀ v, pageNumbers (pages v "pages") =
        (itemsOf v).flatMap fun p => (numberOf? p).toList :=
      names_pages (fun _ => pageNumbers_report _) (pageNumbers_items pageNumbers_page _ 0)
    simp [template, object, hpages, List.filterMap_eq_flatMap_toList]
  | _ => simp [template, object, itemsOf, get?]

end Walk

end StatementPress
