import Mathlib
import StatementPress.Proofs.Walk.Reports
import StatementPress.Proofs.Walk.Slots

/-!
# Names that come up again

Identifiers and page numbers are names: an event gives a name to a place, and is a finding if the name
was given before.  The finding names the first place that has it.  What follows is said of any such
`Naming` once: its findings are read off the list of names and places that the events give
(`Naming.mem_findings_iff`), and if that is the list of names of things in a strict order, a thing
gets a finding exactly if one before it has the same name (`Naming.repeated_iff`).
-/

namespace StatementPress

open Json (get? itemsOf)
open Finding (join item)

namespace Walk

/-- A way in which events give names to places, and the finding of a place whose name was given
before: by the name, the place and the first place. -/
structure Naming (α : Type) [DecidableEq α] where
  named? : Event → Option (α × String)
  finding : α → String → String → Finding
  named?_finding : ∀ f, named? (.finding f) = none
  finding?_eq : ∀ {earlier : List Event} {e : Event} {a : α} {path : String},
    named? e = some (a, path) →
      finding? earlier e = ((earlier.filterMap named?).lookup a).map (finding a path)

/-- The names that events give, with their places. -/
def Naming.names {α : Type} [DecidableEq α] (naming : Naming α) (events : List Event) :
    List (α × String) := events.filterMap naming.named?

section Findings

variable {α : Type} [DecidableEq α] {naming : Naming α} {events : List Event} {f : Finding}

/-- **A name is reported exactly if it was given before**, with the first place that it was given to. -/
theorem Naming.mem_findings_iff {About : Finding → Prop}
    (hown : ∀ a path first, About (naming.finding a path first))
    (hother : ∀ earlier e later, events = earlier ++ e :: later → naming.named? e = none →
      ∀ g, finding? earlier e = some g → ¬ About g) :
    f ∈ findings events ∧ About f ↔ ∃ before a path after first,
      naming.names events = before ++ (a, path) :: after ∧ before.lookup a = some first ∧
        f = naming.finding a path first := by
  rw [Walk.mem_findings_iff]
  constructor
  · rintro ⟨⟨earlier, e, later, rfl, hf⟩, habout⟩
    cases hnamed : naming.named? e with
    | none => exact absurd habout (hother earlier e later rfl hnamed f hf)
    | some named =>
      obtain ⟨a, path⟩ := named
      rw [naming.finding?_eq hnamed] at hf
      obtain ⟨first, hfirst, rfl⟩ := Option.map_eq_some_iff.mp hf
      refine ⟨naming.names earlier, a, path, naming.names later, first, ?_, hfirst, rfl⟩
      rw [names, List.filterMap_append, List.filterMap_cons_some hnamed]
      rfl
  · rintro ⟨before, a, path, after, first, hnames, hfirst, rfl⟩
    obtain ⟨earlier, rest, rfl, rfl, hrest⟩ := List.filterMap_eq_append_iff.mp hnames
    obtain ⟨silent, e, later, rfl, hsilent, hnamed, rfl⟩ := List.filterMap_eq_cons_iff.mp hrest
    refine ⟨⟨earlier ++ silent, e, later, by simp, ?_⟩, hown a path first⟩
    rw [naming.finding?_eq hnamed, List.filterMap_append, List.filterMap_eq_nil_iff.mpr hsilent,
      List.append_nil, hfirst]
    rfl

end Findings

section Order

variable {α σ : Type} {name? : σ → Option α} {path : σ → String} {l : List σ}

/-- The names of things that have one, with their places. -/
def namesOf (name? : σ → Option α) (path : σ → String) (l : List σ) : List (α × String) :=
  l.filterMap fun s => (name? s).map (·, path s)

theorem namesOf_append (l l' : List σ) :
    namesOf name? path (l ++ l') = namesOf name? path l ++ namesOf name? path l' :=
  List.filterMap_append

theorem namesOf_cons {s : σ} {a : α} (h : name? s = some a) (l : List σ) :
    namesOf name? path (s :: l) = (a, path s) :: namesOf name? path l :=
  List.filterMap_cons_some (by rw [h]; rfl)

/-- Names are split where the things are that have them. -/
theorem exists_of_namesOf {before after : List (α × String)} {a : α} {place : String}
    (h : namesOf name? path l = before ++ (a, place) :: after) :
    ∃ earlier s later, l = earlier ++ s :: later ∧ name? s = some a ∧ path s = place ∧
      namesOf name? path earlier = before := by
  obtain ⟨earlier, rest, rfl, rfl, hrest⟩ := List.filterMap_eq_append_iff.mp h
  obtain ⟨unnamed, s, later, rfl, hunnamed, hs, -⟩ := List.filterMap_eq_cons_iff.mp hrest
  obtain ⟨b, hb, hpair⟩ := Option.map_eq_some_iff.mp hs
  cases hpair
  refine ⟨earlier ++ unnamed, s, later, by simp, hb, rfl, ?_⟩
  rw [namesOf_append]
  have hnil : namesOf name? path unnamed = [] := List.filterMap_eq_nil_iff.mpr hunnamed
  rw [hnil, List.append_nil]
  rfl

/-- The place of a name is that of the first thing with the name. -/
theorem lookup_namesOf_eq_some_iff [DecidableEq α] {a : α} {first : String} :
    (namesOf name? path l).lookup a = some first ↔
      ∃ before t after, l = before ++ t :: after ∧ name? t = some a ∧ path t = first ∧
        ∀ u ∈ before, name? u ≠ some a := by
  rw [List.lookup_eq_some_iff]
  constructor
  · rintro ⟨before, after, hnames, hbefore⟩
    obtain ⟨earlier, t, later, rfl, ht, rfl, rfl⟩ := exists_of_namesOf hnames
    refine ⟨earlier, t, later, rfl, ht, rfl, fun u hu hname => ?_⟩
    have hmem : (a, path u) ∈ namesOf name? path earlier :=
      List.mem_filterMap.mpr ⟨u, hu, by rw [hname]; rfl⟩
    simpa using hbefore _ hmem
  · rintro ⟨before, t, after, rfl, ht, rfl, hbefore⟩
    refine ⟨namesOf name? path before, namesOf name? path after, ?_, fun p hp => ?_⟩
    · rw [namesOf_append, namesOf_cons ht]
    · obtain ⟨u, hu, hpair⟩ := List.mem_filterMap.mp hp
      obtain ⟨b, hb, rfl⟩ := Option.map_eq_some_iff.mp hpair
      rw [bne_iff_ne]
      rintro rfl
      exact hbefore u hu hb

/-- What comes before a thing in a strict order stands in front of it. -/
theorem mem_of_before {Before : σ → σ → Prop} {front back : List σ} {t u : σ}
    (hl : (front ++ t :: back).Pairwise Before) (hasymm : ∀ {s t}, Before s t → ¬ Before t s)
    (hu : u ∈ front ++ t :: back) (h : Before u t) : u ∈ front := by
  obtain ⟨-, hback, -⟩ := List.pairwise_append.mp hl
  rcases List.mem_append.mp hu with hu | hu
  · exact hu
  rcases List.mem_cons.mp hu with rfl | hu
  · exact absurd h (hasymm h)
  · exact absurd h (hasymm ((List.pairwise_cons.mp hback).1 u hu))

/-- **In a strict order, a name was given before exactly if something before has it**; the first thing
with the name is the one before which nothing has it.  The things are known by keys here, which are in
the order and tell the places, and `Named` says which key has which name. -/
theorem repeated_iff [DecidableEq α] {κ : Type} {key : σ → κ} {place : κ → String}
    {Before : κ → κ → Prop} {Named : κ → α → Prop}
    (hl : l.Pairwise fun s t => Before (key s) (key t))
    (hasymm : ∀ {j k}, Before j k → ¬ Before k j)
    (hnamed : ∀ k a, Named k a ↔ ∃ s ∈ l, key s = k ∧ name? s = some a)
    (Told : α → String → String → Prop) :
    (∃ before a path after first, namesOf name? (fun s => place (key s)) l =
      before ++ (a, path) :: after ∧ before.lookup a = some first ∧ Told a path first) ↔
    ∃ j k a, Named k a ∧ Before j k ∧ Named j a ∧ (∀ i, Before i j → ¬ Named i a) ∧
      Told a (place k) (place j) := by
  constructor
  · rintro ⟨before, a, path, after, first, hnames, hfirst, htold⟩
    obtain ⟨earlier, s, later, rfl, hs, rfl, rfl⟩ := exists_of_namesOf hnames
    obtain ⟨front, t, back, rfl, ht, rfl, hfront⟩ := lookup_namesOf_eq_some_iff.mp hfirst
    obtain ⟨-, -, hcross⟩ := List.pairwise_append.mp hl
    have hbefore : Before (key t) (key s) := hcross t (by simp) s (by simp)
    refine ⟨key t, key s, a, (hnamed _ a).mpr ⟨s, by simp, rfl, hs⟩, hbefore,
      (hnamed _ a).mpr ⟨t, by simp, rfl, ht⟩, fun i hi hia => ?_, htold⟩
    obtain ⟨u, hu, rfl, hname⟩ := (hnamed i a).mp hia
    rw [List.append_assoc] at hl hu
    exact hfront u (mem_of_before hl hasymm hu hi) hname
  · rintro ⟨j, k, a, hka, hjk, hja, hfirst, htold⟩
    obtain ⟨s, hs, rfl, hsname⟩ := (hnamed k a).mp hka
    obtain ⟨t, ht, rfl, htname⟩ := (hnamed j a).mp hja
    -- `t` comes before `s`, so it stands in front of it
    obtain ⟨earlier, later, rfl⟩ := List.append_of_mem hs
    obtain ⟨front, back, rfl⟩ := List.append_of_mem (mem_of_before hl hasymm ht hjk)
    refine ⟨namesOf name? (fun s => place (key s)) (front ++ t :: back), a, place (key s),
      namesOf name? (fun s => place (key s)) later, place (key t), ?_, ?_, htold⟩
    · rw [namesOf_append, namesOf_cons hsname]
    · refine lookup_namesOf_eq_some_iff.mpr ⟨front, t, back, rfl, htname, rfl, fun u hu hname => ?_⟩
      obtain ⟨hearlier, -, -⟩ := List.pairwise_append.mp hl
      obtain ⟨-, -, hcross⟩ := List.pairwise_append.mp hearlier
      exact hfirst (key u) (hcross u hu t (by simp)) ((hnamed _ a).mpr ⟨u, by simp [hu], rfl, hname⟩)

end Order

/-! ## Identifiers and page numbers -/

/-- The identifier that an event gives to the path of a component. -/
def namedId? : Event → Option (String × String)
  | .componentId id path => some (id, path)
  | _ => none

/-- The number that an event gives to the path of a page. -/
def namedNumber? : Event → Option (Nat × String)
  | .pageNumber n path => some (n, path)
  | _ => none

/-- The first component with an identifier is found by looking the identifier up. -/
theorem firstComponent?_eq_lookup (id : String) (events : List Event) :
    firstComponent? id events = (events.filterMap namedId?).lookup id := by
  induction events with
  | nil => rfl
  | cons e rest ih =>
    cases e with
    | componentId other path =>
      have hnamed : namedId? (.componentId other path) = some (other, path) := rfl
      rw [firstComponent?, List.filterMap_cons_some hnamed, List.lookup_cons, ih]
      by_cases h : other = id
      · simp [h]
      · rw [if_neg h, beq_eq_false_iff_ne.mpr (Ne.symm h)]
    | _ => exact ih

/-- The first page with a number is found by looking the number up. -/
theorem firstPage?_eq_lookup (n : Nat) (events : List Event) :
    firstPage? n events = (events.filterMap namedNumber?).lookup n := by
  induction events with
  | nil => rfl
  | cons e rest ih =>
    cases e with
    | pageNumber other path =>
      have hnamed : namedNumber? (.pageNumber other path) = some (other, path) := rfl
      rw [firstPage?, List.filterMap_cons_some hnamed, List.lookup_cons, ih]
      by_cases h : other = n
      · simp [h]
      · rw [if_neg h, beq_eq_false_iff_ne.mpr (Ne.symm h)]
    | _ => exact ih

/-- Identifiers name component slots. -/
def ids : Naming String where
  named? := namedId?
  finding id path first := ⟨join path "id", Finding.repeatedId id first⟩
  named?_finding _ := rfl
  finding?_eq := by
    intro earlier e id path he
    cases e with
    | componentId =>
      cases he
      rw [← firstComponent?_eq_lookup]
      rfl
    | _ => cases he

/-- Page numbers name pages. -/
def numbers : Naming Nat where
  named? := namedNumber?
  finding n path first := ⟨join path "pageNumber", Finding.repeatedNumber n first⟩
  named?_finding _ := rfl
  finding?_eq := by
    intro earlier e n path he
    cases e with
    | pageNumber =>
      cases he
      rw [← firstPage?_eq_lookup]
      rfl
    | _ => cases he

/-! ## The names of a walk -/

section Names

variable {α : Type} [DecidableEq α] (naming : Naming α) {raw : Json}

@[simp] theorem Naming.names_append (xs ys : List Event) :
    naming.names (xs ++ ys) = naming.names xs ++ naming.names ys := List.filterMap_append

theorem Naming.names_items (visit : Json → String → List Event) (path : String) (i : Nat)
    (values : List Json) : naming.names (items visit path i values) =
      (values.zipIdx i).flatMap fun p => naming.names (visit p.1 (item path p.2)) := by
  induction values generalizing i with
  | nil => rfl
  | cons v rest ih => rw [items, names_append, ih, List.zipIdx_cons, List.flatMap_cons]

@[simp] theorem Naming.names_report (path : String) (fault : Option String) :
    naming.names (report path fault) = [] := by
  cases fault with
  | none => rfl
  | some reason => exact List.filterMap_cons_none (naming.named?_finding _)

@[simp] theorem Naming.names_field (obj : Json) (base key : String) (rule : Rule) :
    naming.names (field obj base key rule) = [] := naming.names_report _ _

/-- What the walk over each page names, the walk over all of them names in order. -/
theorem Naming.names_pages (v : Option Json) (path : String) : naming.names (pages v path) =
    (itemsOf v).zipIdx.flatMap fun p => naming.names (page p.1 (item path p.2)) := by
  rcases v with _ | v
  · simp [pages, itemsOf]
  · cases v with
    | array values =>
      cases values with
      | nil => simp [pages, itemsOf]
      | cons v rest => exact naming.names_items page path 0 (v :: rest)
    | _ => simp [pages, itemsOf]

end Names

/-! ### Identifiers -/

theorem map_fst_names_ids (events : List Event) :
    (ids.names events).map (·.1) = componentIds events := by
  rw [Naming.names, List.map_filterMap]
  refine List.filterMap_congr fun e _ => ?_
  cases e <;> rfl

theorem names_ids_identifier (obj : Json) (path : String) :
    ids.names (identifier obj path) = ((idOf? obj).map (·, path)).toList := by
  unfold identifier idOf?
  cases obj.get? "id" with
  | none => simp
  | some v =>
    cases v with
    | string s =>
      by_cases hs : s = ""
      · simp [hs]
      · simp [hs]
        rfl
    | _ => simp

theorem names_ids_component (v : Json) (path : String) :
    ids.names (component v path) = ((idOf? v).map (·, path)).toList := by
  cases v with
  | object members =>
    have hkind := (silent_parametric.kind (p := path) (q := path) trivial (.object members)).1
    rw [← map_fst_names_ids, List.map_eq_nil_iff] at hkind
    rw [component, object, Naming.names_append, hkind, List.append_nil, names_ids_identifier]
  | _ => rfl

/-- The identifiers in a region, each with the place of its component. -/
theorem names_ids_region (v : Option Json) (path : String) :
    ids.names (region v path) = (regionSlots v).zipIdx.flatMap fun c =>
      ((idOf? c.1).map (·, item (path ++ ".components") c.2)).toList := by
  rcases v with _ | v
  · rfl
  · cases v with
    | object members =>
      rw [region, object, regionSlots, Option.bind_some]
      cases (Json.object members).get? "components" with
      | none => rfl
      | some w =>
        cases w with
        | array values =>
          rw [itemsOf, Naming.names_items]
          simp only [names_ids_component]
        | _ => rfl
    | _ => rfl

/-- The identifiers in a page, each with the place of its component. -/
theorem names_ids_page (v : Json) (path : String) :
    ids.names (page v path) = RegionKind.all.flatMap fun r =>
      (regionSlots (v.get? r.name)).zipIdx.flatMap fun c =>
        ((idOf? c.1).map (·, item (join path r.name ++ ".components") c.2)).toList := by
  cases v with
  | object members =>
    have hnumber : ids.names (number (.object members) path) = [] := by
      unfold number
      split
      · rfl
      · exact ids.names_report _ _
    rw [page, object, Naming.names_append, Naming.names_append, Naming.names_append,
      Naming.names_append, Naming.names_append, Naming.names_field, Naming.names_field, hnumber,
      names_ids_region, names_ids_region, names_ids_region, List.append_nil, List.append_nil,
      List.nil_append, List.append_assoc]
    rw [RegionKind.all, List.flatMap_cons, List.flatMap_cons, List.flatMap_cons, List.flatMap_nil,
      List.append_nil]
    rfl
  | _ => simp [page, object, RegionKind.all, regionSlots, itemsOf, get?]

/-- **The identifiers that a walk comes across are those in the slots**, at the paths of the slots. -/
theorem names_ids_template (raw : Json) : ids.names (template raw) =
    namesOf (fun c => idOf? c.2) (fun c => c.1.path) (slotsOf raw) := by
  cases raw with
  | object members =>
    simp [template, object, Naming.names_pages, names_ids_page, namesOf, slotsOf,
      List.filterMap_eq_flatMap_toList, List.flatMap_assoc, List.flatMap_map, Slot.path_eq]
  | _ => rfl

/-! ### Page numbers -/

theorem map_fst_names_numbers (events : List Event) :
    (numbers.names events).map (·.1) = pageNumbers events := by
  rw [Naming.names, List.map_filterMap]
  refine List.filterMap_congr fun e _ => ?_
  cases e <;> rfl

/-- The number of a page, with the place of the page. -/
theorem names_numbers_page (v : Json) (path : String) :
    numbers.names (page v path) = ((numberOf? v).map (·, path)).toList := by
  cases v with
  | object members =>
    have hregion : ∀ v path, numbers.names (region v path) = [] := by
      intro v path
      have hnone := pageNumbers_region v path
      rwa [← map_fst_names_numbers, List.map_eq_nil_iff] at hnone
    have hnumber : numbers.names (number (.object members) path) =
        ((numberOf? (.object members)).map (·, path)).toList := by
      unfold number numberOf?
      cases Rule.counter ((Json.object members).get? "pageNumber") with
      | ok n => rfl
      | error reason => exact numbers.names_report _ _
    simp [page, object, hnumber, hregion]
  | _ => rfl

/-- **The page numbers that a walk comes across are those of the pages**, at their paths. -/
theorem names_numbers_template (raw : Json) : numbers.names (template raw) =
    namesOf (fun p => numberOf? p.1) (fun p => item "pages" p.2)
      (itemsOf (raw.get? "pages")).zipIdx := by
  cases raw with
  | object members =>
    simp [template, object, Naming.names_pages, names_numbers_page, namesOf,
      List.filterMap_eq_flatMap_toList]
  | _ => rfl

end Walk

end StatementPress
