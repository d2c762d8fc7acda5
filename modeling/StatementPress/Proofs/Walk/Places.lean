import StatementPress.Proofs.Walk.Events

/-!
# The places of a walk

The walk carries its place along and writes it into its events, but never looks at it.  So if two
places are related, and the relation is passed on to what is below them, the events of a walk that
starts at either are related too, as soon as single events are (`Parametric`).

Two uses: inside an object every finding names a place, and whether a walk is clean does not depend
on where it starts.
-/

namespace StatementPress.Walk

open Finding (join item)

/-! ## What the walk respects -/

/-- **A relation of places and a relation of events that the walk cannot tell apart**, as far as it
comes across findings and unknown kinds only. -/
structure Parametric (S : String → String → Prop) (R : List Event → List Event → Prop) : Prop where
  join : ∀ {p q key}, key ≠ "" → S p q → S (join p key) (join q key)
  item : ∀ {p q} i, S p q → S (item p i) (item q i)
  components : ∀ {p q}, S p q → S (p ++ ".components") (q ++ ".components")
  nil : R [] []
  append : ∀ {xs ys xs' ys'}, R xs ys → R xs' ys' → R (xs ++ xs') (ys ++ ys')
  finding : ∀ {p q reason}, S p q → R [.finding ⟨p, reason⟩] [.finding ⟨q, reason⟩]
  unknownKind : ∀ {p q kind}, S p q → R [.unknownKind kind p] [.unknownKind kind q]

namespace Parametric

variable {S : String → String → Prop} {R : List Event → List Event → Prop} {p q : String}
  (h : Parametric S R)
include h

theorem report (hs : S p q) (fault : Option String) : R (report p fault) (report q fault) := by
  cases fault with
  | none => exact h.nil
  | some reason => exact h.finding hs

theorem field {key : String} (hkey : key ≠ "") (hs : S p q) (obj : Json) (rule : Rule) :
    R (field obj p key rule) (field obj q key rule) := h.report (h.join hkey hs) _

theorem object {inside inside' : Json → List Event} (hs : S p q)
    (hinside : ∀ obj, R (inside obj) (inside' obj)) (value : Option Json) :
    R (object value p inside) (object value q inside') := by
  rcases value with _ | v
  · exact h.report hs (some "is required")
  · cases v with
    | object members => exact hinside _
    | _ => exact h.report hs (some "must be an object")

theorem items {visit : Json → String → List Event}
    (hvisit : ∀ {p q}, S p q → ∀ v, R (visit v p) (visit v q)) (hs : S p q) (i : Nat)
    (values : List Json) : R (items visit p i values) (items visit q i values) := by
  induction values generalizing i with
  | nil => exact h.nil
  | cons v rest ih => exact h.append (hvisit (h.item i hs) v) (ih (i + 1))

/-! ### Parts of components -/

theorem binding (hs : S p q) (value : Option Json) : R (binding value p) (binding value q) :=
  h.object hs (fun obj => h.append (h.field (by decide) hs obj _) (h.field (by decide) hs obj _)) _

theorem position (hs : S p q) (value : Option Json) : R (position value p) (position value q) := by
  refine h.object hs (fun obj => ?_) _
  repeat' refine h.append ?_ ?_
  all_goals exact h.field (by decide) hs obj _

theorem style (hs : S p q) (value : Option Json) : R (style value p) (style value q) := by
  refine h.object hs (fun obj => ?_) _
  repeat' refine h.append ?_ ?_
  all_goals exact h.field (by decide) hs obj _

theorem text (hs : S p q) (obj : Json) : R (text obj p) (text obj q) := by
  have hcontent : S (Finding.join p "content") (Finding.join q "content") := h.join (by decide) hs
  have hbinding : S (Finding.join p "binding") (Finding.join q "binding") := h.join (by decide) hs
  have hstyle : S (Finding.join p "style") (Finding.join q "style") := h.join (by decide) hs
  unfold Walk.text
  refine h.append (h.append (h.append (h.report hcontent _) ?_) ?_) (h.style hstyle _)
  · split
    · exact h.binding hbinding _
    · exact h.nil
  · split
    · exact h.report hcontent _
    · exact h.nil

theorem column (hs : S p q) (v : Json) : R (column v p) (column v q) := by
  refine h.object hs (fun obj => h.append ?_ (h.binding (h.join (by decide) hs) _)) _
  repeat' refine h.append ?_ ?_
  all_goals exact h.field (by decide) hs obj _

theorem columns (hs : S p q) (value : Option Json) : R (columns value p) (columns value q) := by
  unfold Walk.columns
  split
  · exact h.report hs _
  · exact h.report hs _
  · exact h.items h.column hs 0 _
  · exact h.report hs _

theorem kindFields (hs : S p q) (kind : String) (obj : Json) :
    R (kindFields kind obj p) (kindFields kind obj q) := by
  have hfield : ∀ key rule, key ≠ "" → R (Walk.field obj p key rule) (Walk.field obj q key rule) :=
    fun key rule hkey => h.field hkey hs obj rule
  have hbinding : ∀ key, key ≠ "" → R (Walk.binding (obj.get? key) (Finding.join p key))
      (Walk.binding (obj.get? key) (Finding.join q key)) :=
    fun key hkey => h.binding (h.join hkey hs) _
  unfold Walk.kindFields
  split
  · exact h.text hs obj
  · exact h.append (hfield _ _ (by decide)) (hfield _ _ (by decide))
  · exact h.append (hfield _ _ (by decide)) (hfield _ _ (by decide))
  · exact h.append (hbinding _ (by decide)) (h.columns (h.join (by decide) hs) _)
  · exact h.append (hfield _ _ (by decide)) (hbinding _ (by decide))
  · exact h.append (hfield _ _ (by decide)) (hbinding _ (by decide))
  · exact h.append (hfield _ _ (by decide)) (hfield _ _ (by decide))
  · exact h.nil

theorem kind (hs : S p q) (obj : Json) : R (kind obj p) (kind obj q) := by
  have htype : S (Finding.join p "type") (Finding.join q "type") := h.join (by decide) hs
  unfold Walk.kind
  split
  · exact h.report htype _
  · split
    · exact h.append (h.position (h.join (by decide) hs) _) (h.kindFields hs _ obj)
    · exact h.unknownKind hs
  · exact h.report htype _

/-! ### Components and regions -/

section Components
variable (hid : ∀ {p q id}, S p q → R [.componentId id p] [.componentId id q])
include hid

/-- The walk through a component relates its events at two places. -/
theorem component (hs : S p q) (v : Json) : R (component v p) (component v q) := by
  refine h.object hs (fun obj => h.append ?_ (h.kind hs obj)) _
  have hjoin : S (Finding.join p "id") (Finding.join q "id") := h.join (by decide) hs
  unfold identifier
  split
  · split
    · exact h.report hjoin _
    · exact hid hs
  · exact h.report hjoin _

theorem region (hs : S p q) (value : Option Json) : R (region value p) (region value q) := by
  refine h.object hs (fun obj => ?_) _
  split
  · exact h.nil
  · exact h.items (h.component hid) (h.components hs) 0 _
  · exact h.report (h.join (by decide) hs) _

/-! ### Pages and templates -/

variable (hnumber : ∀ {p q n}, S p q → R [.pageNumber n p] [.pageNumber n q])
include hnumber

/-- The walk through a page relates its events at two places. -/
theorem page (hs : S p q) (v : Json) : R (page v p) (page v q) := by
  refine h.object hs (fun obj => ?_) _
  have hregion : ∀ key, key ≠ "" → R (Walk.region (obj.get? key) (Finding.join p key))
      (Walk.region (obj.get? key) (Finding.join q key)) :=
    fun key hkey => h.region hid (h.join hkey hs) _
  refine h.append (h.append (h.append (h.append (h.append ?_ ?_) ?_) ?_) ?_) ?_
  · exact h.field (by decide) hs obj _
  · unfold number
    split
    · exact hnumber hs
    · exact h.report (h.join (by decide) hs) _
  · exact h.field (by decide) hs obj _
  · exact hregion _ (by decide)
  · exact hregion _ (by decide)
  · exact hregion _ (by decide)

theorem pages (hs : S p q) (value : Option Json) : R (pages value p) (pages value q) := by
  unfold Walk.pages
  split
  · exact h.report hs _
  · exact h.report hs _
  · exact h.items (h.page hid hnumber) hs 0 _
  · exact h.report hs _

/-- The walk over an object starts at its members. -/
theorem template (hs : ∀ key, key ≠ "" → S key key) (members : List (String × Json)) :
    R (template (.object members)) (template (.object members)) := by
  have hfield : ∀ key rule, key ≠ "" → R (Walk.field (.object members) "" key rule)
      (Walk.field (.object members) "" key rule) := fun key rule hkey => h.report (hs key hkey) _
  refine h.append ?_ (h.pages hid hnumber (hs "pages" (by decide)) _)
  repeat' refine h.append ?_ ?_
  all_goals exact hfield _ _ (by decide)

end Components

end Parametric

/-! ## Findings name a place -/

/-- Whether every finding names a place. -/
def Located (events : List Event) : Prop := ∀ f, .finding f ∈ events → f.path ≠ ""

theorem join_ne_empty {key : String} (base : String) (h : key ≠ "") : join base key ≠ "" := by
  unfold join
  split
  · exact h
  · simp

/-- From a place with a name on, every finding names one. -/
theorem located_parametric : Parametric (fun p _ => p ≠ "") fun xs _ => Located xs where
  join hkey _ := join_ne_empty _ hkey
  item i _ := by simp [item]
  components _ := by simp
  nil := fun _ h => nomatch h
  append hx hy f hf := (List.mem_append.mp hf).elim (hx f) (hy f)
  finding hp f hf := by
    rw [List.mem_singleton] at hf
    cases hf
    exact hp
  unknownKind _ f hf := by simp at hf

/-- The findings of located events are located: repetition is reported at a member. -/
theorem path_ne_empty_of_mem_findings {earlier events : List Event} {f : Finding}
    (h : Located events) (hf : f ∈ findingsAfter earlier events) : f.path ≠ "" := by
  induction events generalizing earlier with
  | nil => cases hf
  | cons e rest ih =>
    have hrest : Located rest := fun g hg => h g (List.mem_cons_of_mem e hg)
    rcases List.mem_append.mp hf with hf | hf
    · rw [Option.mem_toList] at hf
      -- a repeated identifier or page number is reported at its own member
      cases e with
      | finding g =>
        cases hf
        exact h _ List.mem_cons_self
      | componentId id path =>
        obtain ⟨first, -, rfl⟩ := Option.map_eq_some_iff.mp hf
        exact join_ne_empty path (by decide)
      | pageNumber n path =>
        obtain ⟨first, -, rfl⟩ := Option.map_eq_some_iff.mp hf
        exact join_ne_empty path (by decide)
      | unknownKind kind path => cases hf
    · exact ih hrest hf

/-- **Inside an object every finding names a place.** -/
theorem located_template (members : List (String × Json)) : Located (template (.object members)) :=
  located_parametric.template (fun _ _ => by simp) (fun _ _ => by simp)
    (fun _ hkey => hkey) members

/-! ## A walk is clean wherever it starts -/

/-- Whether anything is found does not depend on the place. -/
theorem clean_parametric : Parametric (fun _ _ => True) fun xs ys => (Clean xs ↔ Clean ys) where
  join _ _ := trivial
  item _ _ := trivial
  components _ := trivial
  nil := Iff.rfl
  append hx hy := by rw [clean_append, clean_append, hx, hy]
  finding _ := by simp [Clean]
  unknownKind _ := by simp [Clean]

theorem clean_component_iff (v : Json) (p q : String) :
    Clean (component v p) ↔ Clean (component v q) :=
  clean_parametric.component (fun _ => by simp [Clean]) trivial v

theorem clean_page_iff (v : Json) (p q : String) : Clean (page v p) ↔ Clean (page v q) :=
  clean_parametric.page (fun _ => by simp [Clean]) (fun _ => by simp [Clean]) trivial v

theorem clean_column_iff (v : Json) (p q : String) : Clean (column v p) ↔ Clean (column v q) :=
  clean_parametric.column trivial v

/-- The walk over an array is clean exactly if the walk over each item is, wherever it starts. -/
theorem clean_items_iff {visit : Json → String → List Event}
    (hvisit : ∀ v p q, Clean (visit v p) ↔ Clean (visit v q)) {path : String} {i : Nat}
    {values : List Json} :
    Clean (items visit path i values) ↔ ∀ v ∈ values, Clean (visit v "") := by
  induction values generalizing i with
  | nil => simp [items]
  | cons v rest ih => rw [items, clean_append, ih, hvisit v _ "", List.forall_mem_cons]

end StatementPress.Walk
