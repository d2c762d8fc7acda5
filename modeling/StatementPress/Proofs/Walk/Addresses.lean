import Mathlib
import StatementPress.Proofs.Json.Address
import StatementPress.Proofs.Walk.Apart

/-!
# Paths as addresses

The path of a finding is the text of an address.  The keys that the walk looks up hold neither dots
nor brackets, so the text tells the whole address: no other one is written in the same way
(`Address.text_injective`).

`LeadsTo` says of a path what a walk takes from there.  It goes along with the walk, from an object to
its members and from an array to its items.
-/

namespace StatementPress

open Json (Step Address)
open Finding (join item)

/-- A path one step further on. -/
def Json.Step.onto (base : String) : Step → String
  | .key name => join base name
  | .index i => item base i

/-- Whether a step can be told from what follows it in a path. -/
def Json.Step.IsPlain : Step → Prop
  | .key name => Walk.IsPlainKey name
  | .index _ => True

instance : DecidablePred Json.Step.IsPlain
  | .key name => inferInstanceAs (Decidable (Walk.IsPlainKey name))
  | .index _ => inferInstanceAs (Decidable True)

namespace Json.Address

/-- The path that goes on from another one to an address. -/
def textFrom (base : String) (address : Address) : String := address.foldl Step.onto base

/-- The path of an address. -/
def text (address : Address) : String := textFrom "" address

/-- Whether all steps of an address can be told from what follows them. -/
def IsPlain (address : Address) : Prop := ∀ step ∈ address, step.IsPlain

variable {base : String} {a b : Address} {s t : Step}

theorem text_append (a : Address) (s : Step) : text (a ++ [s]) = s.onto a.text := by
  rw [text, textFrom, List.foldl_append]
  rfl

theorem isPlain_append (ha : a.IsPlain) (hs : s.IsPlain) : IsPlain (a ++ [s]) :=
  List.forall_mem_append.mpr ⟨ha, List.forall_mem_singleton.mpr hs⟩

open Walk

/-- Each step makes the text of an address longer. -/
theorem length_lt_onto (hs : s.IsPlain) (base : String) :
    base.toList.length < (s.onto base).toList.length := by
  cases s with
  | key name =>
    have hname : name.toList ≠ [] := fun hempty => hs.1 (String.toList_eq_nil_iff.mp hempty)
    have hpos := List.length_pos_iff.mpr hname
    rw [Step.onto, toList_join, stem]
    split
    · rename_i hbase
      simpa [hbase] using hpos
    · simp
  | index i =>
    rw [Step.onto, toList_item]
    simp

theorem isBelow_onto (base : String) (s : Step) : IsBelow base (s.onto base) := by
  cases s with
  | key name => exact isBelow_join base name
  | index i => exact isBelow_item base i

/-- The text of an address lies below where it starts. -/
theorem isBelow_textFrom (base : String) (a : Address) : IsBelow base (textFrom base a) := by
  induction a generalizing base with
  | nil => exact isBelow_refl base
  | cons s a ih => exact (isBelow_onto base s).trans (ih (s.onto base))

theorem length_le_textFrom (ha : a.IsPlain) (base : String) :
    base.toList.length ≤ (textFrom base a).toList.length := by
  induction a generalizing base with
  | nil => exact Nat.le_refl _
  | cons s a ih =>
    obtain ⟨hs, ha⟩ := List.forall_mem_cons.mp ha
    have hfirst := length_lt_onto hs base
    have hrest := ih ha (s.onto base)
    exact Nat.le_trans (Nat.le_of_lt hfirst) hrest

/-- What is at or inside a member is at or inside no item. -/
theorem not_isBelow_item_of_join {key path : String} (hkey : IsPlainKey key)
    (h : IsBelow (join base key) path) (i : Nat) : ¬ IsBelow (item base i) path := by
  intro hitem
  rcases h with hempty | ⟨tail, hpath, -⟩
  · exact join_ne_empty base hkey.1 hempty
  rcases hitem with hempty | ⟨tail', hpath', -⟩
  · have hlist := congrArg String.toList hempty
    simp [toList_item] at hlist
  rw [hpath, toList_join, toList_item, stem] at hpath'
  by_cases hbase : base = ""
  -- a key does not start with a bracket
  · cases hname : key.toList with
    | nil => exact hkey.1 (String.toList_eq_nil_iff.mp hname)
    | cons c name =>
      simp [hbase, hname] at hpath'
      exact hkey.2.2 (by simp [hname, hpath'.1])
  -- and further on a dot stands where a bracket would
  · simp [hbase] at hpath'

/-- **The steps that lead to a place inside can be told from its path.** -/
theorem step_eq_of_isBelow {path : String} (hs : s.IsPlain) (ht : t.IsPlain)
    (h : IsBelow (s.onto base) path) (h' : IsBelow (t.onto base) path) : s = t := by
  cases s with
  | key name =>
    cases t with
    | key name' => rw [key_eq_of_isBelow hs ht h h']
    | index i => exact absurd h' (not_isBelow_item_of_join hs h i)
  | index i =>
    cases t with
    | key name => exact absurd h (not_isBelow_item_of_join ht h' i)
    | index j => rw [index_eq_of_isBelow h h']

/-- **An address is known by its text.** -/
theorem textFrom_injective (ha : a.IsPlain) (hb : b.IsPlain)
    (h : textFrom base a = textFrom base b) : a = b := by
  induction a generalizing b base with
  | nil =>
    cases b with
    | nil => rfl
    | cons t b =>
      obtain ⟨ht, hb⟩ := List.forall_mem_cons.mp hb
      have hfirst := length_lt_onto ht base
      have hrest := length_le_textFrom hb (t.onto base)
      have hlength := congrArg (fun s : String => s.toList.length) h
      simp only [textFrom, List.foldl_nil, List.foldl_cons] at hlength hrest
      omega
  | cons s a ih =>
    obtain ⟨hs, ha⟩ := List.forall_mem_cons.mp ha
    cases b with
    | nil =>
      have hfirst := length_lt_onto hs base
      have hrest := length_le_textFrom ha (s.onto base)
      have hlength := congrArg (fun s : String => s.toList.length) h
      simp only [textFrom, List.foldl_nil, List.foldl_cons] at hlength hrest
      omega
    | cons t b =>
      obtain ⟨ht, hb⟩ := List.forall_mem_cons.mp hb
      have hbelow := isBelow_textFrom (s.onto base) a
      have hbelow' := isBelow_textFrom (t.onto base) b
      have hsame : textFrom (s.onto base) a = textFrom (t.onto base) b := h
      rw [← hsame] at hbelow'
      have hstep := step_eq_of_isBelow hs ht hbelow hbelow'
      rw [← hstep] at hsame
      rw [hstep, ih ha hb hsame]

/-- **No two addresses have the same path.** -/
theorem text_injective (ha : a.IsPlain) (hb : b.IsPlain) (h : a.text = b.text) : a = b :=
  textFrom_injective ha hb h

/-- Addresses with one key joined to them are the same if the texts are. -/
theorem join_text_injective {key : String} (ha : a.IsPlain) (hb : b.IsPlain) (hkey : IsPlainKey key)
    (h : join a.text key = join b.text key) : a = b := by
  have hstep : Step.IsPlain (.key key) := hkey
  have htext : text (a ++ [.key key]) = text (b ++ [.key key]) := by
    rw [text_append, text_append]
    exact h
  have happend := text_injective (isPlain_append ha hstep) (isPlain_append hb hstep) htext
  exact List.append_cancel_right happend

end Json.Address

namespace Walk

theorem components_eq_join {path : String} (h : path ≠ "") :
    path ++ ".components" = join path "components" := by
  have hcomponents : ".components" = "." ++ "components" := by decide
  rw [join, if_neg (by simpa using h), hcomponents, String.append_assoc]

/-! ## What a path leads to -/

/-- **Whether a path leads to a value, or to the absence of one.**  It is the path of an address that
leads there, and what the last step goes into is there in any case. -/
structure LeadsTo (raw : Json) (path : String) (value : Option Json) : Prop where
  exists_address : ∃ a : Address, a.IsPlain ∧ a.text = path ∧ raw.at? a = value ∧
    ∀ parent step, a = parent ++ [step] →
      ∃ container, raw.at? parent = some container ∧ container.IsContainer step

variable {raw : Json} {path : String}

/-- The empty path leads to the value itself. -/
theorem leadsTo_root (raw : Json) : LeadsTo raw "" (some raw) where
  exists_address := ⟨[], List.forall_mem_nil _, rfl, rfl, by simp⟩

/-- A path goes on by one step. -/
theorem LeadsTo.step {container : Json} {s : Step} (h : LeadsTo raw path (some container))
    (hs : s.IsPlain) (hcontainer : container.IsContainer s) :
    LeadsTo raw (s.onto path) (container.step? s) := by
  obtain ⟨a, ha, rfl, hat, -⟩ := h.exists_address
  refine ⟨a ++ [s], Address.isPlain_append ha hs, Address.text_append a s, ?_, ?_⟩
  · rw [Json.at?_append, hat]
    simp
  · intro parent step hlast
    obtain ⟨rfl, hstep⟩ := List.append_inj' hlast rfl
    cases hstep
    exact ⟨container, hat, hcontainer⟩

/-- A path goes on to a member, present or not. -/
theorem LeadsTo.member {members : List (String × Json)}
    (h : LeadsTo raw path (some (.object members))) (key : String) (hkey : IsPlainKey key) :
    LeadsTo raw (join path key) ((Json.object members).get? key) :=
  h.step (s := .key key) hkey ⟨members, rfl⟩

/-- A path goes on to an item of an array. -/
theorem LeadsTo.item {values : List Json} {v : Json} {i : Nat}
    (h : LeadsTo raw path (some (.array values))) (hv : values[i]? = some v) :
    LeadsTo raw (item path i) (some v) := by
  have hstep := h.step (s := .index i) trivial ⟨values, rfl, (List.getElem?_eq_some_iff.mp hv).1⟩
  rwa [Json.step?, hv] at hstep

end Walk

end StatementPress
