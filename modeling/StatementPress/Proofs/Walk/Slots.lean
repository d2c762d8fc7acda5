import Mathlib
import StatementPress.Proofs.Walk.Addresses
import StatementPress.Template.Edit

/-!
# Component slots

A component slot is a place `pages[i].R.components[j]`, where `R` is a region.  Slots are ordered as
the walk comes across them: by pages, in a page by regions from top to bottom, in a region by
components (`Slot.Before`).  `slotsOf` lists the slots of a value in this order, with what stands in
them.
-/

namespace StatementPress

open Json (Step Address get? itemsOf)
open Finding (join item)

/-- The regions of a page from top to bottom. -/
def RegionKind.all : List RegionKind := [.header, .body, .footer]

/-- How many regions of a page stand above a region. -/
def RegionKind.rank : RegionKind → Nat
  | .header => 0
  | .body => 1
  | .footer => 2

theorem RegionKind.mem_all (region : RegionKind) : region ∈ all := by cases region <;> decide

/-- The regions are listed from the top of the page to its bottom. -/
theorem RegionKind.pairwise_all : all.Pairwise fun r r' => r.rank < r'.rank := by decide

theorem RegionKind.name_injective {r r' : RegionKind} (h : r.name = r'.name) : r = r' := by
  revert h
  cases r <;> cases r' <;> decide

theorem RegionKind.isPlainKey_name (region : RegionKind) : Walk.IsPlainKey region.name := by
  cases region <;> decide

/-- The address of a page. -/
def pageAddress (i : Nat) : Address := [.key "pages", .index i]

theorem isPlain_pageAddress (i : Nat) : (pageAddress i).IsPlain := by
  have hpages : Walk.IsPlainKey "pages" := by decide
  simp [pageAddress, Address.IsPlain, Step.IsPlain, hpages]

theorem text_pageAddress (i : Nat) : (pageAddress i).text = item "pages" i := by
  have hpages : join "" "pages" = "pages" := by decide
  rw [← hpages]
  rfl

/-- Pages are known by their addresses. -/
theorem pageAddress_injective {i j : Nat} (h : pageAddress i = pageAddress j) : i = j := by
  simpa [pageAddress] using h

namespace Slot

variable {s t : Slot}

/-- The address of a slot. -/
def address (s : Slot) : Address :=
  [.key "pages", .index s.page, .key s.region.name, .key "components", .index s.index]

/-- The path of a slot. -/
def path (s : Slot) : String := s.address.text

/-- Whether a slot comes before another one in a walk. -/
def Before (s t : Slot) : Prop :=
  s.page < t.page ∨ s.page = t.page ∧
    (s.region.rank < t.region.rank ∨ s.region = t.region ∧ s.index < t.index)

theorem Before.asymm (h : s.Before t) : ¬ t.Before s := by
  intro h'
  unfold Before at h h'
  by_cases hregion : s.region = t.region
  · simp only [hregion, true_and] at h h'
    omega
  · have hregion' : t.region ≠ s.region := Ne.symm hregion
    simp only [hregion, hregion', false_and, or_false] at h h'
    omega

theorem isPlain_address (s : Slot) : s.address.IsPlain := by
  have hpages : Walk.IsPlainKey "pages" := by decide
  have hcomponents : Walk.IsPlainKey "components" := by decide
  simp [address, Address.IsPlain, Step.IsPlain, hpages, hcomponents, s.region.isPlainKey_name]

/-- Slots are known by their addresses. -/
theorem address_injective (h : s.address = t.address) : s = t := by
  simp only [address, List.cons.injEq, Step.index.injEq, Step.key.injEq] at h
  obtain ⟨-, hpage, hregion, -, hindex, -⟩ := h
  obtain ⟨i, region, j⟩ := s
  obtain ⟨i', region', j'⟩ := t
  obtain rfl := RegionKind.name_injective hregion
  cases hpage
  cases hindex
  rfl

/-- The path of a slot, as the walk puts it together. -/
theorem path_eq (s : Slot) : s.path =
    item (join (item "pages" s.page) s.region.name ++ ".components") s.index := by
  have hpages : join "" "pages" = "pages" := by decide
  have hregion := Walk.join_ne_empty (item "pages" s.page) s.region.isPlainKey_name.1
  rw [Walk.components_eq_join hregion, ← hpages]
  rfl

example : Slot.path ⟨0, .body, 12⟩ = "pages[0].body.components[12]" := by decide

end Slot

namespace Walk

variable {raw v : Json} {s : Slot}

/-- The component slots of a value in the order of the walk, each with what stands in it. -/
def slotsOf (raw : Json) : List (Slot × Json) :=
  (itemsOf (raw.get? "pages")).zipIdx.flatMap fun p =>
    RegionKind.all.flatMap fun region =>
      (regionSlots (p.1.get? region.name)).zipIdx.map fun c => (⟨p.2, region, c.2⟩, c.1)

theorem pairwise_zipIdx {α : Type} (l : List α) : l.zipIdx.Pairwise fun a b => a.2 < b.2 := by
  have h : (l.zipIdx.map Prod.snd).Pairwise (· < ·) := by
    rw [List.zipIdx_map_snd]
    exact List.pairwise_lt_range'
  exact List.pairwise_map.mp h

/-- **Slots are listed in the order of the walk.** -/
theorem pairwise_slotsOf (raw : Json) :
    (slotsOf raw).Pairwise fun c d => c.1.Before d.1 := by
  refine List.pairwise_flatMap.mpr ⟨fun p _ => ?_, (pairwise_zipIdx _).imp fun hpage => ?_⟩
  · refine List.pairwise_flatMap.mpr ⟨fun region _ => ?_, RegionKind.pairwise_all.imp fun hrank => ?_⟩
    · rw [List.pairwise_map]
      exact (pairwise_zipIdx _).imp fun hindex => .inr ⟨rfl, .inr ⟨rfl, hindex⟩⟩
    · intro c hc d hd
      obtain ⟨c, -, rfl⟩ := List.mem_map.mp hc
      obtain ⟨d, -, rfl⟩ := List.mem_map.mp hd
      exact .inr ⟨rfl, .inl hrank⟩
  · intro c hc d hd
    obtain ⟨region, -, hc⟩ := List.mem_flatMap.mp hc
    obtain ⟨region', -, hd⟩ := List.mem_flatMap.mp hd
    obtain ⟨c, -, rfl⟩ := List.mem_map.mp hc
    obtain ⟨d, -, rfl⟩ := List.mem_map.mp hd
    exact .inl hpage

/-- What a key and an index lead to. -/
theorem at?_member_item (v : Json) (key : String) (i : Nat) (rest : Address) :
    v.at? (.key key :: .index i :: rest) = (itemsOf (v.get? key))[i]?.bind fun w => w.at? rest := by
  rw [Json.at?_cons, Json.step?]
  rcases v.get? key with _ | w
  · rfl
  · rw [Option.bind_some, Json.at?_cons]
    cases w <;> rfl

/-- At the address of a slot stands its component. -/
theorem at?_address (raw : Json) (s : Slot) : raw.at? s.address =
    (itemsOf (raw.get? "pages"))[s.page]?.bind fun p =>
      (regionSlots (p.get? s.region.name))[s.index]? := by
  rw [Slot.address, at?_member_item]
  congr 1
  funext p
  rw [Json.at?_cons, Json.step?]
  rcases p.get? s.region.name with _ | w
  · rfl
  · rw [Option.bind_some, at?_member_item, regionSlots, Option.bind_some]
    simp

/-- **A slot is listed exactly if its address leads somewhere**, with what stands there. -/
theorem mem_slotsOf_iff : (s, v) ∈ slotsOf raw ↔ raw.at? s.address = some v := by
  rw [at?_address, Option.bind_eq_some_iff]
  simp only [slotsOf, List.mem_flatMap, List.mem_map, Prod.exists, Prod.mk.injEq,
    List.mk_mem_zipIdx_iff_getElem?]
  constructor
  · rintro ⟨p, i, hp, region, -, w, j, hw, rfl, rfl⟩
    exact ⟨p, hp, hw⟩
  · rintro ⟨p, hp, hv⟩
    exact ⟨p, s.page, hp, s.region, s.region.mem_all, v, s.index, hv, rfl, rfl⟩

end Walk

end StatementPress
