import Mathlib
import StatementPress.Proofs.Walk.Namings

/-!
# Repeated identifiers and page numbers

A component slot is reported for its identifier exactly if a slot before it has the same one, and the
first slot that has it is named; a page is reported for its number exactly if a page before it has the
same one, and the first page that has it is named (`repetition_reported_exactly`).  Nothing else counts:
neither the kinds of the components, nor what else is wrong with them or around them.
-/

namespace StatementPress

open Json (Address itemsOf)
open Finding (join item repeatedId repeatedNumber)
open Walk

/-- Whether the component in a slot has an identifier: a string that is not empty. -/
def Slot.Carries (s : Slot) (raw : Json) (id : String) : Prop :=
  raw.at? (s.address ++ [.key "id"]) = some (.string id) ∧ id ≠ ""

/-- Whether a page has a number: a whole one, from one on, that fits in 32 bits. -/
def IsNumbered (raw : Json) (i n : Nat) : Prop :=
  raw.at? (pageAddress i ++ [.key "pageNumber"]) = some (.ofNat n) ∧ 1 ≤ n ∧ n < 2 ^ 32

/-- Whether a finding is about an identifier that came up before. -/
def Finding.IsOfId (f : Finding) : Prop := ∃ id first, f.reason = repeatedId id first

/-- Whether a finding is about a page number that came up before. -/
def Finding.IsOfNumber (f : Finding) : Prop := ∃ n first, f.reason = repeatedNumber n first

namespace Walk

variable {raw v : Json} {s : Slot} {id : String} {i n : Nat} {f : Finding}

/-! ## Who has a name -/

theorem idOf?_eq_some_iff : idOf? v = some id ↔ v.get? "id" = some (.string id) ∧ id ≠ "" := by
  unfold idOf?
  cases v.get? "id" with
  | none => simp
  | some w =>
    cases w with
    | string s =>
      by_cases hs : s = ""
      · subst hs
        simp
      · simp [hs]
        rintro rfl
        exact hs
    | _ => simp

theorem numberOf?_eq_some_iff :
    numberOf? v = some n ↔ v.get? "pageNumber" = some (.ofNat n) ∧ 1 ≤ n ∧ n < 2 ^ 32 := by
  have hcounter := counter_eq_ok (v := v.get? "pageNumber") (n := n)
  rw [numberOf?]
  cases hresult : Rule.counter (v.get? "pageNumber") with
  | ok m =>
    rw [hresult, Except.ok.injEq] at hcounter
    simpa [Except.toOption] using hcounter
  | error reason =>
    rw [hresult] at hcounter
    simpa [Except.toOption] using hcounter

/-- An identifier stands in a slot exactly if the component in the slot has it. -/
theorem carries_iff (s : Slot) (id : String) :
    s.Carries raw id ↔ ∃ c ∈ slotsOf raw, c.1 = s ∧ idOf? c.2 = some id := by
  rw [Slot.Carries, Json.at?_append, Option.bind_eq_some_iff]
  constructor
  · rintro ⟨⟨v, hv, hid⟩, hne⟩
    rw [Json.at?_singleton] at hid
    exact ⟨(s, v), mem_slotsOf_iff.mpr hv, rfl, idOf?_eq_some_iff.mpr ⟨hid, hne⟩⟩
  · rintro ⟨⟨_, v⟩, hv, rfl, hname⟩
    obtain ⟨hid, hne⟩ := idOf?_eq_some_iff.mp hname
    refine ⟨⟨v, mem_slotsOf_iff.mp hv, ?_⟩, hne⟩
    rwa [Json.at?_singleton]

theorem isNumbered_iff (i n : Nat) : IsNumbered raw i n ↔
    ∃ p ∈ (itemsOf (raw.get? "pages")).zipIdx, p.2 = i ∧ numberOf? p.1 = some n := by
  rw [IsNumbered, pageAddress, List.cons_append, List.cons_append, at?_member_item,
    Option.bind_eq_some_iff]
  simp only [List.nil_append, Json.at?_singleton, Json.step?]
  constructor
  · rintro ⟨⟨v, hv, hnumber⟩, hfits⟩
    exact ⟨(v, i), List.mk_mem_zipIdx_iff_getElem?.mpr hv, rfl,
      numberOf?_eq_some_iff.mpr ⟨hnumber, hfits⟩⟩
  · rintro ⟨⟨v, _⟩, hv, rfl, hname⟩
    obtain ⟨hnumber, hfits⟩ := numberOf?_eq_some_iff.mp hname
    exact ⟨⟨v, List.mk_mem_zipIdx_iff_getElem?.mp hv, hnumber⟩, hfits⟩

/-! ## Findings of repetition -/

/-- A finding that is worded with a `d` in front comes from an event that gives a name. -/
theorem names_of_finding? {earlier later : List Event} {e : Event}
    (hsplit : template raw = earlier ++ e :: later) (hf : finding? earlier e = some f)
    (hreason : f.reason.toList[0]? = some 'd') :
    (∃ id path first, e = .componentId id path ∧ f.reason = repeatedId id first) ∨
      ∃ n path first, e = .pageNumber n path ∧ f.reason = repeatedNumber n first := by
  cases e with
  | finding g =>
    cases hf
    have htrue := true_template raw (.finding f) (by simp [hsplit])
    obtain ⟨value, -, htells⟩ := htrue
    generalize f.reason = reason at htells hreason
    cases htells with
    | missing => exact absurd hreason (by decide)
    | fault v hfault => exact absurd hreason hfault.2
    | showsNothing => exact absurd hreason (by decide)
  | componentId id path =>
    obtain ⟨first, -, rfl⟩ := Option.map_eq_some_iff.mp hf
    exact .inl ⟨id, path, first, rfl, rfl⟩
  | pageNumber n path =>
    obtain ⟨first, -, rfl⟩ := Option.map_eq_some_iff.mp hf
    exact .inr ⟨n, path, first, rfl, rfl⟩
  | unknownKind kind path => cases hf

/-- **A repeated identifier is reported where it comes up again, with the first place that has it.**
-/
theorem ids_reported_iff : f ∈ findings (template raw) ∧ f.IsOfId ↔
    ∃ (t s : Slot) (id : String), s.Carries raw id ∧ t.Before s ∧ t.Carries raw id ∧
      (∀ u : Slot, u.Before t → ¬ u.Carries raw id) ∧
        f = ⟨join s.path "id", repeatedId id t.path⟩ := by
  have hother : ∀ earlier e later, template raw = earlier ++ e :: later → ids.named? e = none →
      ∀ g, finding? earlier e = some g → ¬ g.IsOfId := by
    rintro earlier e later hsplit hnone g hg ⟨id, first, hreason⟩
    rcases names_of_finding? hsplit hg (hreason ▸ (Finding.repeatedId_getElem? id first).1) with
      ⟨id', path, first', rfl, -⟩ | ⟨n, path, first', rfl, hnumber⟩
    · cases hnone
    · exact Finding.repeatedId_ne_repeatedNumber id first n first' (hreason.symm.trans hnumber)
  rw [ids.mem_findings_iff (fun id _ first => ⟨id, first, rfl⟩) hother, names_ids_template]
  exact repeated_iff (pairwise_slotsOf raw) Slot.Before.asymm carries_iff
    fun id path first => f = ids.finding id path first

/-- **A repeated page number is reported where it comes up again, with the first page that has it.**
-/
theorem numbers_reported_iff : f ∈ findings (template raw) ∧ f.IsOfNumber ↔
    ∃ j i n, IsNumbered raw i n ∧ j < i ∧ IsNumbered raw j n ∧
      (∀ k < j, ¬ IsNumbered raw k n) ∧
        f = ⟨join (pageAddress i).text "pageNumber", repeatedNumber n (pageAddress j).text⟩ := by
  have hother : ∀ earlier e later, template raw = earlier ++ e :: later →
      numbers.named? e = none → ∀ g, finding? earlier e = some g → ¬ g.IsOfNumber := by
    rintro earlier e later hsplit hnone g hg ⟨n, first, hreason⟩
    rcases names_of_finding? hsplit hg (hreason ▸ (Finding.repeatedNumber_getElem? n first).1) with
      ⟨id, path, first', rfl, hid⟩ | ⟨n', path, first', rfl, -⟩
    · exact Finding.repeatedId_ne_repeatedNumber id first' n first (hid.symm.trans hreason)
    · cases hnone
  rw [numbers.mem_findings_iff (fun n _ first => ⟨n, first, rfl⟩) hother, names_numbers_template]
  simp only [text_pageAddress]
  exact repeated_iff (pairwise_zipIdx _) Nat.lt_asymm isNumbered_iff
    fun n path first => f = numbers.finding n path first

end Walk

/-- **Repetition is reported exactly.**  A slot is reported for its identifier exactly if a slot before
it in the walk has the same one, and a page for its number exactly if a page before it has the same
one; the first slot or page that has it is named.  No other place is reported in this way. -/
theorem repetition_reported_exactly (raw : Json) :
    (∀ (s : Slot) (reason : String),
      (⟨join s.path "id", reason⟩ ∈ findings (template raw) ∧
        ∃ id first, reason = repeatedId id first) ↔
      ∃ (id : String) (t : Slot), s.Carries raw id ∧ t.Before s ∧ t.Carries raw id ∧
        (∀ u : Slot, u.Before t → ¬ u.Carries raw id) ∧ reason = repeatedId id t.path) ∧
    (∀ (i : Nat) (reason : String),
      (⟨join (pageAddress i).text "pageNumber", reason⟩ ∈ findings (template raw) ∧
        ∃ n first, reason = repeatedNumber n first) ↔
      ∃ n j, IsNumbered raw i n ∧ j < i ∧ IsNumbered raw j n ∧
        (∀ k < j, ¬ IsNumbered raw k n) ∧ reason = repeatedNumber n (pageAddress j).text) ∧
    ∀ f ∈ findings (template raw),
      (f.IsOfId → ∃ s : Slot, f.path = join s.path "id") ∧
      (f.IsOfNumber → ∃ i, f.path = join (pageAddress i).text "pageNumber") := by
  refine ⟨fun s reason => ?_, fun i reason => ?_, fun f hf => ⟨fun hid => ?_, fun hnumber => ?_⟩⟩
  · refine (ids_reported_iff (f := ⟨join s.path "id", reason⟩)).trans ⟨?_, ?_⟩
    · rintro ⟨t, s', id, hs, hbefore, ht, hfirst, hfinding⟩
      obtain ⟨hpath, hreason⟩ := Finding.mk.inj hfinding
      have hkey : IsPlainKey "id" := by decide
      have haddress := Address.join_text_injective s.isPlain_address s'.isPlain_address hkey hpath
      obtain rfl := Slot.address_injective haddress
      exact ⟨id, t, hs, hbefore, ht, hfirst, hreason⟩
    · rintro ⟨id, t, hs, hbefore, ht, hfirst, rfl⟩
      exact ⟨t, s, id, hs, hbefore, ht, hfirst, rfl⟩
  · refine (numbers_reported_iff
      (f := ⟨join (pageAddress i).text "pageNumber", reason⟩)).trans ⟨?_, ?_⟩
    · rintro ⟨j, i', n, hi, hbefore, hj, hfirst, hfinding⟩
      obtain ⟨hpath, hreason⟩ := Finding.mk.inj hfinding
      have hkey : IsPlainKey "pageNumber" := by decide
      have haddress := Address.join_text_injective (isPlain_pageAddress i) (isPlain_pageAddress i')
        hkey hpath
      obtain rfl := pageAddress_injective haddress
      exact ⟨n, j, hi, hbefore, hj, hfirst, hreason⟩
    · rintro ⟨n, j, hi, hbefore, hj, hfirst, rfl⟩
      exact ⟨j, i, n, hi, hbefore, hj, hfirst, rfl⟩
  · obtain ⟨t, s, id, -, -, -, -, rfl⟩ := ids_reported_iff.mp ⟨hf, hid⟩
    exact ⟨s, rfl⟩
  · obtain ⟨j, i, n, -, -, -, -, rfl⟩ := numbers_reported_iff.mp ⟨hf, hnumber⟩
    exact ⟨i, rfl⟩

end StatementPress
