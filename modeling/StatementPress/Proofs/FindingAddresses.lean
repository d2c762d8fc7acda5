import Mathlib
import StatementPress.Proofs.DistinctFindings
import StatementPress.Proofs.Walk.Reports

/-!
# Findings address places

The path of a finding can be followed in the value it was reported of (`findings_addressed`): it is the
text of one address, every step before the last leads on, and the last goes into an object, or into an
array that is long enough.  What it leads to is missing exactly if the finding says so; only of the
content of a text that shows nothing it is left open.
-/

namespace StatementPress

open Json (Step Address)
open Walk

/-- **Findings address places.**  A finding without a path says that the value is no object, and is the
only one then.  Any other path reads as one address; the last of its steps goes into an object, or into
an array that has the index, and what is there is missing if the finding says that it is required, and
not missing if it says anything else, except that a text shows nothing. -/
theorem findings_addressed (raw : Json) (f : Finding) (hf : f ∈ findings (template raw)) :
    (f.path = "" ∧ raw.members? = none ∧ findings (template raw) = [f]) ∨
    ∃ (parent : Address) (step : Step) (container : Json),
      (∀ a : Address, a.IsPlain ∧ a.text = f.path ↔ a = parent ++ [step]) ∧
      raw.at? parent = some container ∧ container.IsContainer step ∧
      (f.reason = Finding.missing → raw.at? (parent ++ [step]) = none) ∧
      (f.reason ≠ Finding.missing → f.reason ≠ Finding.showsNothing →
        (raw.at? (parent ++ [step])).isSome) := by
  cases raw with
  | object members =>
    right
    have hpath : f.path ≠ "" := path_ne_empty_of_mem_findings (located_template members) hf
    obtain ⟨value, hvalue, htells⟩ := tells_of_mem_findings hf
    obtain ⟨a, ha, htext, hat, hlast⟩ := hvalue.exists_address
    rcases List.eq_nil_or_concat' a with rfl | ⟨parent, step, rfl⟩
    · exact absurd htext.symm hpath
    obtain ⟨container, hparent, hcontainer⟩ := hlast parent step rfl
    refine ⟨parent, step, container, fun b => ⟨?_, ?_⟩, hparent, hcontainer, ?_⟩
    · rintro ⟨hb, hbtext⟩
      exact Address.text_injective hb ha (hbtext.trans htext.symm)
    · rintro rfl
      exact ⟨ha, htext⟩
    rw [hat]
    rcases htells with htells | ⟨hrepeats, hsome⟩
    · exact ⟨htells.eq_none, htells.isSome⟩
    · refine ⟨fun hmissing => ?_, fun _ _ => hsome⟩
      rw [hmissing] at hrepeats
      exact absurd hrepeats (by decide)
  | _ =>
    left
    have hone : f = ⟨"", "must be an object"⟩ := List.mem_singleton.mp hf
    rw [hone]
    exact ⟨rfl, rfl, rfl⟩

/-- The second component of `brokenStatement` repeats the identifier of the first. -/
def repeatedSeal : Finding :=
  ⟨"pages[0].body.components[1].id", Finding.repeatedId "a" "pages[0].body.components[0]"⟩

theorem findings_addressed_on_brokenStatement : repeatedSeal ∈ findings (template brokenStatement) ∧
    ∃ (parent : Address) (step : Step) (container : Json),
      (∀ a : Address, a.IsPlain ∧ a.text = repeatedSeal.path ↔ a = parent ++ [step]) ∧
      brokenStatement.at? parent = some container ∧ container.IsContainer step ∧
      (brokenStatement.at? (parent ++ [step])).isSome := by
  have hmem : repeatedSeal ∈ findings (template brokenStatement) := by decide +kernel
  refine ⟨hmem, ?_⟩
  rcases findings_addressed brokenStatement repeatedSeal hmem with ⟨hpath, -⟩ | hplace
  · exact absurd hpath (by decide)
  · obtain ⟨parent, step, container, hreads, hparent, hcontainer, -, hthere⟩ := hplace
    exact ⟨parent, step, container, hreads, hparent, hcontainer,
      hthere (by decide +kernel) (by decide +kernel)⟩

end StatementPress
