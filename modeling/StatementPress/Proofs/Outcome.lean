import Mathlib.Data.List.Forall2
import StatementPress.Log

/-!
# Outcomes of steps

A `Run` leaves records, and no step can read them.  So the outcome of a composed step is a function
of the outcomes of its parts: `Run.outcome` commutes with every way of composing steps.
-/

namespace StatementPress

variable {ε ε' α β : Type}

@[simp] theorem ok_bind (a : α) (f : α → Except ε β) : (Except.ok a >>= f) = f a := rfl

@[simp] theorem error_bind (e : ε) (f : α → Except ε β) : (Except.error e >>= f) = .error e := rfl

@[simp] theorem ok_mapError (f : ε → ε') (a : α) : (Except.ok a).mapError f = .ok a := rfl

@[simp] theorem error_mapError (f : ε → ε') (e : ε) :
    (Except.error e : Except ε α).mapError f = .error (f e) := rfl

/-- Where the second of two steps succeeds the first one did. -/
theorem exists_of_bind_eq_ok {x : Except ε α} {f : α → Except ε β} {b : β}
    (h : (x >>= f) = .ok b) : ∃ a, x = .ok a ∧ f a = .ok b := by
  cases x with
  | error e => cases h
  | ok a => exact ⟨a, rfl, h⟩

/-- Rewording errors does not touch success. -/
theorem mapError_eq_ok {f : ε → ε'} {x : Except ε α} {a : α} : x.mapError f = .ok a ↔ x = .ok a := by
  cases x <;> simp

theorem exists_of_isOk {x : Except ε α} (h : x.isOk = true) : ∃ a, x = .ok a := by
  cases x with
  | error e => cases h
  | ok a => exact ⟨a, rfl⟩

/-- Functions that all succeed succeed one after the other. -/
theorem mapM_of_ok {f : α → Except ε β} {g : α → β} {l : List α}
    (h : ∀ a ∈ l, f a = .ok (g a)) : l.mapM f = .ok (l.map g) := by
  induction l with
  | nil => rfl
  | cons a l ih =>
    have ha : f a = .ok (g a) := h a List.mem_cons_self
    have hl : l.mapM f = .ok (l.map g) := ih fun b hb => h b (List.mem_cons_of_mem a hb)
    rw [List.mapM_cons, ha, ok_bind, hl, ok_bind, List.map_cons]
    rfl

/-- What functions give that all succeed stands beside what they were given. -/
theorem forall₂_of_mapM {f : α → Except ε β} {as : List α} {bs : List β} (h : as.mapM f = .ok bs) :
    List.Forall₂ (fun a b => f a = .ok b) as bs := by
  induction as generalizing bs with
  | nil =>
    cases h
    exact .nil
  | cons a as ih =>
    rw [List.mapM_cons] at h
    obtain ⟨b, ha, h⟩ := exists_of_bind_eq_ok h
    obtain ⟨rest, has, h⟩ := exists_of_bind_eq_ok h
    cases h
    exact .cons ha (ih has)

/-- Steps that are the same for each item are the same for all of them. -/
theorem mapM_congr {m : Type → Type} [Monad m] [LawfulMonad m] {f g : α → m β} {l : List α}
    (h : ∀ a ∈ l, f a = g a) : l.mapM f = l.mapM g := by
  induction l with
  | nil => rw [List.mapM_nil, List.mapM_nil]
  | cons a l ih =>
    rw [List.mapM_cons, List.mapM_cons, h a List.mem_cons_self,
      ih fun b hb => h b (List.mem_cons_of_mem a hb)]

namespace Run

@[simp] theorem outcome_record (level : Level) (message : String) :
    (record level message : Run ε Unit).outcome = .ok () := rfl

@[simp] theorem outcome_ofExcept (outcome : Except ε α) : (ofExcept outcome).outcome = outcome := rfl

theorem ofExcept_ok (a : α) : (ofExcept (.ok a) : Run ε α) = pure a := rfl

@[simp] theorem outcome_fail (e : ε) : (fail e : Run ε α).outcome = .error e := rfl

@[simp] theorem outcome_mapError (f : ε → ε') (x : Run ε α) :
    (x.mapError f).outcome = x.outcome.mapError f := rfl

@[simp] theorem outcome_map (f : α → β) (x : Run ε α) : (f <$> x).outcome = f <$> x.outcome := by
  rw [map_eq_pure_bind, outcome_bind]
  cases x.outcome <;> rfl

/-- Steps that all succeed succeed one after the other. -/
theorem outcome_mapM_of_ok {f : α → Run ε β} {g : α → β} {l : List α}
    (h : ∀ a ∈ l, (f a).outcome = .ok (g a)) : (l.mapM f).outcome = .ok (l.map g) := by
  induction l with
  | nil => rfl
  | cons a l ih =>
    have ha : (f a).outcome = .ok (g a) := h a List.mem_cons_self
    have hl : (l.mapM f).outcome = .ok (l.map g) := ih fun b hb => h b (List.mem_cons_of_mem a hb)
    rw [List.mapM_cons, outcome_bind, ha, ok_bind, outcome_bind, hl, ok_bind, outcome_pure,
      List.map_cons]

end Run

end StatementPress
