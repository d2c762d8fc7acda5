/-!
# Log records

Every step of the program may leave records behind.  A `Run` is the outcome of a step together with
the records it left, in order.  Records are kept when a later step fails, and no step can read them.
-/

namespace StatementPress

/-- How important a record is. -/
inductive Level where
  | trace
  | debug
  | warn
  deriving DecidableEq

/-- The name of a level. -/
def Level.name : Level → String
  | .trace => "trace"
  | .debug => "debug"
  | .warn => "warn"

/-- A log record. -/
structure LogRecord where
  level : Level
  message : String
  deriving DecidableEq

/-- The outcome of a step and the records it left. -/
@[ext] structure Run (ε α : Type) where
  /-- The records, in order. -/
  log : List LogRecord
  /-- The outcome. -/
  outcome : Except ε α

namespace Run

variable {ε ε' α β γ : Type}

/-- A step that succeeds and leaves nothing behind. -/
protected def pure (a : α) : Run ε α := ⟨[], .ok a⟩

/-- One step after another. -/
protected def bind (x : Run ε α) (f : α → Run ε β) : Run ε β :=
  match x.outcome with
  | .ok a =>
    let y := f a
    ⟨x.log ++ y.log, y.outcome⟩
  | .error e => ⟨x.log, .error e⟩

instance : Monad (Run ε) where
  pure := Run.pure
  bind := Run.bind

@[simp] theorem log_pure (a : α) : (pure a : Run ε α).log = [] := rfl

@[simp] theorem outcome_pure (a : α) : (pure a : Run ε α).outcome = .ok a := rfl

/-- After a success the records of the next step follow. -/
theorem bind_of_ok {x : Run ε α} {a : α} (h : x.outcome = .ok a) (f : α → Run ε β) :
    x >>= f = ⟨x.log ++ (f a).log, (f a).outcome⟩ := by
  change Run.bind x f = _
  simp only [Run.bind, h]

/-- After a failure nothing follows. -/
theorem bind_of_error {x : Run ε α} {e : ε} (h : x.outcome = .error e) (f : α → Run ε β) :
    x >>= f = ⟨x.log, .error e⟩ := by
  change Run.bind x f = _
  simp only [Run.bind, h]

@[simp] theorem outcome_bind (x : Run ε α) (f : α → Run ε β) :
    (x >>= f).outcome = x.outcome >>= fun a => (f a).outcome := by
  cases h : x.outcome with
  | ok a => rw [bind_of_ok h]; rfl
  | error e => rw [bind_of_error h]; rfl

protected theorem id_map (x : Run ε α) : id <$> x = x := by
  change x >>= (fun a => pure (id a)) = x
  cases h : x.outcome with
  | ok a => rw [bind_of_ok h]; ext1 <;> simp [h]
  | error e => rw [bind_of_error h, ← h]

protected theorem pure_bind (a : α) (f : α → Run ε β) : pure a >>= f = f a := by
  rw [bind_of_ok (outcome_pure a), log_pure, List.nil_append]

protected theorem bind_assoc (x : Run ε α) (f : α → Run ε β) (g : β → Run ε γ) :
    x >>= f >>= g = x >>= fun a => f a >>= g := by
  cases h : x.outcome with
  | error e => rw [bind_of_error h, bind_of_error h, bind_of_error rfl]
  | ok a =>
    rw [bind_of_ok h, bind_of_ok h]
    cases ha : (f a).outcome with
    | error e => rw [bind_of_error ha, bind_of_error rfl]
    | ok b => rw [bind_of_ok ha, bind_of_ok rfl, List.append_assoc]

instance : LawfulMonad (Run ε) := LawfulMonad.mk' _ Run.id_map Run.pure_bind Run.bind_assoc

/-- A step that only leaves a record. -/
def record (level : Level) (message : String) : Run ε Unit := ⟨[⟨level, message⟩], .ok ()⟩

/-- A step that leaves nothing behind. -/
def ofExcept (outcome : Except ε α) : Run ε α := ⟨[], outcome⟩

/-- A step that fails and leaves nothing behind. -/
def fail (e : ε) : Run ε α := ⟨[], .error e⟩

/-- A step that cannot fail: the outcome of a step is its result. -/
def attempt (x : Run ε α) : Run ε' (Except ε α) := ⟨x.log, .ok x.outcome⟩

/-- The same step with another kind of error. -/
def mapError (f : ε → ε') (x : Run ε α) : Run ε' α := ⟨x.log, x.outcome.mapError f⟩

end Run

end StatementPress
