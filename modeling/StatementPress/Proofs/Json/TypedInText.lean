import StatementPress.Proofs.Json.InText

/-!
# What typed readers yield

The rules for readers of a known type.  A record is read by updates, so what its start has and each
update keeps is an invariant of the record (`yields_record`).

A decoded value stands in the text: it is what the reader of values reads somewhere in it.
-/

namespace StatementPress.Json

open Reader

/-- **Whether a value stands in a text**: reading it from somewhere in the text gives the value. -/
def StandsIn (text : List Char) (v : Json) : Prop :=
  ∃ room s rest, s <:+ text ∧ value room s = .ok (v, rest)

namespace Typed

variable {α σ : Type} {text : List Char} {P : α → Prop}

/-! ## Scalars, lists, choices -/

theorem stays_meet (c : Char) : Stays text (meet c) := by
  unfold meet
  split
  · exact yields_pure trivial
  · split
    · exact yields_pure trivial
    · refine (yields_scalar c).bind fun v _ => ?_
      split <;> exact yields_pure trivial

theorem yields_mismatch (c : Char) (expected : String) : Yields text (mismatch c expected) P :=
  ((stays_meet c).bind fun _ _ => yields_failFloating).settle

/-- Going one level deeper changes nothing about what is yielded. -/
theorem yields_nested {inside : Nat → Reader α} (h : ∀ room, Yields text (inside room) P)
    (room : Nat) : Yields text (nested inside room) P := by
  cases room with
  | zero => exact yields_failNext
  | succ room => exact stays_skip.bind fun _ _ => h room

theorem stays_string (room : Nat) : Stays text (string room) := by
  refine (stays_peekOr _).bind fun c _ => ?_
  split
  · exact stays_skip.bind fun _ _ => stays_stringBody
  · exact yields_mismatch _ _

theorem stays_numeric (expected : String) (accept : Number → Except Problem α) (room : Nat) :
    Stays text (numeric expected accept room) := by
  refine (stays_peekOr _).bind fun c _ => ?_
  split
  · refine Yields.settle (yields_number.bind fun n _ => ?_)
    cases accept n with
    | ok a => exact yields_pure trivial
    | error problem => exact yields_failFloating
  · exact yields_mismatch _ _

/-- A list yields items that each stand in the text. -/
theorem yields_list {t : Typed α} (h : ∀ room, Yields text (t room) P) (room : Nat) :
    Yields text (t.list room) fun as => ∀ a ∈ as, P a := by
  refine (stays_peekOr _).bind fun c _ => ?_
  split
  · refine yields_nested (fun room => ?_) room
    exact (Yields.bounded fun fuel first => (h room).items fuel first).closing closeArray_suffix
  · exact yields_mismatch _ _

theorem stays_choiceName (choices : List (String × α)) : Stays text (choiceName choices) := by
  refine Yields.settle (stays_skip.bind fun _ _ => stays_stringBody.bind fun name _ => ?_)
  cases choices.lookup name with
  | some a => exact yields_pure trivial
  | none => exact yields_failFloating

theorem stays_choiceKey (choices : List (String × α)) : Stays text (choiceKey choices) := by
  refine (stays_peekOr _).bind fun c _ => ?_
  split
  · exact stays_choiceName choices
  · split
    · exact yields_failNext
    · exact yields_failNext

theorem stays_noContent : Stays text noContent := by
  refine (stays_peekOr _).bind fun c _ => ?_
  split
  · exact stays_word _
  · exact yields_mismatch _ _

theorem stays_choice (choices : List (String × α)) (room : Nat) :
    Stays text (choice choices room) := by
  refine (stays_peekOr _).bind fun c _ => ?_
  split
  · refine yields_nested (fun _ => ?_) room
    refine (stays_choiceKey choices).bind fun a _ => stays_colon.bind fun _ _ =>
      stays_noContent.bind fun _ _ => stays_peek.bind fun c _ => ?_
    split
    · exact stays_skip.bind fun _ _ => yields_pure trivial
    · exact yields_failHere
    · exact yields_failHere
  · split
    · exact stays_choiceName choices
    · exact yields_failNext

/-- What is decoded from a union is decoded from a value that stands in the text. -/
theorem yields_decoded (union : String) (decode : Json → Option α) (room : Nat) :
    Yields text (decoded union decode room) fun a => ∃ v, StandsIn text v ∧ decode v = some a := by
  -- what the reader of values reads from here stands here
  have hvalue : Yields text (value room) (StandsIn text) := fun s v rest hs hr =>
    ⟨(yields_value room _ _ _ hs hr).1, room, s, rest, hs, hr⟩
  refine hvalue.bind fun v hv => ?_
  cases hdecode : decode v with
  | some a => exact yields_pure ⟨v, hv, hdecode⟩
  | none => exact yields_failFloating

/-! ## Records -/

/-- Whether reading a field keeps an invariant of the record. -/
def Field.Keeps (text : List Char) (I : σ → Prop) (field : Field σ) : Prop :=
  ∀ room, Yields text (field.read room) fun update => ∀ record, I record → I (update record)

variable {I : σ → Prop} {fields : List (Field σ)}

/-- A field that has to be there keeps what its update keeps. -/
theorem keeps_required {t : Typed α} {set : α → σ → σ} (name : String)
    (h : ∀ room, Yields text (t room) P) (hset : ∀ a record, P a → I record → I (set a record)) :
    (Field.required name t set).Keeps text I := fun room =>
  (h room).bind fun a ha => yields_pure fun record hrecord => hset a record ha hrecord

theorem keeps_optional {t : Typed α} {set : α → σ → σ} (name : String)
    (h : ∀ room, Yields text (t room) P) (hset : ∀ a record, P a → I record → I (set a record)) :
    (Field.optional name t set).Keeps text I := keeps_required name h hset

/-- A record from an array keeps what each of its fields keeps. -/
theorem yields_positional (h : ∀ field ∈ fields, field.Keeps text I) (title : String)
    (total room done : Nat) {record : σ} (hrecord : I record) :
    Yields text (positional title total room fields done record) I := by
  induction fields generalizing done record with
  | nil => exact yields_pure hrecord
  | cons field fields ih =>
    have hfields : ∀ f ∈ fields, f.Keeps text I := fun f hf => h f (List.mem_cons_of_mem field hf)
    refine (stays_nextItem _).bind fun more _ => ?_
    split
    · refine (h field List.mem_cons_self room).bind fun update hupdate => ?_
      exact ih hfields _ (hupdate record hrecord)
    · split
      · exact yields_failFloating
      · exact ih hfields _ hrecord

/-- A record from an object keeps what each of its fields keeps, in any order of keys. -/
theorem yields_keyed (h : ∀ field ∈ fields, field.Keeps text I) (room fuel : Nat) (first : Bool)
    (seen : List String) {record : σ} (hrecord : I record) :
    Yields text (keyed fields .passed room fuel first seen record) I := by
  induction fuel generalizing first seen record with
  | zero => exact yields_failNext
  | succ fuel ih =>
    refine (stays_nextKey first).bind fun more _ => ?_
    split
    · refine stays_key.bind fun k _ => ?_
      split
      · rename_i field hfield
        split
        · exact yields_failFloating
        · refine stays_colon.bind fun _ _ =>
            (h field (List.mem_of_find?_eq_some hfield) room).bind fun update hupdate => ?_
          exact ih false (k :: seen) (hupdate record hrecord)
      · exact stays_colon.bind fun _ _ => stays_pass.bind fun _ _ => ih false seen hrecord
    · split
      · exact yields_failFloating
      · exact yields_pure hrecord

/-- **What a record starts with and each field keeps holds of the record that is read.** -/
theorem yields_record (h : ∀ field ∈ fields, field.Keeps text I) {start : σ} (hstart : I start)
    (title : String) (room : Nat) : Yields text (record title start fields room) I := by
  refine (stays_peekOr _).bind fun c _ => ?_
  split
  · refine yields_nested (fun room => ?_) room
    exact (yields_positional h title _ room 0 hstart).closing closeArray_suffix
  · split
    · refine yields_nested (fun room => Yields.closing closeObject_suffix ?_) room
      exact yields_get.bind fun _ _ => yields_keyed h room _ true [] hstart
    · exact yields_mismatch _ _

end Typed

end StatementPress.Json
