import Mathlib
import StatementPress.Proofs.Xml.Names
import StatementPress.Proofs.Xml.Scanning

/-!
# Counting nodes

The reader counts the nodes it makes and stops where there would be more than the ceiling allows.  Its
count is right: a document that was read has no more nodes than the ceiling (`size_le_of_ofText`).  And
the ceiling does nothing else: a document that is read under one ceiling is read, as the same document,
under every ceiling that is not below its size (`ofText_of_size_le`).

Both are said of two runs at once.  `Carries` holds of a run under one ceiling and a run under another
if whatever the second reads has a property, and is read by the first as well as long as it stays
within the first ceiling.
-/

namespace StatementPress.Xml

/-! ## What a list of nodes adds -/

@[simp] theorem nodeCount_nil : nodeCount [] = 0 := by rw [nodeCount]

/-- The number of nodes that reading them adds.  If a text comes just before them, a text in front goes
on with it and adds nothing. -/
def addedCount : Bool → List Node → Nat
  | true, .text _ :: rest => nodeCount rest
  | _, nodes => nodeCount nodes

@[simp] theorem addedCount_false (nodes : List Node) : addedCount false nodes = nodeCount nodes := by
  rw [addedCount]
  simp

@[simp] theorem addedCount_nil (afterText : Bool) : addedCount afterText [] = 0 := by
  cases afterText <;> simp [addedCount]

theorem addedCount_cons_of_ne {node : Node} (h : ∀ s, node ≠ .text s) (afterText : Bool)
    (nodes : List Node) : addedCount afterText (node :: nodes) = nodeCount (node :: nodes) := by
  cases node with
  | text s => exact absurd rfl (h s)
  | _ => cases afterText <;> simp [addedCount]

/-- A text adds one node, unless it goes on with a text. -/
theorem addedCount_joinText (afterText : Bool) (s : String) (nodes : List Node) :
    addedCount afterText (joinText s nodes) =
      (if afterText then 0 else 1) + addedCount true nodes := by
  cases nodes with
  | nil => cases afterText <;> simp [joinText, addedCount, nodeCount]
  | cons node nodes => cases node <;> cases afterText <;> simp [joinText, addedCount, nodeCount]

/-- The number of nodes that reading an element adds, if there is one. -/
def elementCount : Option Element → Nat
  | some e => nodeCount [e.toNode]
  | none => 0

/-- An element counts for one node besides those in it. -/
theorem nodeCount_toNode_cons (e : Element) (nodes : List Node) :
    nodeCount (e.toNode :: nodes) = 1 + nodeCount e.children + nodeCount nodes := by
  rw [Element.toNode, nodeCount]

namespace Scanner

variable {α β : Type} {P Q : α → Prop} {P' Q' : β → Prop} {limit limit' count : Nat}

/-! ## Two runs -/

/-- **Whether a run is carried over to another.**  Whatever the run `y` reads has the property `P`; and
if it also has the property `Q`, the run `x` reads it too. -/
def Carries (x y : Scanner α) (P Q : α → Prop) : Prop :=
  ∀ s a rest, y s = .ok (a, rest) → P a ∧ (Q a → x s = .ok (a, rest))

/-- Where two steps succeed each of them did. -/
theorem exists_steps_of_bind {x : Scanner α} {f : α → Scanner β} {s rest : List Char} {b : β}
    (h : (x >>= f) s = .ok (b, rest)) : ∃ a s', x s = .ok (a, s') ∧ f a s' = .ok (b, rest) := by
  have h : (x s >>= fun p => f p.1 p.2) = .ok (b, rest) := h
  obtain ⟨⟨a, s'⟩, hx, hf⟩ := exists_of_bind_eq_ok h
  exact ⟨a, s', hx, hf⟩

/-- A scanner that only answers does so under any limit. -/
theorem carries_pure {a : α} (h : P a) : Carries (pure a) (pure a) P Q := by
  intro s b rest hr
  cases hr
  exact ⟨h, fun _ => rfl⟩

/-- A scanner that fails has nothing to carry over. -/
theorem carries_failHere {x : Scanner α} {problem : Problem} : Carries x (failHere problem) P Q :=
  fun _ _ _ h => nomatch h

theorem carries_failAt {x : Scanner α} {problem : Problem} {rest : List Char} :
    Carries x (failAt problem rest) P Q := fun _ _ _ h => nomatch h

/-- What is read in the end has to tell that what was read on the way may be carried over. -/
theorem Carries.bind {x y : Scanner α} {f g : α → Scanner β} (hx : Carries x y P Q)
    (hf : ∀ a, P a → Carries (f a) (g a) (fun b => P' b ∧ (Q' b → Q a)) Q') :
    Carries (x >>= f) (y >>= g) P' Q' := by
  intro s b rest hr
  obtain ⟨a, s', hy, hg⟩ := exists_steps_of_bind hr
  obtain ⟨ha, hxa⟩ := hx s a s' hy
  obtain ⟨⟨hb, hback⟩, hfb⟩ := hf a ha s' b rest hg
  refine ⟨hb, fun hq => ?_⟩
  rw [bind_of_ok (hxa (hback hq))]
  exact hfb hq

/-- Both runs begin alike. -/
theorem carries_bind {z : Scanner α} {f g : α → Scanner β} (hf : ∀ a, Carries (f a) (g a) P' Q') :
    Carries (z >>= f) (z >>= g) P' Q' := by
  intro s b rest hr
  obtain ⟨a, s', hz, hg⟩ := exists_steps_of_bind hr
  obtain ⟨hb, hfb⟩ := hf a s' b rest hg
  refine ⟨hb, fun hq => ?_⟩
  rw [bind_of_ok hz]
  exact hfb hq

/-- Both runs begin alike, with a step that is left out in one case. -/
theorem carries_ite_step {c : Prop} [Decidable c] {z : Scanner Unit} {f g : Unit → Scanner β}
    (hf : ∀ u, Carries (f u) (g u) P' Q') :
    Carries (if c then z >>= f else f ()) (if c then z >>= g else g ()) P' Q' := by
  by_cases hc : c
  · rw [if_pos hc, if_pos hc]
    exact carries_bind hf
  · rw [if_neg hc, if_neg hc]
    exact hf ()

/-! ## Counts -/

/-- Whether counting some nodes from `count` on ends at `final`, within a ceiling if there are any. -/
structure Counted (limit count nodes final : Nat) : Prop where
  eq : final = count + nodes
  le : nodes = 0 ∨ final ≤ limit

theorem counted_zero (limit count : Nat) : Counted limit count 0 count := ⟨rfl, .inl rfl⟩

/-- Counts are added one after the other. -/
theorem Counted.trans {a b c m n : Nat} (h : Counted limit a m b) (h' : Counted limit b n c) :
    Counted limit a (m + n) c := by
  have heq := h.eq
  have heq' := h'.eq
  refine ⟨by omega, ?_⟩
  rcases h'.le with hzero | hle
  · rcases h.le with hzero' | hle'
    · exact .inl (by omega)
    · exact .inr (by omega)
  · exact .inr hle

/-- A count that has gone on is carried over only if it was before. -/
theorem Counted.within {a b n : Nat} (h : Counted limit' a n b) (hb : b ≤ limit) : a ≤ limit := by
  have heq := h.eq
  omega

/-- Whether a count stays within a ceiling. -/
abbrev CountWithin (limit : Nat) (r : α × Nat) : Prop := r.2 ≤ limit

/-- A node is counted exactly if there is room for it. -/
theorem carries_countNode :
    Carries (countNode limit count) (countNode limit' count) (Counted limit' count 1)
      fun final => final ≤ limit := by
  intro s final rest hr
  unfold countNode at hr ⊢
  by_cases hfull : limit' ≤ count
  · rw [if_pos hfull] at hr
    cases hr
  · rw [if_neg hfull] at hr
    cases hr
    refine ⟨⟨rfl, .inr (by omega)⟩, fun hwithin => ?_⟩
    rw [if_neg (by omega)]
    rfl

/-! ## Elements and content -/

/-- Whether the run of an element is carried over between two ceilings, with the right count. -/
abbrev ElementCarries (limit limit' : Nat) (fuel : Nat) (scope : Scope) (count : Nat) : Prop :=
  Carries (element limit fuel scope count) (element limit' fuel scope count)
    (fun r => Counted limit' count (elementCount r.1) r.2) (CountWithin limit)

/-- Whether the run of content is carried over between two ceilings, with the right count. -/
abbrev ContentCarries (limit limit' : Nat) (fuel : Nat) (scope : Scope) (n : Name)
    (afterText : Bool) (count : Nat) : Prop :=
  Carries (content limit fuel scope n afterText count) (content limit' fuel scope n afterText count)
    (fun r => Counted limit' count (addedCount afterText r.1) r.2) (CountWithin limit)

/-- A text in front of content counts unless it goes on with a text. -/
theorem carries_text {fuel : Nat} {scope : Scope} {n : Name} (afterText : Bool) (s : String)
    (hcontent : ∀ count, ContentCarries limit limit' fuel scope n true count) :
    Carries
      (do
        let count ← if afterText then pure count else countNode limit count
        let (rest, count) ← content limit fuel scope n true count
        pure (joinText s rest, count))
      (do
        let count ← if afterText then pure count else countNode limit' count
        let (rest, count) ← content limit' fuel scope n true count
        pure (joinText s rest, count))
      (fun r => Counted limit' count (addedCount afterText r.1) r.2) (CountWithin limit) := by
  cases afterText with
  | true =>
    have hstart : Carries (pure count) (pure count) (Counted limit' count 0) fun final =>
        final ≤ limit := carries_pure (counted_zero limit' count)
    refine hstart.bind fun counted hcounted =>
      (hcontent counted).bind fun r hr => carries_pure ⟨⟨?_, hr.within⟩, id⟩
    rw [addedCount_joinText]
    exact hcounted.trans hr
  | false =>
    refine carries_countNode.bind fun counted hcounted =>
      (hcontent counted).bind fun r hr => carries_pure ⟨⟨?_, hr.within⟩, id⟩
    rw [addedCount_joinText]
    exact hcounted.trans hr

/-- A node in front of content that is neither text nor element counts. -/
theorem carries_node {fuel : Nat} {scope : Scope} {n : Name} (afterText : Bool) {node : Node}
    (htext : ∀ s, node ≠ .text s) (hone : ∀ nodes, nodeCount (node :: nodes) = 1 + nodeCount nodes)
    (hcontent : ∀ count, ContentCarries limit limit' fuel scope n false count) :
    Carries
      (do
        let count ← countNode limit count
        let (rest, count) ← content limit fuel scope n false count
        pure (node :: rest, count))
      (do
        let count ← countNode limit' count
        let (rest, count) ← content limit' fuel scope n false count
        pure (node :: rest, count))
      (fun r => Counted limit' count (addedCount afterText r.1) r.2) (CountWithin limit) := by
  refine carries_countNode.bind fun counted hcounted =>
    (hcontent counted).bind fun r hr => carries_pure ⟨⟨?_, hr.within⟩, id⟩
  rw [addedCount_cons_of_ne htext, hone, ← addedCount_false r.1]
  exact hcounted.trans hr

/-- **Elements and content are carried over**, by their common fuel. -/
theorem carries_reading (fuel : Nat) :
    (∀ scope count, ElementCarries limit limit' fuel scope count) ∧
      ∀ scope n afterText count, ContentCarries limit limit' fuel scope n afterText count := by
  induction fuel with
  | zero =>
    refine ⟨fun _ _ => carries_pure ⟨rfl, .inl rfl⟩, fun _ _ _ _ => ?_⟩
    rw [ContentCarries, content, content]
    exact carries_failHere
  | succ fuel ih =>
    obtain ⟨helement, hcontent⟩ := ih
    refine ⟨fun scope count => ?_, fun scope n afterText count => ?_⟩
    · rw [ElementCarries, element, element]
      refine carries_bind fun _ => carries_bind fun _ => carries_bind fun n => ?_
      split
      · exact carries_failAt
      · refine carries_bind fun r => ?_
        obtain ⟨tag, tagEnd⟩ := r
        dsimp only
        split
        · exact carries_pure ⟨rfl, .inl rfl⟩
        · refine carries_bind fun attributes => carries_bind fun _ =>
            carries_countNode.bind fun counted hcounted => ?_
          split
          -- a closed tag is one node
          · refine carries_pure ⟨?_, id⟩
            rw [elementCount, nodeCount_toNode_cons, nodeCount]
            exact hcounted
          · refine (hcontent _ _ _ counted).bind fun r hr => carries_pure ⟨⟨?_, hr.within⟩, id⟩
            rw [elementCount, nodeCount_toNode_cons, nodeCount, ← addedCount_false r.1]
            exact hcounted.trans hr
    · rw [ContentCarries, content, content]
      refine carries_bind fun s => ?_
      split
      · exact carries_failHere
      · refine carries_bind fun _ => ?_
        split
        · exact carries_bind fun _ => carries_node afterText (by simp)
            (fun _ => by rw [nodeCount]; simp) fun count => hcontent _ _ _ count
        · refine carries_bind fun _ => ?_
          split
          · exact carries_bind fun s => carries_text afterText s fun count => hcontent _ _ _ count
          · exact carries_failHere
      · exact carries_bind fun _ => carries_node afterText (by simp)
          (fun _ => by rw [nodeCount]; simp) fun count => hcontent _ _ _ count
      · refine carries_bind fun _ => carries_pure ?_
        rw [addedCount_nil]
        exact counted_zero _ _
      · exact carries_failHere
      · refine (helement scope count).bind fun r hr => ?_
        obtain ⟨e?, counted⟩ := r
        cases e? with
        | none => exact carries_failHere
        | some e =>
          refine (hcontent _ _ _ counted).bind fun r hr' => carries_pure ⟨⟨?_, hr'.within⟩, id⟩
          have htext : ∀ s, e.toNode ≠ .text s := by simp [Element.toNode]
          rw [addedCount_cons_of_ne htext, nodeCount_toNode_cons, ← addedCount_false r.1]
          rw [elementCount, nodeCount_toNode_cons, nodeCount] at hr
          exact hr.trans hr'
      · exact carries_bind fun s => carries_text afterText s fun count => hcontent _ _ _ count

/-! ## Documents -/

/-- Comments and instructions outside the outermost element are carried over. -/
theorem carries_misc (fuel count : Nat) :
    Carries (misc limit fuel count) (misc limit' fuel count)
      (fun r => Counted limit' count (nodeCount r.1) r.2) (CountWithin limit) := by
  induction fuel generalizing count with
  | zero =>
    rw [misc, misc]
    refine carries_pure ?_
    rw [nodeCount_nil]
    exact counted_zero _ _
  | succ fuel ih =>
    rw [misc, misc]
    refine carries_bind fun _ => carries_bind fun _ => ?_
    split
    · refine carries_bind fun _ => carries_countNode.bind fun counted hcounted =>
        (ih counted).bind fun r hr => carries_pure ⟨⟨?_, hr.within⟩, id⟩
      rw [nodeCount]
      · exact hcounted.trans hr
      · simp
    · refine carries_bind fun _ => ?_
      split
      · refine carries_bind fun _ => carries_countNode.bind fun counted hcounted =>
          (ih counted).bind fun r hr => carries_pure ⟨⟨?_, hr.within⟩, id⟩
        rw [nodeCount]
        · exact hcounted.trans hr
        · simp
      · refine carries_pure ?_
        rw [nodeCount_nil]
        exact counted_zero _ _

/-- **Documents are carried over**: what is read under a ceiling stays within it, and is read under
every ceiling it stays within. -/
theorem carries_document :
    Carries (document limit) (document limit') (fun d => d.size ≤ limit') fun d => d.size ≤ limit := by
  refine carries_bind fun _ => carries_ite_step fun _ => carries_bind fun _ =>
    carries_ite_step fun _ => carries_bind fun s => (carries_misc _ 1).bind fun r₁ h₁ =>
      carries_bind fun _ => carries_bind fun _ => ?_
  split
  · exact carries_failHere
  · refine carries_bind fun _ => ?_
    split
    · refine ((carries_reading _).1 [] r₁.2).bind fun r₂ h₂ =>
        (carries_misc _ r₂.2).bind fun r₃ h₃ => carries_bind fun _ => ?_
      split
      · exact carries_failHere
      · cases hroot : r₂.1 with
        | none => exact carries_failHere
        | some root =>
          rw [hroot, elementCount] at h₂
          have hall := (h₁.trans h₂).trans h₃
          have hsize : Document.size ⟨r₁.1, root, r₃.1⟩ = r₃.2 := by
            rw [hall.eq, Document.size]
            change 1 + nodeCount r₁.1 + nodeCount [root.toNode] + nodeCount r₃.1 = _
            omega
          have hle : Document.size ⟨r₁.1, root, r₃.1⟩ ≤ limit' := by
            rw [hsize]
            rcases hall.le with hzero | hle
            -- the element itself is counted
            · rw [nodeCount_toNode_cons] at hzero
              omega
            · exact hle
          -- a count on the way is no higher than the last one, which is the size
          refine carries_pure ⟨⟨⟨hle, ?_⟩, ?_⟩, ?_⟩
          · intro hwithin
            rw [hsize] at hwithin
            exact h₂.within (h₃.within hwithin)
          · intro hwithin
            rw [hsize] at hwithin
            exact h₃.within hwithin
          · intro hwithin
            rwa [hsize] at hwithin
    · refine carries_bind fun _ => ?_
      split <;> exact carries_failHere

end Scanner

namespace Document

variable {limit limit' : Nat} {text : String} {d d' : Document}

/-- **A document that was read under one limit is read under any limit that it keeps to.** -/
theorem carries_ofText (h : ofText limit' text = .ok d) :
    d.size ≤ limit' ∧ (d.size ≤ limit → ofText limit text = .ok d) := by
  unfold ofText at h ⊢
  cases hread : (Scanner.document limit').run text.toList with
  | error failure =>
    rw [hread] at h
    cases h
  | ok r =>
    rw [hread] at h
    cases h
    obtain ⟨hle, hcarried⟩ := @Scanner.carries_document limit limit' text.toList r.1 r.2 hread
    refine ⟨hle, fun hwithin => ?_⟩
    have hread' : (Scanner.document limit).run text.toList = .ok (r.1, r.2) := hcarried hwithin
    rw [hread']

/-- **A document that was read has no more nodes than the ceiling allows.** -/
theorem size_le_of_ofText (h : ofText limit text = .ok d) : d.size ≤ limit :=
  (@carries_ofText limit limit text d h).1

/-- **A document that is read under some ceiling is read under every ceiling that its size allows.** -/
theorem ofText_of_size_le (h : ofText limit' text = .ok d) (hsize : d.size ≤ limit) :
    ofText limit text = .ok d := (carries_ofText h).2 hsize

/-- Whether a text is that of a document, whatever the size of the document. -/
def IsOf (d : Document) (text : String) : Prop := ∃ limit, ofText limit text = .ok d

/-- **The ceiling on nodes does nothing but bound the size.** -/
theorem ofText_eq_ok_iff : ofText limit text = .ok d ↔ d.IsOf text ∧ d.size ≤ limit := by
  constructor
  · intro h
    exact ⟨⟨limit, h⟩, size_le_of_ofText h⟩
  · rintro ⟨⟨limit', h⟩, hsize⟩
    exact ofText_of_size_le h hsize

/-- A text is that of one document at most. -/
theorem IsOf.unique (h : d.IsOf text) (h' : d'.IsOf text) : d = d' := by
  have hmax := ofText_eq_ok_iff.mpr ⟨h, Nat.le_max_left d.size d'.size⟩
  have hmax' := ofText_eq_ok_iff.mpr ⟨h', Nat.le_max_right d.size d'.size⟩
  rw [hmax] at hmax'
  exact Except.ok.inj hmax'

/-- A text is refused under a ceiling exactly if it is that of no document within the ceiling. -/
theorem exists_error_iff :
    (∃ e, ofText limit text = .error e) ↔ ¬ ∃ d : Document, d.IsOf text ∧ d.size ≤ limit := by
  constructor
  · rintro ⟨e, he⟩ ⟨d, hd⟩
    rw [ofText_eq_ok_iff.mpr hd] at he
    cases he
  · intro hnone
    cases hread : ofText limit text with
    | error e => exact ⟨e, rfl⟩
    | ok d => exact absurd ⟨d, ofText_eq_ok_iff.mp hread⟩ hnone

end Document

end StatementPress.Xml
