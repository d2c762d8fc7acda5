import StatementPress.Proofs.Outcome
import StatementPress.Xml.Reader

/-!
# What the reader lets through

The names of elements and of attributes in a document that was read are local names
(`Document.HasLocalNames`): they start as names do and go on with characters of names, and no colon
stands in them.  So the names of elements are well-formed at every depth (`WellNamed`), and around
the outermost element stand comments and instructions only.  `Gives` says of a scanner that whatever
it reads has a property; it has a rule for composing scanners, and the statement about elements is an
induction on the fuel.
-/

namespace StatementPress.Xml

/-- Whether a string starts as names do. -/
def startsAsName (s : String) : Bool := s.toList.head?.any isNameStart

/-- A name without a qualifier. -/
structure IsLocalName (s : String) : Prop where
  starts : startsAsName s = true
  chars : ∀ c ∈ s.toList, c ≠ ':' ∧ isNameChar c = true

/-- No slash stands in a name. -/
theorem IsLocalName.no_slash {s : String} (h : IsLocalName s) : '/' ∉ s.toList := by
  intro hslash
  have hchar : isNameChar '/' = true := (h.chars '/' hslash).2
  revert hchar
  decide

/-! ## Elements -/

/-- Induction on nodes, into the elements among them.  The other nodes have nothing inside. -/
@[elab_as_elim]
theorem nodes_induction {motive : List Node → Prop} (nil : motive [])
    (element : ∀ (e : Element) rest, motive e.children → motive rest → motive (e.toNode :: rest))
    (other : ∀ node rest, (∀ e : Element, node ≠ e.toNode) → motive rest → motive (node :: rest)) :
    ∀ nodes, motive nodes
  | [] => nil
  | .element name attributes children :: rest =>
    element ⟨name, attributes, children⟩ rest (nodes_induction nil element other children)
      (nodes_induction nil element other rest)
  | .text _ :: rest => other _ rest (fun _ h => nomatch h) (nodes_induction nil element other rest)
  | .comment :: rest => other _ rest (fun _ h => nomatch h) (nodes_induction nil element other rest)
  | .instruction :: rest => other _ rest (fun _ h => nomatch h) (nodes_induction nil element other rest)

/-- The elements among nodes are those of their own kind. -/
theorem elements_cons_of_ne {node : Node} (h : ∀ e : Element, node ≠ e.toNode) (rest : List Node) :
    elements (node :: rest) = elements rest := by
  cases node with
  | element name attributes children => exact absurd rfl (h ⟨name, attributes, children⟩)
  | _ => simp [elements]

/-- All elements among nodes and inside them, in document order. -/
def allElements : List Node → List Element
  | [] => []
  | .element name attributes children :: rest =>
    ⟨name, attributes, children⟩ :: (allElements children ++ allElements rest)
  | _ :: rest => allElements rest

/-- All elements of a document, in document order. -/
def Document.allElements (d : Document) : List Element := Xml.allElements [d.root.toNode]

@[simp] theorem allElements_nil : allElements [] = [] := by rw [allElements]

@[simp] theorem allElements_toNode_cons (e : Element) (nodes : List Node) :
    allElements (e.toNode :: nodes) = e :: (allElements e.children ++ allElements nodes) := by
  rw [Element.toNode, allElements]

theorem allElements_cons_of_ne {node : Node} (h : ∀ e : Element, node ≠ e.toNode)
    (rest : List Node) : allElements (node :: rest) = allElements rest := by
  cases node with
  | element name attributes children => exact absurd rfl (h ⟨name, attributes, children⟩)
  | _ => simp [allElements]

@[simp] theorem allElements_text_cons (s : String) (nodes : List Node) :
    allElements (.text s :: nodes) = allElements nodes := by
  refine allElements_cons_of_ne ?_ nodes
  exact fun _ h => nomatch h

/-- Text does not matter for elements. -/
theorem allElements_joinText (s : String) (nodes : List Node) :
    allElements (joinText s nodes) = allElements nodes := by
  unfold joinText
  split
  · rw [allElements_text_cons, allElements_text_cons]
  · rw [allElements_text_cons]

theorem Document.root_mem_allElements (d : Document) : d.root ∈ d.allElements := by
  rw [Document.allElements, allElements_toNode_cons]
  exact List.mem_cons_self

/-- The elements directly in a list of nodes are among all those in it. -/
theorem mem_allElements_of_mem_elements {nodes : List Node} {e : Element} (he : e ∈ elements nodes) :
    e ∈ allElements nodes := by
  induction nodes using nodes_induction with
  | nil => cases he
  | element first rest _ ih =>
    rw [allElements_toNode_cons]
    rcases List.mem_cons.mp he with rfl | he
    · exact List.mem_cons_self
    · exact List.mem_cons_of_mem _ (List.mem_append_right _ (ih he))
  | other node rest hnode ih =>
    rw [elements_cons_of_ne hnode] at he
    rw [allElements_cons_of_ne hnode]
    exact ih he

/-- What stands inside an element stands wherever the element stands. -/
theorem mem_allElements_trans {nodes : List Node} {e inner : Element} (he : e ∈ allElements nodes)
    (hinner : inner ∈ allElements e.children) : inner ∈ allElements nodes := by
  induction nodes using nodes_induction with
  | nil => simp at he
  | element first rest ihchildren ihrest =>
    rw [allElements_toNode_cons] at he ⊢
    refine List.mem_cons_of_mem _ (List.mem_append.mpr ?_)
    rcases List.mem_cons.mp he with rfl | he
    · exact .inl hinner
    · rcases List.mem_append.mp he with he | he
      · exact .inl (ihchildren he)
      · exact .inr (ihrest he)
  | other node rest hnode ih =>
    rw [allElements_cons_of_ne hnode] at he ⊢
    exact ih he

/-- An element whose own name and those of whose attributes are local names. -/
structure Element.HasLocalNames (e : Element) : Prop where
  name : IsLocalName e.name
  attributes : ∀ a ∈ e.attributes, IsLocalName a.1

/-- A document all elements of which have local names. -/
def Document.HasLocalNames (d : Document) : Prop := ∀ e ∈ d.allElements, e.HasLocalNames

/-- The children of an element of a document have local names. -/
theorem Document.HasLocalNames.children {d : Document} (h : d.HasLocalNames) {e : Element}
    (he : e ∈ d.allElements) : ∀ child ∈ elements e.children, child.HasLocalNames :=
  fun _ hchild => h _ (mem_allElements_trans he (mem_allElements_of_mem_elements hchild))

/-- Whether the names of all elements among nodes, and inside them, start as names do. -/
def WellNamed : List Node → Prop
  | [] => True
  | .element name _ children :: rest =>
    startsAsName name = true ∧ WellNamed children ∧ WellNamed rest
  | _ :: rest => WellNamed rest

theorem wellNamed_toNode_cons {e : Element} {nodes : List Node} :
    WellNamed (e.toNode :: nodes) ↔
      startsAsName e.name = true ∧ WellNamed e.children ∧ WellNamed nodes := by
  rw [Element.toNode, WellNamed]

theorem wellNamed_cons_of_ne {node : Node} (h : ∀ e : Element, node ≠ e.toNode)
    {nodes : List Node} : WellNamed (node :: nodes) ↔ WellNamed nodes := by
  cases node with
  | element name attributes children => exact absurd rfl (h ⟨name, attributes, children⟩)
  | _ => simp [WellNamed]

/-- Nodes are well named exactly if the names of all elements in them start as names. -/
theorem wellNamed_iff {nodes : List Node} :
    WellNamed nodes ↔ ∀ e ∈ allElements nodes, startsAsName e.name = true := by
  induction nodes using nodes_induction with
  | nil => simp [WellNamed]
  | element e rest ihchildren ihrest =>
    rw [wellNamed_toNode_cons, ihchildren, ihrest, allElements_toNode_cons, List.forall_mem_cons,
      List.forall_mem_append]
  | other node rest hnode ih => rw [wellNamed_cons_of_ne hnode, allElements_cons_of_ne hnode, ih]

theorem wellNamed_of_mem_elements {nodes : List Node} (h : WellNamed nodes) :
    ∀ e ∈ elements nodes, startsAsName e.name = true ∧ WellNamed e.children := by
  intro e he
  have hnamed := wellNamed_iff.mp h
  refine ⟨hnamed e (mem_allElements_of_mem_elements he), wellNamed_iff.mpr fun inner hinner => ?_⟩
  exact hnamed inner (mem_allElements_trans (mem_allElements_of_mem_elements he) hinner)

/-- A document whose only element, beside what stands in it, is its outermost one, and in which all
names start as names do. -/
structure Document.IsWellNamed (d : Document) : Prop where
  before : elements d.before = []
  after : elements d.after = []
  root : WellNamed [d.root.toNode]

namespace Scanner

variable {α β : Type} {P : α → Prop} {Q : β → Prop} {limit : Nat}

/-- **Whether everything that a scanner reads has a property.** -/
def Gives (r : Scanner α) (P : α → Prop) : Prop := ∀ s a rest, r s = .ok (a, rest) → P a

/-! ## Composing -/

theorem gives_pure {a : α} (h : P a) : Gives (pure a) P := by
  intro s b rest hr
  cases hr
  exact h

/-- Scanners one after the other: what the first one gives is handed to the second. -/
theorem Gives.bind {r : Scanner α} {f : α → Scanner β} (hr : Gives r P)
    (hf : ∀ a, P a → Gives (f a) Q) : Gives (r >>= f) Q := by
  intro s b rest h
  have h : (r s >>= fun p => f p.1 p.2) = .ok (b, rest) := h
  obtain ⟨p, hrs, h⟩ := exists_of_bind_eq_ok h
  exact hf p.1 (hr _ _ _ hrs) _ _ _ h

/-- Nothing is asked of what is read first. -/
theorem gives_bind {r : Scanner α} {f : α → Scanner β} (hf : ∀ a, Gives (f a) Q) :
    Gives (r >>= f) Q := Gives.bind (P := fun _ => True) (fun _ _ _ _ => trivial) fun a _ => hf a

theorem gives_failAt {problem : Problem} {rest : List Char} : Gives (failAt problem rest) P :=
  fun _ _ _ h => nomatch h

theorem gives_failHere {problem : Problem} : Gives (failHere problem) P := fun _ _ _ h => nomatch h

/-- A value is taken from one of two places. -/
theorem gives_ite_bind {c : Prop} [Decidable c] {r r' : Scanner α} {f : α → Scanner β}
    (hf : ∀ a, Gives (f a) Q) : Gives (if c then r >>= f else r' >>= f) Q := by
  split <;> exact gives_bind hf

/-- A step that is left out in one case. -/
theorem gives_ite_step {c : Prop} [Decidable c] {r : Scanner Unit} {f : Unit → Scanner β}
    (hf : ∀ u, Gives (f u) Q) : Gives (if c then r >>= f else f ()) Q := by
  split
  · exact gives_bind hf
  · exact hf ()

theorem gives_ofExcept {outcome : Except Failure α} (h : ∀ a, outcome = .ok a → P a) :
    Gives (ofExcept outcome) P := by
  intro s a rest hr
  cases outcome with
  | error failure => cases hr
  | ok b =>
    cases hr
    exact h a rfl

/-! ## Names -/

/-- What is taken from the front of a document, colons left out, is a local name if it starts as one
does. -/
theorem isLocalName_takeWhile {s : List Char}
    (hne : ¬ (s.takeWhile fun c => c ≠ ':' && isNameChar c).isEmpty = true)
    (hstart : ¬ (!startsName (s.takeWhile fun c => c ≠ ':' && isNameChar c)) = true) :
    IsLocalName (String.ofList (s.takeWhile fun c => c ≠ ':' && isNameChar c)) := by
  constructor
  · cases h : s.takeWhile fun c => c ≠ ':' && isNameChar c with
    | nil => exact absurd (by rw [h]; rfl) hne
    | cons c cs =>
      rw [h] at hstart
      simpa [startsAsName, startsName] using hstart
  · intro c hc
    rw [String.toList_ofList] at hc
    simpa using List.all_eq_true.mp List.all_takeWhile c hc

theorem gives_name : Gives name fun n => IsLocalName n.localName := by
  refine gives_bind fun s => ?_
  dsimp only
  split
  · split
    · exact gives_failHere
    · rename_i h
      simp only [not_or] at h
      exact gives_bind fun _ => gives_pure (isLocalName_takeWhile h.2.2.1 h.2.2.2)
  · split
    · exact gives_failHere
    · rename_i h
      simp only [not_or] at h
      exact gives_bind fun _ => gives_pure (isLocalName_takeWhile h.1 h.2)

/-! ## Attributes -/

/-- The name of an attribute is a local one. -/
theorem gives_attributeParts : Gives attributeParts fun r => IsLocalName r.1.localName :=
  gives_name.bind fun _ hn => gives_bind fun _ => gives_bind fun _ => gives_bind fun _ =>
    gives_bind fun _ => gives_bind fun _ => gives_bind fun _ => gives_bind fun _ => gives_pure hn

/-- Adding an attribute to a tag adds no name but its own. -/
theorem localNames_add {tag tag' : Tag} {a : Attribute} (h : tag.add a = .ok tag')
    (htag : ∀ b ∈ tag.attributes, IsLocalName b.name.localName)
    (ha : IsLocalName a.name.localName) :
    ∀ b ∈ tag'.attributes, IsLocalName b.name.localName := by
  have hcases : tag'.attributes = tag.attributes ∨ tag'.attributes = tag.attributes ++ [a] := by
    unfold Tag.add at h
    grind
  rcases hcases with hsame | hmore
  · rwa [hsame]
  · rw [hmore]
    exact List.forall_mem_append.mpr ⟨htag, List.forall_mem_singleton.mpr ha⟩

/-- The attributes of a tag that is read, by the fuel. -/
theorem gives_tagRest (fuel : Nat) {tag : Tag}
    (htag : ∀ a ∈ tag.attributes, IsLocalName a.name.localName) :
    Gives (tagRest fuel tag) fun r => ∀ a ∈ r.1.attributes, IsLocalName a.name.localName := by
  induction fuel generalizing tag with
  | zero => exact gives_pure htag
  | succ fuel ih =>
    refine gives_bind fun s => ?_
    dsimp only
    split
    · exact gives_pure htag
    · refine gives_bind fun _ => gives_bind fun start => gives_bind fun c => ?_
      split
      · exact gives_bind fun _ => gives_bind fun _ => gives_pure htag
      · split
        · exact gives_bind fun _ => gives_pure htag
        · split
          · exact gives_failHere
          · refine gives_attributeParts.bind fun ⟨n, valueStart, raw⟩ hn => gives_bind fun value => ?_
            refine (gives_ofExcept fun tag' hadd => localNames_add hadd htag hn).bind ?_
            exact fun tag' htag' => ih htag'

/-- The attributes of an element are those of its tag, by local name. -/
theorem attributes_eq_map {scope : Scope} {seen : List (Option String × String)}
    {as : List Attribute} {attributes : List (String × String)}
    (h : scope.attributes seen as = .ok attributes) :
    attributes = as.map fun a => (a.name.localName, a.value) := by
  induction as generalizing seen attributes with
  | nil =>
    cases h
    rfl
  | cons a as ih =>
    rw [Scope.attributes] at h
    obtain ⟨uri, -, h⟩ := exists_of_bind_eq_ok h
    split at h
    · cases h
    · obtain ⟨others, hothers, h⟩ := exists_of_bind_eq_ok h
      cases h
      rw [ih hothers, List.map_cons]

/-! ## Elements -/

/-- Nodes that were read have local names. -/
abbrev NodesNamed (r : List Node × Nat) : Prop := ∀ e ∈ allElements r.1, e.HasLocalNames

/-- An element that was read, if there is one, has local names, and so has everything inside it. -/
abbrev ElementNamed (r : Option Element × Nat) : Prop :=
  ∀ e, r.1 = some e → e.HasLocalNames ∧ ∀ inner ∈ allElements e.children, inner.HasLocalNames

/-- Elements and content, by their common fuel. -/
theorem gives_reading (fuel : Nat) :
    (∀ scope count, Gives (element limit fuel scope count) ElementNamed) ∧
      ∀ scope n afterText count, Gives (content limit fuel scope n afterText count) NodesNamed := by
  induction fuel with
  | zero =>
    refine ⟨fun _ _ => gives_pure ?_, fun _ _ _ _ => gives_failHere⟩
    intro e he
    cases he
  | succ fuel ih =>
    obtain ⟨helement, hcontent⟩ := ih
    refine ⟨fun scope count => ?_, fun scope n afterText count => ?_⟩
    · refine gives_bind fun _ => gives_bind fun _ => gives_name.bind fun n hn => ?_
      split
      · exact gives_failAt
      · refine (gives_tagRest fuel (List.forall_mem_nil _)).bind fun ⟨tag, tagEnd⟩ htag => ?_
        dsimp only
        split
        · refine gives_pure ?_
          intro e he
          cases he
        · refine (gives_ofExcept fun _ => attributes_eq_map).bind fun attributes hattributes => ?_
          have hown : ∀ a ∈ attributes, IsLocalName a.1 := by
            rw [hattributes]
            exact List.forall_mem_map.mpr htag
          refine gives_bind fun _ => gives_bind fun count => ?_
          split
          · refine gives_pure ?_
            intro e he
            cases he
            exact ⟨⟨hn, hown⟩, fun _ hinner => by simp at hinner⟩
          · refine (hcontent _ _ _ _).bind fun r hr => gives_pure ?_
            intro e he
            cases he
            exact ⟨⟨hn, hown⟩, hr⟩
    · have haddText : ∀ s, Gives (do
          let count ← if afterText then pure count else countNode limit count
          let r ← content limit fuel scope n true count
          pure (joinText s r.1, r.2) : Scanner (List Node × Nat)) NodesNamed := fun s =>
        gives_ite_bind fun _ => (hcontent _ _ _ _).bind fun r hr => gives_pure <| by
          rwa [NodesNamed, allElements_joinText]
      have haddNode : ∀ node, (∀ nodes, allElements (node :: nodes) = allElements nodes) → Gives (do
          let count ← countNode limit count
          let r ← content limit fuel scope n false count
          pure (node :: r.1, r.2) : Scanner (List Node × Nat)) NodesNamed := fun node hnode =>
        gives_bind fun _ => (hcontent _ _ _ _).bind fun r hr => gives_pure <| by
          rwa [NodesNamed, hnode]
      rw [content]
      refine gives_bind fun s => ?_
      split
      · exact gives_failHere
      · refine gives_bind fun _ => ?_
        split
        · exact gives_bind fun _ => haddNode _ (allElements_cons_of_ne fun _ h => nomatch h)
        · refine gives_bind fun _ => ?_
          split
          · exact gives_bind fun s => haddText s
          · exact gives_failHere
      · exact gives_bind fun _ => haddNode _ (allElements_cons_of_ne fun _ h => nomatch h)
      · refine gives_bind fun _ => gives_pure ?_
        intro e he
        simp at he
      · exact gives_failHere
      · refine (helement scope count).bind fun r hr => ?_
        split
        · exact gives_failHere
        · rename_i e count'
          obtain ⟨hown, hinside⟩ := hr e rfl
          refine (hcontent _ _ _ _).bind fun rest hrest => gives_pure ?_
          rw [NodesNamed, allElements_toNode_cons, List.forall_mem_cons, List.forall_mem_append]
          exact ⟨hown, hinside, hrest⟩
      · exact gives_bind fun s => haddText s

/-! ## Documents -/

/-- Outside the outermost element there are no elements. -/
theorem gives_misc (fuel count : Nat) :
    Gives (misc limit fuel count) fun r => elements r.1 = [] := by
  induction fuel generalizing count with
  | zero => exact gives_pure rfl
  | succ fuel ih =>
    refine gives_bind fun _ => gives_bind fun _ => ?_
    split
    · exact gives_bind fun _ => gives_bind fun _ => (ih _).bind fun _ h => gives_pure h
    · refine gives_bind fun _ => ?_
      split
      · exact gives_bind fun _ => gives_bind fun _ => (ih _).bind fun _ h => gives_pure h
      · exact gives_pure rfl

/-- **Every document that is read has local names**, and no elements beside the outermost one. -/
theorem gives_document :
    Gives (document limit) fun d =>
      elements d.before = [] ∧ elements d.after = [] ∧ d.HasLocalNames := by
  -- a mark and a declaration may come first
  refine gives_bind fun _ => gives_ite_step fun _ => gives_bind fun _ => gives_ite_step fun _ => ?_
  refine gives_bind fun s => (gives_misc _ _).bind fun ⟨before, count⟩ hbefore =>
    gives_bind fun _ => gives_bind fun _ => ?_
  split
  · exact gives_failHere
  · refine gives_bind fun _ => ?_
    split
    · refine ((gives_reading _).1 _ _).bind fun ⟨root?, count⟩ hroot =>
        (gives_misc _ _).bind fun ⟨after, _⟩ hafter => gives_bind fun _ => ?_
      split
      · exact gives_failHere
      · split
        · rename_i root
          obtain ⟨hown, hinside⟩ := hroot root rfl
          refine gives_pure ⟨hbefore, hafter, ?_⟩
          rw [Document.HasLocalNames, Document.allElements, allElements_toNode_cons, allElements_nil,
            List.append_nil, List.forall_mem_cons]
          exact ⟨hown, hinside⟩
        · exact gives_failHere
    · refine gives_bind fun _ => ?_
      split <;> exact gives_failHere

end Scanner

namespace Document

variable {limit : Nat} {text : String} {d : Document}

theorem gives_ofText (h : ofText limit text = .ok d) :
    elements d.before = [] ∧ elements d.after = [] ∧ d.HasLocalNames := by
  unfold ofText at h
  split at h
  · rename_i d' rest hread
    cases h
    exact Scanner.gives_document _ _ _ hread
  · cases h

/-- **The names in a document that was read are local names.** -/
theorem hasLocalNames_of_ofText (h : ofText limit text = .ok d) : d.HasLocalNames :=
  (gives_ofText h).2.2

/-- **A document that was read is well named.** -/
theorem isWellNamed_of_ofText (h : ofText limit text = .ok d) : d.IsWellNamed := by
  obtain ⟨hbefore, hafter, hnames⟩ := gives_ofText h
  exact ⟨hbefore, hafter, wellNamed_iff.mpr fun e he => (hnames e he).name.starts⟩

end Document

end StatementPress.Xml
