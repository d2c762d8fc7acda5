import StatementPress.Markup.Block
import StatementPress.Proofs.AbsolutePath
import StatementPress.Proofs.Markup.Tree

/-!
# What components draw

The markup of a component as a tree, computed from the component and the payload by total functions.
Drawing can only stop at a path that is not absolute, so where the bindings of a component are
absolute, its fragment is the text of its tree (`Component.outcome_fragment`).  Nothing of the
payload matters for that, neither what it holds nor what it lacks.
-/

namespace StatementPress

open Markup StatementPress.Path

/-! ## Values -/

/-- The text that a binding stands for. -/
def Binding.shown (b : Binding) (payload : Payload) : String :=
  if (payload.textAt b.path).isEmpty then b.fallback else payload.textAt b.path

theorem Binding.outcome_orFallback (b : Binding) (value : String) :
    (b.orFallback value).outcome = .ok (if value.isEmpty then b.fallback else value) := by
  unfold Binding.orFallback
  split <;> simp

/-- A binding with an absolute path shows a text, whatever the payload. -/
theorem Binding.outcome_value {b : Binding} (h : IsAbsolute b.path) (payload : Payload) :
    (b.value payload).outcome = .ok (b.shown payload) := by
  rw [Binding.value, Run.outcome_bind, Run.outcome_ofExcept, Payload.resolve_of_isAbsolute h,
    ok_bind, Binding.outcome_orFallback]
  rfl

/-- The text that is shown. -/
def TextComponent.shown (c : TextComponent) (payload : Payload) : String :=
  if (c.content.getD "").isEmpty then (c.binding.map (·.shown payload)).getD ""
  else c.content.getD ""

/-- A text with absolute paths shows its content or its binding. -/
theorem TextComponent.outcome_value {c : TextComponent} (h : ∀ b ∈ c.binding, IsAbsolute b.path)
    (payload : Payload) : (c.value payload).outcome = .ok (c.shown payload) := by
  obtain ⟨frame, content, binding, style⟩ := c
  have hb : ∀ b, binding = some b → (b.value payload).outcome = .ok (b.shown payload) :=
    fun b hb => Binding.outcome_value (h b hb) payload
  unfold TextComponent.value TextComponent.shown
  cases content with
  | none =>
    cases binding with
    | none => rfl
    | some b => simp [hb b rfl]
  | some s =>
    cases binding with
    | none => by_cases hs : s = "" <;> simp [hs]
    | some b => by_cases hs : s = "" <;> simp [hs, hb b rfl]

/-! ## Components other than tables -/

/-- A block with a passage in it. -/
def Markup.textBlock (attributes : Attributes) (text : Passage) : Node :=
  .element .empty (named "block") attributes [] text

/-- The attributes of a block in a heavy font. -/
def Markup.boldAttributes : Attributes := attributes [(named "font-weight", .fixed "bold")]

/-- The name of a font weight as a passage. -/
def FontWeight.passage (w : FontWeight) : Passage := .fixed w.name (by cases w <;> decide)

/-- The name of an alignment as a passage. -/
def Align.passage (a : Align) : Passage := .fixed a.name (by cases a <;> decide)

@[simp] theorem FontWeight.chars_passage (w : FontWeight) : w.passage.chars = w.name.toList :=
  Passage.chars_fixed _ _

@[simp] theorem Align.chars_passage (a : Align) : a.passage.chars = a.name.toList :=
  Passage.chars_fixed _ _

/-- The tree of a text. -/
def TextComponent.node (c : TextComponent) (payload : Payload) : Node :=
  textBlock (attributes [(named "font-family", .escaped c.style.fontFamily),
    (named "font-size", .length c.style.fontSize),
    (named "font-weight", c.style.fontWeight.passage),
    (named "color", .escaped c.style.color), (named "text-align", c.style.align.passage)])
    (.escaped (c.shown payload))

/-- The reference to a picture. -/
def ImageComponent.source (c : ImageComponent) : Passage :=
  .join [.fixed "url('asset:", .escaped c.assetId, .fixed "')"]

/-- The tree of a picture.  A picture that nothing describes has no role. -/
def ImageComponent.node (c : ImageComponent) : Node :=
  .leaf .empty (named "external-graphic")
    (if c.description.isEmpty then
      attributes [(named "src", c.source), (named "content-width", .length c.position.width),
        (named "content-height", .length c.position.height)]
    else
      attributes [(named "src", c.source), (named "content-width", .length c.position.width),
        (named "content-height", .length c.position.height),
        (named "role", .escaped c.description)]) false

/-- The tree of a rule. -/
def DividerComponent.node (c : DividerComponent) : Node :=
  .leaf .empty (named "block") (attributes [(named "border-bottom",
    .join [.length c.strokeWidth, .fixed " solid ", .escaped c.color])]) false

/-- The tree of a labelled amount. -/
def TotalsComponent.node (c : TotalsComponent) (payload : Payload) : Node :=
  textBlock boldAttributes
    (.join [.escaped c.label, .fixed ": ", .escaped (c.amountBinding.shown payload)])

/-- The tree of a payment instruction. -/
def PaymentComponent.node (c : PaymentComponent) (payload : Payload) : Node :=
  textBlock (attributes [])
    (.join [.escaped c.instruction, .fixed " ", .escaped (c.accountBinding.shown payload)])

/-- The tree of a box of text. -/
def CalloutComponent.node (c : CalloutComponent) : Node :=
  .element .empty (named "block")
    (attributes [(named "border", .fixed "1pt solid #000000"), (named "padding", .fixed "4pt")])
    [textBlock boldAttributes (.escaped c.title), textBlock (attributes []) (.escaped c.body)] .empty

/-- A string with given characters. -/
theorem Markup.eq_ofList {s : String} {cs : List Char} (h : s.toList = cs) :
    s = String.ofList cs := by
  rw [← h, String.ofList_toList]

section Text
variable (payload : Payload)

/-- What writing a tree comes down to, as a rule for rewriting. -/
@[simp] theorem Markup.write_textBlock (as : Attributes) (p : Passage) :
    (textBlock as p).write =
      '<' :: writeTag (named "block") as ++ '>' :: p.chars ++ writeClosing (named "block") := by
  simp [textBlock, Node.write, Node.writeAll]

/-- The markup of a text is what its tree writes. -/
theorem TextComponent.outcome_markup {c : TextComponent}
    (h : ∀ b ∈ c.binding, IsAbsolute b.path) :
    (c.markup payload).outcome = .ok (String.ofList (c.node payload).write) := by
  unfold TextComponent.markup
  rw [Run.outcome_bind, TextComponent.outcome_value h, ok_bind,
    Run.outcome_pure]
  refine congrArg Except.ok (eq_ofList ?_)
  simp [TextComponent.node, attr, writeTag, writeClosing, writeAttribute, qualifierChars, named,
    attributes]

/-- The markup of a picture is what its tree writes. -/
theorem ImageComponent.markup_eq (c : ImageComponent) : c.markup = String.ofList c.node.write := by
  unfold ImageComponent.markup
  refine eq_ofList ?_
  by_cases hd : c.description = "" <;>
    simp [ImageComponent.node, ImageComponent.source, hd, Node.write, attr, writeTag,
      writeAttribute, qualifierChars, named, attributes]

theorem DividerComponent.markup_eq (c : DividerComponent) :
    c.markup = String.ofList c.node.write := by
  unfold DividerComponent.markup
  refine eq_ofList ?_
  simp [DividerComponent.node, Node.write, attr, writeTag,
    writeAttribute, qualifierChars, named, attributes]

/-- The markup of totals is what their tree writes. -/
theorem TotalsComponent.outcome_markup {c : TotalsComponent}
    (h : IsAbsolute c.amountBinding.path) :
    (c.markup payload).outcome = .ok (String.ofList (c.node payload).write) := by
  unfold TotalsComponent.markup
  rw [Run.outcome_bind, Binding.outcome_value h, ok_bind, Run.outcome_pure]
  refine congrArg Except.ok (eq_ofList ?_)
  simp [TotalsComponent.node, boldAttributes, attr, writeTag, writeClosing, writeAttribute,
    qualifierChars, named, attributes]

/-- The markup of a payment instruction is what its tree writes. -/
theorem PaymentComponent.outcome_markup {c : PaymentComponent}
    (h : IsAbsolute c.accountBinding.path) :
    (c.markup payload).outcome = .ok (String.ofList (c.node payload).write) := by
  unfold PaymentComponent.markup
  rw [Run.outcome_bind, Binding.outcome_value h, ok_bind,
    Run.outcome_pure]
  refine congrArg Except.ok (eq_ofList ?_)
  simp [PaymentComponent.node, writeTag, writeClosing, qualifierChars, named, attributes]

theorem CalloutComponent.markup_eq (c : CalloutComponent) :
    c.markup = String.ofList c.node.write := by
  unfold CalloutComponent.markup
  refine eq_ofList ?_
  simp [CalloutComponent.node, Node.write, Node.writeAll, boldAttributes,
    attr, writeTag, writeClosing, writeAttribute, qualifierChars, named, attributes]

end Text

end StatementPress
