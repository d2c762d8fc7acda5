import StatementPress.Template.Basic
import StatementPress.Text.Digits

/-!
# Editing templates

The changes an editor makes to a template in memory.  A change that points at a page or component
that is not there is refused, and so is one that the component has no place for.  Nothing else is
checked: a template may break every rule while it is edited.
-/

namespace StatementPress

/-- The text fields of a template. -/
inductive TextField where
  | schemaVersion
  | tenantId
  | templateId
  | name
  | description
  | createdBy
  | updatedBy
  deriving DecidableEq

/-- A place for a component: a page, one of its regions, and an index into the region. -/
structure Slot where
  page : Nat
  region : RegionKind
  index : Nat
  deriving DecidableEq

/-- A change to a template. -/
inductive Edit where
  /-- Adds an empty page at the end. -/
  | addPage (id : String) (number : UInt32)
  | removePage (page : Nat)
  | setPageNumber (page : Nat) (number : UInt32)
  /-- Adds a component on top of a region. -/
  | addComponent (page : Nat) (region : RegionKind) (c : Component)
  | removeComponent (slot : Slot)
  /-- Exchanges a component with another one of its region. -/
  | swapComponents (slot : Slot) (other : Nat)
  | setPosition (slot : Slot) (p : Position)
  /-- Gives a text another fixed text, or none. -/
  | setContent (slot : Slot) (content : Option String)
  /-- Gives a text another binding, or none. -/
  | setBinding (slot : Slot) (binding : Option Binding)
  | setText (field : TextField) (value : String)
  | setStatus (status : TemplateStatus)
  | setVersion (version : UInt32)

/-- Why a change is refused. -/
inductive EditError where
  | noPage (page : Nat)
  | noComponent (index : Nat)
  /-- One of two components is not there. -/
  | noPair
  | notText
  | noBox
  deriving DecidableEq

/-- The wording of an edit error. -/
def EditError.message : EditError → String
  | .noPage page => "no page " ++ Text.decimal page
  | .noComponent index => "no component " ++ Text.decimal index
  | .noPair => "no such component"
  | .notText => "not a text component"
  | .noBox => "unknown component has no position"

/-- A page with one of its regions replaced. -/
def Page.withRegion (p : Page) (kind : RegionKind) (r : Region) : Page :=
  match kind with
  | .header => { p with header := r }
  | .body => { p with body := r }
  | .footer => { p with footer := r }

namespace Template

/-- Changes one page. -/
def changePage (t : Template) (page : Nat) (change : Page → Except EditError Page) :
    Except EditError Template :=
  match t.pages[page]? with
  | none => .error (.noPage page)
  | some p => do
    let p ← change p
    return { t with pages := t.pages.set page p }

/-- Changes the components of one region. -/
def changeRegion (t : Template) (page : Nat) (region : RegionKind)
    (change : List Component → Except EditError (List Component)) : Except EditError Template :=
  t.changePage page fun p => do
    let components ← change (p.region region).components
    return p.withRegion region ⟨components⟩

/-- Changes one component. -/
def changeComponent (t : Template) (slot : Slot)
    (change : Component → Except EditError Component) : Except EditError Template :=
  t.changeRegion slot.page slot.region fun components =>
    match components[slot.index]? with
    | none => .error (.noComponent slot.index)
    | some c => do
      let c ← change c
      return components.set slot.index c

/-- Changes a component that has to be a text. -/
def changeText (t : Template) (slot : Slot) (change : TextComponent → TextComponent) :
    Except EditError Template :=
  t.changeComponent slot fun
    | .text c => .ok (.text (change c))
    | _ => .error .notText

/-- A template with one of its text fields changed. -/
def withText (t : Template) (field : TextField) (value : String) : Template :=
  match field with
  | .schemaVersion => { t with schemaVersion := value }
  | .tenantId => { t with tenantId := value }
  | .templateId => { t with templateId := value }
  | .name => { t with name := value }
  | .description => { t with description := value }
  | .createdBy => { t with createdBy := value }
  | .updatedBy => { t with updatedBy := value }

/-- Makes a change. -/
def apply (t : Template) : Edit → Except EditError Template
  | .addPage id number => .ok { t with pages := t.pages ++ [{ id, pageNumber := number }] }
  | .removePage page =>
    if page < t.pages.length then .ok { t with pages := t.pages.eraseIdx page }
    else .error (.noPage page)
  | .setPageNumber page number => t.changePage page fun p => .ok { p with pageNumber := number }
  | .addComponent page region c => t.changeRegion page region fun cs => .ok (cs ++ [c])
  | .removeComponent slot =>
    t.changeRegion slot.page slot.region fun cs =>
      if slot.index < cs.length then .ok (cs.eraseIdx slot.index)
      else .error (.noComponent slot.index)
  | .swapComponents slot other =>
    t.changeRegion slot.page slot.region fun cs =>
      match cs[slot.index]?, cs[other]? with
      | some a, some b => .ok ((cs.set slot.index b).set other a)
      | _, _ => .error .noPair
  | .setPosition slot p =>
    t.changeComponent slot fun c =>
      match c.withPosition? p with
      | some c => .ok c
      | none => .error .noBox
  | .setContent slot content => t.changeText slot fun c => { c with content }
  | .setBinding slot binding => t.changeText slot fun c => { c with binding }
  | .setText field value => .ok (t.withText field value)
  | .setStatus status => .ok { t with status }
  | .setVersion version => .ok { t with version }

end Template

end StatementPress
