import StatementPress.Markup.Length
import StatementPress.Template.Basic

/-!
# Fragments

The markup of one component: a box at a fixed place on the page with the component's content in it.
-/

namespace StatementPress.Markup

/-- An attribute of a tag, with the blank before it. -/
def attr (name value : String) : String := " " ++ name ++ "=\"" ++ value ++ "\""

/-- Content in a box on the page. -/
def positioned (p : Position) (content : String) : String :=
  "<fo:block-container" ++ attr "absolute-position" "absolute" ++ attr "left" (points p.x) ++
    attr "top" (points p.y) ++ attr "width" (points p.width) ++
    attr "height" (points p.height) ++ ">" ++ content ++ "</fo:block-container>"

/-- What a component that is not drawn contributes. -/
def noFragment : String := ""

end StatementPress.Markup
