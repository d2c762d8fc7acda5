import StatementPress.Binary64.Shortest

/-!
# Lengths

A length in points, as markup has it: positional digits however large or small the number is, a
point only if digits follow it, and no sign on zero.
-/

namespace StatementPress.Markup

/-- A number in positional digits, the fewest that read back. -/
def plainNumber (x : Binary64) : String :=
  if x.isNaN then "NaN"
  else
    let body := if x.isFinite then String.ofList ((x.shortest .up).positional []) else "inf"
    if x.negative && !x.isZero then "-" ++ body else body

/-- A length in points. -/
def points (x : Binary64) : String := plainNumber x ++ "pt"

end StatementPress.Markup
