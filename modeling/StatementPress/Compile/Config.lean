import StatementPress.Payload.Limits

/-!
# Settings of the compiler

What all documents of one compiler share: the margin of the page master and the ceilings on
payloads.
-/

namespace StatementPress

/-- The settings of a compiler. -/
structure CompilerConfig where
  /-- The margin of every page, a length of any unit. -/
  margin : String := "10mm"
  limits : Limits := {}
  deriving DecidableEq

namespace CompilerConfig

/-- The settings as a value. -/
def toJson (c : CompilerConfig) : Json :=
  .object [("margin", .string c.margin), ("limits", c.limits.toJson)]

/-- Reads settings; what is absent has its default. -/
def reader : Json.Typed CompilerConfig :=
  .record "CompilerConfig" {} [
    .optional "margin" .string fun s c => { c with margin := s },
    .optional "limits" Limits.reader fun l c => { c with limits := l }]

end CompilerConfig

end StatementPress
