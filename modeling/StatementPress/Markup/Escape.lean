import StatementPress.Xml.Char

/-!
# Escaped text

Text as it goes into markup, between tags or between quotation marks.  Reserved characters become
references.  So does a carriage return, which a reader of the markup would otherwise take for a line
end.  Characters that may not stand in a document are left out.
-/

namespace StatementPress.Markup

/-- One character as it goes into markup. -/
def escapeChar (c : Char) : List Char :=
  match c with
  | '&' => ['&', 'a', 'm', 'p', ';']
  | '<' => ['&', 'l', 't', ';']
  | '>' => ['&', 'g', 't', ';']
  | '"' => ['&', 'q', 'u', 'o', 't', ';']
  | '\'' => ['&', 'a', 'p', 'o', 's', ';']
  | '\r' => ['&', '#', '1', '3', ';']
  | c => if Xml.isAllowed c then [c] else []

/-- A text as it goes into markup. -/
def escape (s : String) : String := String.ofList (s.toList.flatMap escapeChar)

end StatementPress.Markup
