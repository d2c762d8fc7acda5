/-!
# Places in a text

A reader works on the characters that are still unread, so a place is described by what is left of
the text there.  This module turns it into a line and a column, counted from one.  Lines end at
line feeds.  A column counts characters, or bytes of the encoded text, as the format of the message
has it.
-/

namespace StatementPress.Text

/-- A line and a column. -/
structure Place where
  /-- The line, counted from one. -/
  line : Nat
  column : Nat
  deriving DecidableEq

/-- The number of bytes of an encoded text. -/
def byteSize (cs : List Char) : Nat := cs.foldl (fun n c => n + c.utf8Size) 0

/-- The characters of `text` before its ending `rest`. -/
def before (text rest : List Char) : List Char := text.take (text.length - rest.length)

/-- The line of the place after `done`. -/
def lineAfter (done : List Char) : Nat := done.count '\n' + 1

/-- The characters of the last line of `done`. -/
def lastLine (done : List Char) : List Char := (done.reverse.takeWhile (· ≠ '\n')).reverse

/-- The place where `rest` is left of `text`; the first character of a line has column one. -/
def Place.ofRest (text rest : List Char) : Place :=
  let done := before text rest
  ⟨lineAfter done, (lastLine done).length + 1⟩

/-- Passes `n` bytes of a text: what is left from the first character not wholly passed, and the
bytes passed of that character. -/
def passBytes : Nat → List Char → List Char × Nat
  | _, [] => ([], 0)
  | n, c :: cs => if c.utf8Size ≤ n then passBytes (n - c.utf8Size) cs else (c :: cs, n)

/-- The place `ahead` bytes after the one where `rest` is left of `text`, or the end of the text if
that comes first.  The column is the number of bytes passed on the line. -/
def Place.ofRestBytes (text rest : List Char) (ahead : Nat) : Place :=
  let (left, part) := passBytes ahead rest
  let done := before text left
  ⟨lineAfter done, byteSize (lastLine done) + part⟩

end StatementPress.Text
