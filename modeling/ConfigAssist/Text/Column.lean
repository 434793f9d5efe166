import ConfigAssist.Text.Basic

/-!
Columns in bytes and in UTF-16 units. A column is the size of the text before it, so to change units is
to measure that text again. A UTF-16 column inside a surrogate pair is lowered to the start of the
character, and one past the end of the line to its end.
-/

namespace ConfigAssist.Text

/-- The byte column of a column in UTF-16 units. -/
def byteColumn (line : Text) (character : Nat) : Nat := size utf8 (fit utf16 character line)

/-- The column in UTF-16 units of a byte column: the size of the characters that begin before it. -/
def unitColumn : Text → Nat → Nat
  | [], _ => 0
  | c :: cs, column => if column = 0 then 0 else utf16 c + unitColumn cs (column - utf8 c)

/-- The lines of a document. A carriage return before a line feed or at the end belongs to no line. -/
def lines (t : Text) : List Text :=
  (splitOn '\n' t).map fun line => if line.getLast? = some '\r' then line.dropLast else line

end ConfigAssist.Text
