import ConfigAssist.Text.Blank

/-!
Scalars that span several tokens. A quoted scalar may be interrupted by a template but ends with its
line; a block scalar is announced by a header, starts on the next line, and lasts while the lines are
blank or indented deeper than the header's line. Indentations are natural numbers of any size: only
the theorems on tiling, on colouring and completion over the wire and on columns tie what is counted
in a line to 32 bits.
-/

namespace ConfigAssist.Yaml

def isIndent (c : Char) : Bool := c == ' ' || c == '\t'

/-- The number of spaces and tabs a line starts with. -/
def indentation (line : Text) : Nat := (line.takeWhile isIndent).length

inductive Quote where
  | single
  | double
deriving DecidableEq

namespace Quote

def mark : Quote → Char
  | single => '\''
  | double => '"'

/-- Whether a character takes the next one with it: a backslash does, in double quotes. -/
def escapes (q : Quote) (c : Char) : Bool := q == double && c == '\\'

def ofMark? (c : Char) : Option Quote :=
  if c = '"' then some double else if c = '\'' then some single else none

end Quote

/-- The open scalars. Block scalars are known by the indentation of their header's line. -/
structure Scalars where
  /-- A header on this line; its block starts on the next. -/
  announced : Option Nat := none
  block : Option Nat := none
  quote : Option Quote := none
deriving DecidableEq

namespace Scalars

/-- A line belongs to the block scalar of a header if it is blank or indented deeper. -/
def continues (header : Nat) (line : Text) : Bool :=
  Text.isBlank line || header < indentation line

/-- The open scalars at the start of a line. -/
def enter (s : Scalars) (line : Text) : Scalars where
  block := (s.announced <|> s.block).filter (continues · line)

end Scalars

end ConfigAssist.Yaml
