import ConfigAssist.Color.Line

/-!
Coloured documents under line edits. Every line keeps the state it was entered in, so an edit reads the
inserted lines and then only those later lines whose entry state has changed.
-/

namespace ConfigAssist

/-- A line with its colouring. -/
structure ColoredLine where
  text : Text
  entry : State
  spans : List Span
  exit : State
deriving DecidableEq

def ColoredLine.read (s : State) (text : Text) : ColoredLine :=
  let (spans, exit) := classify text s
  { text, entry := s, spans, exit }

structure Document where
  lines : List ColoredLine := []
deriving DecidableEq

namespace Document

def empty : Document := {}

def lineCount (d : Document) : Nat := d.lines.length

def texts (d : Document) : List Text := d.lines.map ColoredLine.text

/-- The state after the last of some lines. -/
def exitOf (s : State) (lines : List ColoredLine) : State :=
  (lines.getLast?.map ColoredLine.exit).getD s

/-- The state in which a line is entered; past the end, the state after the last line. -/
def stateBefore (d : Document) (line : Nat) : State := exitOf .initial (d.lines.take line)

/-- Consecutive lines, the first one entered in a given state. -/
def readLines (s : State) : List Text → List ColoredLine
  | [] => []
  | text :: rest =>
    let line := ColoredLine.read s text
    line :: readLines line.exit rest

/-- Lines brought up to date with the state they are now entered in, and how many were read again.
Reading stops at the first line that is entered in the state it was read in. -/
def refresh (s : State) : List ColoredLine → List ColoredLine × Nat
  | [] => ([], 0)
  | line :: rest =>
    if line.entry = s then (line :: rest, 0)
    else
      let fresh := ColoredLine.read s line.text
      let (lines, count) := refresh fresh.exit rest
      (fresh :: lines, count + 1)

/-- Replaces some lines by others. Also gives the number of lines that were read. A range that reaches
past the end is cut off there. -/
def edit (d : Document) (start removed : Nat) (inserted : List Text) : Document × Nat :=
  let kept := d.lines.take start
  let entry := d.stateBefore start
  let fresh := readLines entry inserted
  let (rest, count) := refresh (exitOf entry fresh) ((d.lines.drop start).drop removed)
  ({ lines := kept ++ fresh ++ rest }, inserted.length + count)

/-- The document of a text, cut at line feeds. -/
def ofText (text : Text) : Document := (empty.edit 0 0 (Text.splitOn '\n' text)).1

end Document

end ConfigAssist
