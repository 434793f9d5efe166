import ConfigAssist.Text.Search
import ConfigAssist.Yaml.Scalar

/-!
The scope of a line, read off the indentation of the lines above it. Its ancestors are the lines above
that are not blank and indented less than it and than every line between; what it is inside of is
decided by the markers that its ancestors hold. A marker is a known name as a whole word before a colon.
-/

namespace ConfigAssist

inductive Section where
  | automation
  | script
  | sensor
  | binarySensor
deriving DecidableEq

def Section.name : Section → String
  | .automation => "automation"
  | .script => "script"
  | .sensor => "sensor"
  | .binarySensor => "binary_sensor"

/-- The parts of a section that have candidates of their own. -/
inductive Part where
  | trigger
  | condition
  | action
  | platform
deriving DecidableEq

structure Scope where
  indent : Nat := 0
  enclosing : Option Section := none
  inTrigger : Bool := false
  inCondition : Bool := false
  inAction : Bool := false
  inPlatform : Bool := false
deriving DecidableEq

namespace Scope

def sectionNames : List (Text × Section) :=
  [("automation".toList, .automation), ("script".toList, .script), ("sensor".toList, .sensor),
    ("binary_sensor".toList, .binarySensor)]

def partNames : List (Text × Part) :=
  [("trigger".toList, .trigger), ("triggers".toList, .trigger), ("condition".toList, .condition),
    ("conditions".toList, .condition), ("action".toList, .action), ("actions".toList, .action),
    ("platform".toList, .platform)]

def isWordChar (c : Char) : Bool := c.isAlphanum || c == '_'

/-- The names that stand at the beginning of a text with a colon behind them. -/
def namesAt (names : List (Text × α)) (t : Text) : List α :=
  (names.filter fun (name, _) => Text.startsWith (name ++ [':']) t).map Prod.snd

/-- The markers in the rest of a line, from left to right. -/
def markersAfter (names : List (Text × α)) (previous : Option Char) : Text → List α
  | [] => []
  | c :: cs =>
    let here := if previous.any isWordChar then [] else namesAt names (c :: cs)
    here ++ markersAfter names (some c) cs

def markers (names : List (Text × α)) (line : Text) : List α := markersAfter names none line

/-- The ancestors of a line with some indentation among the lines above it, given upwards. -/
def ancestors (indent : Nat) : List Text → List Text
  | [] => []
  | line :: above =>
    if Text.isBlank line || indent ≤ Yaml.indentation line then ancestors indent above
    else line :: ancestors (Yaml.indentation line) above

/-- The scope below some ancestors, the nearest one first. The nearest ancestor with a section marker
decides the section, and of several on one line the last one. -/
def below (indent : Nat) (ancestors : List Text) : Scope :=
  let within (part : Part) : Bool := ancestors.any fun line => (markers partNames line).contains part
  { indent
    enclosing := ancestors.findSome? fun line => (markers sectionNames line).getLast?
    inTrigger := within .trigger
    inCondition := within .condition
    inAction := within .action
    inPlatform := within .platform }

/-- The scope of a line of a document; past its end there is none. -/
def ofLine (lines : List Text) (target : Nat) : Scope :=
  match lines[target]? with
  | none => {}
  | some line =>
    let indent := Yaml.indentation line
    below indent (ancestors indent (lines.take target).reverse)

end Scope

end ConfigAssist
