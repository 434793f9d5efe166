import ConfigAssist.Color.Line
import ConfigAssist.Json.Fields
import ConfigAssist.Json.Printer
import ConfigAssist.Json.Reader
import ConfigAssist.Text.Blank

/-!
States as JSON. A state that is written can be read back; a blank text, null and missing fields stand
for the state in which nothing is open.
-/

namespace ConfigAssist

open Json

/-- The largest number of 32 bits. -/
def bound32 : Nat := UInt32.size - 1

/-- The largest number of 64 bits. -/
def bound64 : Nat := UInt64.size - 1

namespace Yaml

def Quote.name : Quote → String
  | .single => "Single"
  | .double => "Double"

def Quote.cases : List (Text × Quote) := [.single, .double].map fun q => (q.name.toList, q)

def Scalars.toJson (s : Scalars) : Value := .record
  [("pending_block_scalar", .ofOption .ofNat s.announced),
    ("block_scalar", .ofOption .ofNat s.block),
    ("quote", .ofOption (fun q => .ofString q.name) s.quote)]

def Scalars.ofJson? (v : Value) : Option Scalars := do
  match ← v.fields? [["pending_block_scalar"], ["block_scalar"], ["quote"]] 0 with
  | [announced, block, quote] =>
    return { announced := ← Value.optional? (Value.nat? bound32) announced
             block := ← Value.optional? (Value.nat? bound32) block
             quote := ← Value.optional? (Value.case? Quote.cases) quote }
  | _ => none

end Yaml

namespace State

/-- The name of the language that a state is in. -/
def modeName : Option Template.Delimiter → String
  | none => "structural"
  | some .value => "expression_value"
  | some .statement => "expression_statement"
  | some .comment => "expression_comment"

def modeCases : List (Text × Option Template.Delimiter) :=
  [none, some .value, some .statement, some .comment].map fun m => ((modeName m).toList, m)

def toJson (s : State) : Value := .record
  [("structural", s.scalars.toJson), ("mode", .ofString (modeName s.template))]

def ofJson? (v : Value) : Option State := do
  match ← v.fields? [["structural"], ["mode"]] 0 with
  | [scalars, mode] =>
    return { scalars := ← Value.withDefault {} Yaml.Scalars.ofJson? scalars
             template := ← Value.withDefault none (Value.case? modeCases) mode }
  | _ => none

def toText (s : State) : Text := s.toJson.render

def ofText? (t : Text) : Option State :=
  if Text.isBlank t then some .initial
  else match Value.parse? t with
    | some .null => some .initial
    | some v => ofJson? v
    | none => none

end State

end ConfigAssist
