import ConfigAssist.Session.StateText
import ConfigAssist.Suggest.Entity

/-!
Requests for completion and lists of entities, as JSON.
-/

namespace ConfigAssist

open Json

/-- A document, a position in it with its column in UTF-16 units, and the place of the request in a
sequence. -/
structure Request where
  text : Text
  line : Nat
  character : Nat
  sequence : Option Nat := none
deriving DecidableEq

namespace Request

/-- A line and a column. -/
def position? (v : Value) : Option (Nat × Nat) := do
  match ← v.fields? [["line"], ["character"]] 2 with
  | [line, character] =>
    return (← Value.required (Value.nat? bound32) line, ← Value.required (Value.nat? bound32) character)
  | _ => none

def ofJson? (v : Value) : Option Request := do
  match ← v.fields? [["text"], ["position"], ["sequence"]] 3 with
  | [text, position, sequence] =>
    let (line, character) ← Value.required position? position
    return { text := ← Value.required Value.text? text, line, character
             sequence := ← Value.optional? (Value.nat? bound64) sequence }
  | _ => none

def ofText? (t : Text) : Option Request := Value.parse? t >>= ofJson?

end Request

namespace Entity

def ofJson? (v : Value) : Option Entity := do
  match ← v.fields? [["id", "entity_id"], ["display_name", "friendly_name"], ["icon"]] 1 with
  | [id, displayName, icon] =>
    return { id := ← Value.required Value.text? id
             displayName := ← Value.optional? Value.text? displayName
             icon := ← Value.optional? Value.text? icon }
  | _ => none

/-- A list of entities, or an object that holds one. -/
def listOfJson? : Value → Option (List Entity)
  | .array items => items.mapM ofJson?
  | .object members => do
    match ← Value.fields? [["entities"]] 1 (.object members) with
    | [some (.array items)] => items.mapM ofJson?
    | _ => none
  | _ => none

/-- The levels of nesting in a list of entities. -/
def nestingLimit : Nat := 127

/-- Entities are stored before they are read, with the parts of them that do not count. -/
def listOfText? (t : Text) : Option (List Entity) := do
  let v ← Value.parse? t
  if v.isStorable nestingLimit then listOfJson? v else none

end Entity

end ConfigAssist
