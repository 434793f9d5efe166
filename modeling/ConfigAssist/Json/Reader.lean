import ConfigAssist.Json.Token

/-!
Reading JSON. The reader goes through the tokens once, with a stack for the arrays and objects that are
still open, so values may be nested to any depth.
-/

namespace ConfigAssist.Json

/-- An array or object that is still open, its finished parts backwards. -/
inductive Frame where
  | array (items : List Value)
  /-- An object, and the name of the member that is being read. -/
  | object (members : List (Option Text × Value)) (name : Option Text)

/-- What may come next. -/
inductive Focus where
  | value
  /-- An item or the end of an empty array. -/
  | firstItem
  /-- A name or the end of an empty object. -/
  | firstName
  | name
  | colon
  /-- A value has ended. -/
  | done (v : Value)

structure Reader where
  stack : List Frame := []
  focus : Focus := .value

namespace Reader

def beginValue (r : Reader) : Token → Option Reader
  | .atom v => some { r with focus := .done v }
  | .openArray => some { stack := .array [] :: r.stack, focus := .firstItem }
  | .openObject => some { stack := .object [] none :: r.stack, focus := .firstName }
  | _ => none

def beginMember (r : Reader) : Token → Option Reader
  | .atom (.string name) =>
    match r.stack with
    | .object members _ :: rest => some { stack := .object members name :: rest, focus := .colon }
    | _ => none
  | _ => none

def step (r : Reader) (token : Token) : Option Reader :=
  match r.focus, token, r.stack with
  | .value, _, _ => r.beginValue token
  | .firstItem, .closeArray, .array items :: rest =>
    some { stack := rest, focus := .done (.array items.reverse) }
  | .firstItem, _, _ => r.beginValue token
  | .firstName, .closeObject, .object members _ :: rest =>
    some { stack := rest, focus := .done (.object members.reverse) }
  | .firstName, _, _ => r.beginMember token
  | .name, _, _ => r.beginMember token
  | .colon, .colon, _ => some { r with focus := .value }
  | .done v, .comma, .array items :: rest =>
    some { stack := .array (v :: items) :: rest, focus := .value }
  | .done v, .closeArray, .array items :: rest =>
    some { stack := rest, focus := .done (.array (v :: items).reverse) }
  | .done v, .comma, .object members name :: rest =>
    some { stack := .object ((name, v) :: members) none :: rest, focus := .name }
  | .done v, .closeObject, .object members name :: rest =>
    some { stack := rest, focus := .done (.object ((name, v) :: members).reverse) }
  | _, _, _ => none

/-- The value that was read, if nothing is open. -/
def result? (r : Reader) : Option Value :=
  match r.focus, r.stack with
  | .done v, [] => some v
  | _, _ => none

end Reader

/-- The value of a JSON text. -/
def Value.parse? (t : Text) : Option Value := do
  let tokens ← Token.ofText? t
  (← tokens.foldlM Reader.step {}).result?

end ConfigAssist.Json
