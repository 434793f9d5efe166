import ConfigAssist.Json.Number

/-!
Reading values of a fixed shape. A record is an object, or an array of its fields in order; unknown
members of an object do not count, but a known one must not be given twice. A case without contents is
its name, or an object with the name and null.
-/

namespace ConfigAssist.Json.Value

def text? : Value → Option Text
  | string t => t
  | _ => none

/-- The values of the members with one of some names; more than one is an error. -/
def member? (names : List String) (members : List (Option Text × Value)) : Option (Option Value) :=
  match members.filter fun (name, _) => names.any fun n => name == some n.toList with
  | [] => some none
  | [(_, v)] => some (some v)
  | _ => none

/-- The fields of a record, each known by its names. As an array it may end early, but not before some
number of fields. -/
def fields? (names : List (List String)) (least : Nat) : Value → Option (List (Option Value))
  | array items =>
    if least ≤ items.length ∧ items.length ≤ names.length then
      some (items.map some ++ List.replicate (names.length - items.length) none)
    else none
  | object members =>
    if members.all (·.1.isSome) then names.mapM (member? · members) else none
  | _ => none

/-- A field that may be null or left out. -/
def optional? (read : Value → Option α) : Option Value → Option (Option α)
  | none => some none
  | some null => some none
  | some v => (read v).map some

/-- A field with a default for when it is left out. -/
def withDefault (default : α) (read : Value → Option α) : Option Value → Option α
  | none => some default
  | some v => read v

/-- A field that must not be left out. -/
def required (read : Value → Option α) (field : Option Value) : Option α := field >>= read

/-- The case with a name. -/
def case? (cases : List (Text × α)) : Value → Option α
  | string (some name) => cases.lookup name
  | object [(some name, null)] => cases.lookup name
  | _ => none

end ConfigAssist.Json.Value
