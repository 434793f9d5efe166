import ConfigAssist.Text.Basic

/-!
JSON values. Numbers are kept as they are written. A string that names half of a surrogate pair holds no
text; it may stand in a value, but nothing can be read from it.
-/

namespace ConfigAssist.Json

inductive Value where
  | null
  | bool (b : Bool)
  | number (lexeme : Text)
  | string (t : Option Text)
  | array (items : List Value)
  | object (members : List (Option Text × Value))

namespace Value

def ofText (t : Text) : Value := string (some t)

def ofString (s : String) : Value := ofText s.toList

def ofNat (n : Nat) : Value := number (Nat.toDigits 10 n)

/-- Nothing is written as null. -/
def ofOption (f : α → Value) : Option α → Value
  | none => null
  | some a => f a

/-- An object with the given members. -/
def record (members : List (String × Value)) : Value :=
  object (members.map fun (name, v) => (some name.toList, v))

end Value

end ConfigAssist.Json
