import ConfigAssist.Text.Basic

/-!
Entities and the registry of those that are known. A registry holds, of the records it is given, the
first one for every well-formed id.
-/

namespace ConfigAssist

structure Entity where
  id : Text
  displayName : Option Text := none
  icon : Option Text := none
deriving DecidableEq

namespace Entity

def isIdChar (c : Char) : Bool := c.isLower || c.isDigit || c == '_'

/-- A well-formed id is a domain and an object with a point between them. -/
def isId (id : Text) : Bool :=
  match id.dropWhile (· != '.') with
  | '.' :: object =>
    let domain := id.takeWhile (· != '.')
    !domain.isEmpty && domain.all isIdChar && !object.isEmpty && object.all isIdChar
  | _ => false

/-- The records without those whose id occurred before. -/
def firsts : List Entity → List Entity
  | [] => []
  | e :: es => e :: (firsts es).filter (·.id != e.id)

end Entity

/-- The known entities. -/
structure Registry where
  entities : List Entity := []
deriving DecidableEq

namespace Registry

def empty : Registry := {}

def ofRecords (records : List Entity) : Registry where
  entities := Entity.firsts (records.filter fun e => Entity.isId e.id)

def size (r : Registry) : Nat := r.entities.length

def isEmpty (r : Registry) : Bool := r.entities.isEmpty

end Registry

end ConfigAssist
