import ConfigAssist.Text.Basic

/-!
Suggestions and the places in a document they apply to. Columns count the bytes of a line before them.
-/

namespace ConfigAssist

structure Position where
  line : Nat := 0
  column : Nat := 0
deriving DecidableEq

/-- A stretch of text from a position up to another. -/
structure Range where
  start : Position := {}
  stop : Position := {}
deriving DecidableEq

/-- What a suggestion stands for. -/
inductive Kind where
  | domain
  | key
  | value
  | trigger
  | condition
  | service
  | tag
  | platform
  | entity
  | snippet
deriving DecidableEq

def Kind.name : Kind → String
  | .domain => "domain"
  | .key => "key"
  | .value => "value"
  | .trigger => "trigger"
  | .condition => "condition"
  | .service => "service"
  | .tag => "tag"
  | .platform => "platform"
  | .entity => "entity"
  | .snippet => "snippet"

/-- A text that may be put in the place of a range. -/
structure Suggestion where
  insert : Text
  kind : Kind
  display : Text := insert
  description : Option Text := none
  detail : Option Text := none
  icon : Option Text := none
  range : Range := {}
deriving DecidableEq

/-- The number of suggestions in one answer. -/
def Suggestion.limit : Nat := 20

end ConfigAssist
