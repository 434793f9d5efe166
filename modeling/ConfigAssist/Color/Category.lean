import ConfigAssist.Text.Basic

/-!
What a stretch of a line is: its category, and for keys and tags that have a meaning of their own a
marker. A reading is what a scanner reports about the stretch it stands at.
-/

namespace ConfigAssist

inductive Category where
  | comment
  | key
  | tag
  | delimiter
  | keyword
  | literal
  | identifier
  | operator
  | plain
deriving DecidableEq

def Category.name : Category → String
  | .comment => "comment"
  | .key => "structural-key"
  | .tag => "structural-tag"
  | .delimiter => "expression-delimiter"
  | .keyword => "expression-keyword"
  | .literal => "expression-literal"
  | .identifier => "expression-identifier"
  | .operator => "expression-operator"
  | .plain => "plain"

/-- The meaning of a key or a tag: a top-level domain, a control key, or one of the escape tags. -/
inductive Marker where
  | domain
  | control
  | includes
  | secret
  | envVar
  | input
deriving DecidableEq

def Marker.name : Marker → String
  | .domain => "domain"
  | .control => "control"
  | .includes => "include"
  | .secret => "secret"
  | .envVar => "env-var"
  | .input => "input"

/-- A stretch of text that begins with a given character: how many further characters it has, and
what it is. It is never empty, because it has its first character. -/
structure Reading where
  further : Nat
  category : Category := .plain
  marker : Option Marker := none
deriving DecidableEq

def Reading.plain (further : Nat) : Reading := { further }

end ConfigAssist
