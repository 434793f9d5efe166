import ConfigAssist.Text.Basic

/-!
Template delimiters: a template is a value, a statement or a comment, and each kind has its own opener
and closer. Openers and closers of values and statements may carry a sign that trims the surroundings.
-/

namespace ConfigAssist.Template

inductive Delimiter where
  | value
  | statement
  | comment
deriving DecidableEq

namespace Delimiter

def name : Delimiter → String
  | value => "value"
  | statement => "statement"
  | comment => "comment"

def opener : Delimiter → Text
  | value => ['{', '{']
  | statement => ['{', '%']
  | comment => ['{', '#']

def closer : Delimiter → Text
  | value => ['}', '}']
  | statement => ['%', '}']
  | comment => ['#', '}']

/-- Comments take no sign. -/
def signed : Delimiter → Bool
  | value => true
  | statement => true
  | comment => false

def isSign (c : Char) : Bool := c == '-' || c == '+'

/-- The kind whose opener begins a text. -/
def opening? : Text → Option Delimiter
  | '{' :: '{' :: _ => some value
  | '{' :: '%' :: _ => some statement
  | '{' :: '#' :: _ => some comment
  | _ => none

/-- The number of characters of the opener at the beginning of a text, its sign included. -/
def openerLength (d : Delimiter) (text : Text) : Nat :=
  if d.signed && (text.drop 2).head?.any isSign then 3 else 2

/-- The number of characters of the closer at the beginning of a text, its sign included. -/
def closerLength? (d : Delimiter) (text : Text) : Option Nat :=
  if d.closer.isPrefixOf text then some 2
  else if d.signed && text.head?.any isSign && d.closer.isPrefixOf text.tail then some 3
  else none

end Delimiter

end ConfigAssist.Template
