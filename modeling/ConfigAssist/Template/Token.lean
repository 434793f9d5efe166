import ConfigAssist.Color.Category
import ConfigAssist.Template.Delimiter

/-!
Tokens inside a template. A token is the longest stretch that one of the token forms describes; a
reserved word wins over an identifier of the same length, and a character that begins no token stands
alone.
-/

namespace ConfigAssist.Template

inductive Token where
  | space
  | keyword
  | constant
  | quoted
  | number
  | identifier
  | operator
  | unknown
deriving DecidableEq

namespace Token

def category : Token → Category
  | space => .plain
  | keyword => .keyword
  | constant => .literal
  | quoted => .literal
  | number => .literal
  | identifier => .identifier
  | operator => .operator
  | unknown => .plain

def keywords : List Text :=
  ["if", "elif", "else", "endif", "for", "endfor", "in", "is", "not", "and", "or", "set", "endset",
    "macro", "endmacro", "call", "endcall", "filter", "endfilter", "block", "endblock", "extends",
    "include", "import", "from", "as", "with", "endwith", "raw", "endraw", "recursive", "break",
    "continue", "do"].map String.toList

def constants : List Text :=
  ["true", "false", "none", "True", "False", "None"].map String.toList

/-- The operators, longer ones before the ones they begin with. -/
def operators : List Text :=
  ["==", "!=", "<=", ">=", "**", "//", "<", ">", "=", "+", "-", "*", "/", "%", "~", "|", ".", ",",
    ":", "(", ")", "[", "]", "\x7b", "\x7d"].map String.toList

def isSpace (c : Char) : Bool := c == ' ' || c == '\t' || c == '\r' || c == '\n'

def isWordStart (c : Char) : Bool := c.isAlpha || c == '_'

def isWordChar (c : Char) : Bool := c.isAlphanum || c == '_'

def isLineEnd (c : Char) : Bool := c == '\r' || c == '\n'

def ofWord (word : Text) : Token :=
  if keywords.contains word then keyword
  else if constants.contains word then constant
  else identifier

/-- The characters of a number after its first digit. A point belongs to it only before a digit. -/
def numberTail (cs : Text) : Nat :=
  let whole := (cs.takeWhile fun c => c.isDigit || c == '_').length
  match cs.drop whole with
  | '.' :: ds =>
    match (ds.takeWhile Char.isDigit).length with
    | 0 => whole
    | n + 1 => whole + 1 + (n + 1)
  | _ => whole

/-- The characters up to and with the quote that closes a literal, if it closes on this line. A
backslash takes the next character with it. -/
def closingQuote? (quote : Char) : Text → Option Nat
  | [] => none
  | '\\' :: [] => none
  | '\\' :: c :: cs => if isLineEnd c then none else (closingQuote? quote cs).map (· + 2)
  | c :: cs =>
    if c = quote then some 1
    else if isLineEnd c then none
    else (closingQuote? quote cs).map (· + 1)

/-- The token that begins with a character, and the number of its further characters. -/
def read (c : Char) (cs : Text) : Token × Nat :=
  if isSpace c then (space, (cs.takeWhile isSpace).length)
  else if isWordStart c then
    let more := cs.takeWhile isWordChar
    (ofWord (c :: more), more.length)
  else if c.isDigit then (number, numberTail cs)
  else if c = '"' ∨ c = '\'' then
    match closingQuote? c cs with
    | some n => (quoted, n)
    | none => (unknown, 0)
  else match operators.find? (·.isPrefixOf (c :: cs)) with
    | some op => (operator, op.length - 1)
    | none => (unknown, 0)

end Token

/-- The characters before the closer of a template comment, or all of them if it does not close. -/
def commentRun : Text → Nat
  | [] => 0
  | '#' :: '}' :: _ => 0
  | _ :: cs => commentRun cs + 1

/-- What stands inside an open template, away from its closer. -/
def Delimiter.readBody (d : Delimiter) (c : Char) (cs : Text) : Reading :=
  match d with
  | comment => { further := commentRun cs, category := .comment }
  | value | statement =>
    let (token, further) := Token.read c cs
    { further, category := token.category }

end ConfigAssist.Template
