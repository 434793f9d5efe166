import ConfigAssist.Json.Value

/-!
Writing JSON, without space between the tokens. Of the characters of a text only quotes, backslashes
and control characters are escaped.
-/

namespace ConfigAssist.Json

def hexDigit (n : Nat) : Char := Nat.digitChar (n % 16)

/-- A character inside quotes. -/
def escape (c : Char) : Text :=
  if c = '"' then ['\\', '"']
  else if c = '\\' then ['\\', '\\']
  else if c = '\x08' then ['\\', 'b']
  else if c = '\t' then ['\\', 't']
  else if c = '\n' then ['\\', 'n']
  else if c = '\x0c' then ['\\', 'f']
  else if c = '\r' then ['\\', 'r']
  else if c.toNat < 0x20 then ['\\', 'u', '0', '0', hexDigit (c.toNat / 16), hexDigit c.toNat]
  else [c]

def quote (t : Text) : Text := '"' :: t.flatMap escape ++ ['"']

namespace Value

mutual

/-- A value as text. A string without text is written as an empty one. -/
def render : Value → Text
  | null => "null".toList
  | bool true => "true".toList
  | bool false => "false".toList
  | number lexeme => lexeme
  | string t => quote (t.getD [])
  | array [] => ['[', ']']
  | array (v :: vs) => '[' :: render v ++ renderItems vs
  | object [] => ['{', '}']
  | object ((name, v) :: members) => '{' :: quote (name.getD []) ++ ':' :: render v ++ renderMembers members

/-- The further items of an array and its end. -/
def renderItems : List Value → Text
  | [] => [']']
  | v :: vs => ',' :: render v ++ renderItems vs

/-- The further members of an object and its end. -/
def renderMembers : List (Option Text × Value) → Text
  | [] => ['}']
  | (name, v) :: members => ',' :: quote (name.getD []) ++ ':' :: render v ++ renderMembers members

end

end Value

end ConfigAssist.Json
