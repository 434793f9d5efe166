import ConfigAssist.Yaml.Scalar
import ConfigAssist.Yaml.Vocabulary

/-!
Tokens outside templates. Only what colouring needs is told apart: keys, comments, tags and scalars;
everything else is plain. The caller looks for template openers first, so runs of scalar text stop
before every brace but their first character.
-/

namespace ConfigAssist.Yaml

/-- Where a scanner stands on a line: the indentation of the line, the bytes before the place, and
the character right before it. -/
structure Place where
  indent : Nat
  offset : Nat := 0
  previous : Option Char := none

namespace Place

def start (line : Text) : Place where
  indent := indentation line

def advance (p : Place) (passed : Text) : Place where
  indent := p.indent
  offset := p.offset + Text.size Text.utf8 passed
  previous := passed.getLast?.or p.previous

end Place

def isWordStart (c : Char) : Bool := c.isAlphanum || c == '_'

def isWordChar (c : Char) : Bool := c.isAlphanum || c == '_' || c == '-' || c == '.' || c == '/'

def isNameChar (c : Char) : Bool := c.isAlphanum || c == '_' || c == '-'

def isTagChar (c : Char) : Bool := c == '!' || isNameChar c

/-- A quote opens a scalar at the start of a line and after these characters. -/
def opensScalar (c : Char) : Bool := isIndent c || c == '[' || c == '{' || c == ','

/-- Block scalar text: up to the next brace. -/
def blockRun (cs : Text) : Nat := (cs.takeWhile (· != '{')).length

/-- Quoted text: up to the closing mark or the next brace, except where they are escaped. -/
def quotedRun (q : Quote) : Bool → Text → Nat
  | _, [] => 0
  | true, _ :: cs => quotedRun q false cs + 1
  | false, c :: cs =>
    if c = q.mark ∨ c = '{' then 0 else quotedRun q (q.escapes c) cs + 1

/-- The indicators after the first character of a block scalar header. -/
def headerTail (cs : Text) : Nat :=
  let sign := if cs.head?.any fun c => c == '+' || c == '-' then 1 else 0
  let depth := if (cs.drop sign).head?.any Char.isDigit then 1 else 0
  sign + depth

/-- A header announces a block only if nothing but a comment follows it. -/
def endsHeader (rest : Text) : Bool := (Text.trimStart rest).head?.all (· == '#')

/-- A colon makes a key of the word before it at the end of a line and before spaces and tabs. -/
def closesKey : Text → Bool
  | ':' :: rest => rest.head?.all isIndent
  | _ => false

def readQuoted (s : Scalars) (q : Quote) (c : Char) (cs : Text) : Reading × Scalars :=
  if c = q.mark then
    if q = .single ∧ cs.head? = some q.mark then (.plain 1, s)
    else (.plain 0, { s with quote := none })
  else (.plain (quotedRun q (q.escapes c) cs), s)

def readWord (p : Place) (c : Char) (cs : Text) : Reading :=
  let more := cs.takeWhile isWordChar
  if closesKey (cs.dropWhile isWordChar) then
    { further := more.length + 1
      category := .key
      marker := keyMarker (p.offset == p.indent) (c :: more) }
  else .plain more.length

def readTag (c : Char) (cs : Text) : Reading :=
  let more := cs.takeWhile isTagChar
  let marker := tagMarker (c :: more)
  { further := more.length, category := if marker.isSome then .tag else .plain, marker }

/-- A reading outside scalars. -/
def readOpen (p : Place) (s : Scalars) (c : Char) (cs : Text) : Reading × Scalars :=
  if isIndent c then (.plain (cs.takeWhile isIndent).length, s)
  else if isWordStart c then (readWord p c cs, s)
  else match c with
    | '#' =>
      if p.previous.all isIndent then
        ({ further := (cs.takeWhile fun c => c != '\r' && c != '\n').length, category := .comment }, s)
      else (.plain 0, s)
    | '!' => (readTag c cs, s)
    | '&' | '*' => (.plain (cs.takeWhile isNameChar).length, s)
    | '"' | '\'' =>
      (.plain 0, if p.previous.all opensScalar then { s with quote := Quote.ofMark? c } else s)
    | '|' | '>' =>
      let more := headerTail cs
      (.plain more, if endsHeader (cs.drop more) then { s with announced := some p.indent } else s)
    | _ => (.plain 0, s)

/-- What stands at a place outside templates, and the scalars open after it. -/
def read (p : Place) (s : Scalars) (c : Char) (cs : Text) : Reading × Scalars :=
  if s.block.isSome then (.plain (blockRun cs), s)
  else match s.quote with
    | some q => readQuoted s q c cs
    | none => readOpen p s c cs

end ConfigAssist.Yaml
