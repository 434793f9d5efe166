import ConfigAssist.Toml.Quoted

/-!
Tokens of a table file. Comments leave no token; gaps do, because they separate header brackets, and
because a scalar may hold one.
-/

namespace ConfigAssist.Toml

inductive Token where
  /-- Spaces and tabs. -/
  | gap (t : Text)
  | lineEnd
  | equals
  | comma
  | dot
  | openBracket
  | closeBracket
  | openBrace
  | closeBrace
  /-- A run of characters that does not begin with a quote. -/
  | bare (t : Text)
  /-- A string; whether it is one over several lines decides where it may stand. -/
  | quoted (block : Bool) (t : Text)
deriving DecidableEq

namespace Token

def punctuation : List (Char × Token) :=
  [('=', equals), (',', comma), ('.', dot), ('[', openBracket), (']', closeBracket),
    ('{', openBrace), ('}', closeBrace)]

def isGap (c : Char) : Bool := c == ' ' || c == '\t'

def isLineEnd (c : Char) : Bool := c == '\n' || c == '\r'

/-- Quotes mean something only at the beginning of a run; control characters may stand in one. -/
def isBareChar (c : Char) : Bool :=
  !isGap c && !isLineEnd c && c != '#' && (punctuation.lookup c).isNone

/-- A string, and the number of its characters after the first quote. -/
def readQuoted (q : QuoteStyle) (cs : Text) : Option (Token × Nat) :=
  if [q.mark, q.mark].isPrefixOf cs then do
    let body := dropFirstLineEnd (cs.drop 2)
    let raw ← rawBlock q false body
    return (quoted true (← content? q raw), cs.length - body.length + raw.length + 3)
  else do
    let raw ← rawLine q false cs
    return (quoted false (← content? q raw), raw.length + 1)

/-- A comment, up to the end of its line. -/
def readComment (cs : Text) : Option (Option Token × Nat) :=
  let content := cs.takeWhile (!isLineEnd ·)
  if content.any isControl then none else some (none, content.length)

/-- The token that begins with a character, if it leaves one, and the number of its further
characters. -/
def read (c : Char) (cs : Text) : Option (Option Token × Nat) :=
  match punctuation.lookup c with
  | some token => some (some token, 0)
  | none =>
    if isGap c then
      let more := cs.takeWhile isGap
      some (some (gap (c :: more)), more.length)
    else if c = '\n' then some (some lineEnd, 0)
    else if c = '\r' then (if cs.head? = some '\n' then some (some lineEnd, 1) else none)
    else if c = '#' then readComment cs
    else if c = '"' then (readQuoted .basic cs).map fun (token, n) => (some token, n)
    else if c = '\'' then (readQuoted .literal cs).map fun (token, n) => (some token, n)
    else
      let more := cs.takeWhile isBareChar
      some (some (bare (c :: more)), more.length)

/-- The tokens of the rest of a text, of which the first characters are skipped. -/
def readAll : Nat → Text → Option (List Token)
  | _, [] => some []
  | skip + 1, _ :: cs => readAll skip cs
  | 0, c :: cs => do
    let (token, further) ← read c cs
    return token.toList ++ (← readAll further cs)

/-- The tokens of a text. A byte order mark at its start does not count. -/
def ofText? : Text → Option (List Token)
  | '\uFEFF' :: cs => readAll 0 cs
  | t => readAll 0 t

end Token

end ConfigAssist.Toml
