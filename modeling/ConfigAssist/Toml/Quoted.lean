import ConfigAssist.Text.Digit

/-!
Quoted strings of a table file. The raw content reaches up to the closing quotes; in basic strings it
still holds escapes, which are resolved afterwards.
-/

namespace ConfigAssist.Toml

/-- Characters that may stand neither in strings nor in comments. Line ends are treated apart. -/
def isControl (c : Char) : Bool := (c.toNat < 0x20 && c != '\t') || c.toNat == 0x7F

/-- The two kinds of strings: literal ones hold what they say, basic ones have escapes. -/
inductive QuoteStyle where
  | literal
  | basic
deriving DecidableEq

namespace QuoteStyle

def mark : QuoteStyle → Char
  | literal => '\''
  | basic => '"'

/-- Whether a character takes the next one with it. -/
def escapes (q : QuoteStyle) (c : Char) : Bool := q == basic && c == '\\'

end QuoteStyle

/-- The raw content of a string on one line. -/
def rawLine (q : QuoteStyle) : Bool → Text → Option Text
  | _, [] => none
  | escaped, c :: cs =>
    if c = q.mark ∧ !escaped then some []
    else if isControl c then none
    else (rawLine q (q.escapes c && !escaped) cs).map (c :: ·)

/-- The raw content of a string over several lines. Up to two quotes may stand before the closing
three. -/
def rawBlock (q : QuoteStyle) : Bool → Text → Option Text
  | _, [] => none
  | escaped, c :: cs =>
    let quotes := if c = q.mark ∧ !escaped then ((c :: cs).takeWhile (· == q.mark)).length else 0
    if 5 < quotes then none
    else if 2 < quotes then some (List.replicate (quotes - 3) q.mark)
    else if isControl c ∧ c ≠ '\n' ∧ ¬(c = '\r' ∧ cs.head? = some '\n') then none
    else (rawBlock q (q.escapes c && !escaped) cs).map (c :: ·)

/-- A line end right after the opening quotes does not count. -/
def dropFirstLineEnd : Text → Text
  | '\n' :: cs => cs
  | '\r' :: '\n' :: cs => cs
  | t => t

/-- The character with a number in hexadecimal digits. -/
def hexChar? (digits : Text) : Option Char := do
  let n ← Text.hexNat? digits
  if n.isValidChar then some (Char.ofNat n) else none

def shortEscape? : Char → Option Char
  | 'b' => some '\x08'
  | 't' => some '\t'
  | 'n' => some '\n'
  | 'f' => some '\x0c'
  | 'r' => some '\r'
  | 'e' => some '\x1b'
  | '"' => some '"'
  | '\\' => some '\\'
  | _ => none

def isLayout (c : Char) : Bool := c == ' ' || c == '\t' || c == '\n' || c == '\r'

/-- Whether nothing but spaces and tabs stands before the end of the line. -/
def endsLine (t : Text) : Bool :=
  (t.dropWhile fun c => c == ' ' || c == '\t').head?.any fun c => c == '\n' || c == '\r'

/-- The content of a basic string. A backslash at the end of a line takes the line end and all layout
behind it away. -/
def unescape (joining : Bool) : Text → Option Text
  | [] => some []
  | '\\' :: 'x' :: a :: b :: cs => do
    return (← hexChar? [a, b]) :: (← unescape false cs)
  | '\\' :: 'u' :: a :: b :: c :: d :: cs => do
    return (← hexChar? [a, b, c, d]) :: (← unescape false cs)
  | '\\' :: 'U' :: a :: b :: c :: d :: e :: f :: g :: h :: cs => do
    return (← hexChar? [a, b, c, d, e, f, g, h]) :: (← unescape false cs)
  | '\\' :: c :: cs =>
    if endsLine (c :: cs) then unescape true (c :: cs)
    else do return (← shortEscape? c) :: (← unescape false cs)
  | c :: cs =>
    if joining && isLayout c then unescape true cs
    else if c = '\\' then none
    else (unescape false cs).map (c :: ·)

def content? (q : QuoteStyle) (raw : Text) : Option Text :=
  match q with
  | .literal => some raw
  | .basic => unescape false raw

end ConfigAssist.Toml
