import ConfigAssist.Json.Value
import ConfigAssist.Text.Digit

/-!
Tokens of JSON texts.
-/

namespace ConfigAssist.Json

inductive Token where
  | openArray
  | closeArray
  | openObject
  | closeObject
  | comma
  | colon
  /-- A literal, a number or a string. -/
  | atom (v : Value)

namespace Token

def punctuation : List (Char × Token) :=
  [('[', openArray), (']', closeArray), ('{', openObject), ('}', closeObject), (',', comma),
    (':', colon)]

def literals : List (Text × Value) :=
  [("null".toList, .null), ("true".toList, .bool true), ("false".toList, .bool false)]

def isSpace (c : Char) : Bool := c == ' ' || c == '\t' || c == '\n' || c == '\r'

def digitsLength (t : Text) : Nat := (t.takeWhile Char.isDigit).length

/-- The whole part of a number: a zero, or digits that begin with another one. -/
def wholeLength? : Text → Option Nat
  | '0' :: _ => some 1
  | t => if digitsLength t = 0 then none else some (digitsLength t)

def fractionLength? : Text → Option Nat
  | '.' :: t => if digitsLength t = 0 then none else some (digitsLength t + 1)
  | _ => some 0

def exponentLength? : Text → Option Nat
  | [] => some 0
  | c :: t =>
    if c = 'e' ∨ c = 'E' then
      let sign := if t.head? = some '+' ∨ t.head? = some '-' then 1 else 0
      let digits := digitsLength (t.drop sign)
      if digits = 0 then none else some (1 + sign + digits)
    else some 0

/-- The length of the number at the beginning of a text. -/
def numberLength? (t : Text) : Option Nat := do
  let sign := if t.head? = some '-' then 1 else 0
  let whole := sign + (← wholeLength? (t.drop sign))
  let fraction := whole + (← fractionLength? (t.drop whole))
  return fraction + (← exponentLength? (t.drop fraction))

def shortEscape? : Char → Option Char
  | '"' => some '"'
  | '\\' => some '\\'
  | '/' => some '/'
  | 'b' => some '\x08'
  | 'f' => some '\x0c'
  | 'n' => some '\n'
  | 'r' => some '\r'
  | 't' => some '\t'
  | _ => none

/-- The code units of a string up to its closing quote, and the number of characters with that quote.
A character that is written as itself is one unit. -/
def units? : Text → Option (List Nat × Nat)
  | [] => none
  | '"' :: _ => some ([], 1)
  | '\\' :: 'u' :: a :: b :: c :: d :: cs => do
    let unit ← Text.hexNat? [a, b, c, d]
    let (units, n) ← units? cs
    return (unit :: units, n + 6)
  | '\\' :: c :: cs => do
    let e ← shortEscape? c
    let (units, n) ← units? cs
    return (e.toNat :: units, n + 2)
  | c :: cs =>
    if c = '\\' ∨ c.toNat < 0x20 then none
    else (units? cs).map fun (units, n) => (c.toNat :: units, n + 1)

def isHighSurrogate (n : Nat) : Bool := 0xD800 ≤ n && n ≤ 0xDBFF

def isLowSurrogate (n : Nat) : Bool := 0xDC00 ≤ n && n ≤ 0xDFFF

/-- The text of some code units; there is none if a surrogate stands alone. -/
def textOfUnits? : List Nat → Option Text
  | [] => some []
  | [n] => if isHighSurrogate n || isLowSurrogate n then none else some [Char.ofNat n]
  | n :: m :: rest =>
    if isHighSurrogate n && isLowSurrogate m then
      (textOfUnits? rest).map (Char.ofNat (0x10000 + 0x400 * (n - 0xD800) + (m - 0xDC00)) :: ·)
    else if isHighSurrogate n || isLowSurrogate n then none
    else (textOfUnits? (m :: rest)).map (Char.ofNat n :: ·)

/-- The atom at the beginning of a text, and its length. -/
def atom? (t : Text) : Option (Value × Nat) :=
  match t with
  | '"' :: cs => (units? cs).map fun (units, n) => (.string (textOfUnits? units), n + 1)
  | _ =>
    match literals.find? (·.1.isPrefixOf t) with
    | some (word, v) => some (v, word.length)
    | none => (numberLength? t).map fun n => (.number (t.take n), n)

/-- The token that begins with a character, unless that is a space, and the number of its further
characters. -/
def read (c : Char) (cs : Text) : Option (Option Token × Nat) :=
  if isSpace c then some (none, 0)
  else match punctuation.lookup c with
    | some token => some (some token, 0)
    | none => (atom? (c :: cs)).map fun (v, n) => (some (atom v), n - 1)

/-- The tokens of the rest of a text, of which the first characters are skipped. -/
def readAll : Nat → Text → Option (List Token)
  | _, [] => some []
  | skip + 1, _ :: cs => readAll skip cs
  | 0, c :: cs => do
    let (token, further) ← read c cs
    return token.toList ++ (← readAll further cs)

def ofText? (t : Text) : Option (List Token) := readAll 0 t

end Token

end ConfigAssist.Json
