import ConfigAssist.Text.Digit

/-!
Scalars that are written without quotes: booleans, integers, floats, dates and times. Only their form
is checked, and for dates and times that they exist. An integer with underscores is known by how it
begins; of the rest only the characters beside the underscores count.
-/

namespace ConfigAssist.Toml

def isSign (c : Char) : Bool := c == '+' || c == '-'

def dropSign (t : Text) : Text := if t.head?.any isSign then t.tail else t

def isHexDigit (c : Char) : Bool := c.isDigit || ('a' ≤ c && c ≤ 'f') || ('A' ≤ c && c ≤ 'F')

/-- Whether every underscore stands between two digits. -/
def isGrouped (isDigit : Char → Bool) (t : Text) : Bool :=
  let parts := Text.splitOn '_' t
  parts.dropLast.all (·.getLast?.any isDigit) && parts.tail.all (·.head?.any isDigit)

/-- A run of digits, with or without underscores. It may be one zero, but begin with one only where
that is allowed. -/
def isRun (zeros : Bool) (t : Text) : Bool :=
  let digits := t.filter Char.isDigit
  t.all (fun c => c.isDigit || c == '_') && !digits.isEmpty
    && (zeros || t.head? != some '0' || digits.length == 1)

/-- The digits of a number after the letter of its base. There may be none. -/
def isRadixed (isDigit : Char → Bool) (t : Text) : Bool :=
  t.all (fun c => isDigit c || c == '_') && isGrouped isDigit t

/-- A decimal integer, of which the rest from the first underscore on does not look like a float. -/
def isDecimal (t : Text) : Bool :=
  let unsigned := dropSign t
  let restOk := match unsigned.dropWhile Char.isDigit with
    | [] => !unsigned.isEmpty
    | '_' :: rest =>
      isGrouped isHexDigit t && rest.all fun c => c != ' ' && c != '.' && c != 'e' && c != 'E'
    | _ => false
  (unsigned == ['0'] || unsigned.head? != some '0') && restOk

def isInteger : Text → Bool
  | '0' :: 'x' :: cs => isRadixed isHexDigit cs
  | '0' :: 'o' :: cs => isRadixed (fun c => '0' ≤ c && c ≤ '7') cs
  | '0' :: 'b' :: cs => isRadixed (fun c => c == '0' || c == '1') cs
  | t => isDecimal t

/-- A fraction, an exponent, or both in this order. -/
def isFloatTail (t : Text) : Bool :=
  let (fraction, exponent) := t.span (fun c => c != 'e' && c != 'E')
  let fractionOk := match fraction with
    | [] => !exponent.isEmpty
    | '.' :: digits => isRun true digits
    | _ => false
  let exponentOk := match exponent with
    | [] => true
    | _ :: digits => isRun true (dropSign digits)
  fractionOk && exponentOk

def isFloat (t : Text) : Bool :=
  let unsigned := dropSign t
  let (whole, tail) := unsigned.span (fun c => c != '.' && c != 'e' && c != 'E')
  unsigned == "inf".toList || unsigned == "nan".toList
    || (isRun false whole && isFloatTail tail && isGrouped Char.isDigit t)

/-- The value of some digits, if there are exactly so many. -/
def digits? (count : Nat) (t : Text) : Option Nat :=
  if t.length = count ∧ t.all Char.isDigit then some (Text.decimalNat t) else none

def monthLength (year month : Nat) : Nat :=
  if month = 2 then
    if year % 4 = 0 ∧ (year % 100 ≠ 0 ∨ year % 400 = 0) then 29 else 28
  else if month = 4 ∨ month = 6 ∨ month = 9 ∨ month = 11 then 30
  else 31

def isDate (t : Text) : Bool :=
  match digits? 4 (t.take 4), t.drop 4 |>.take 1, digits? 2 (t.drop 5 |>.take 2),
      t.drop 7 |>.take 1, digits? 2 (t.drop 8) with
  | some y, ['-'], some m, ['-'], some d => 1 ≤ m && m ≤ 12 && 1 ≤ d && d ≤ monthLength y m
  | _, _, _, _, _ => false

/-- Hours and minutes of a day. -/
def isClock (t : Text) : Bool :=
  match digits? 2 (t.take 2), t.drop 2 |>.take 1, digits? 2 (t.drop 3) with
  | some h, [':'], some m => h ≤ 23 && m ≤ 59
  | _, _, _ => false

/-- Nothing, or seconds with or without a fraction. A minute may have a leap second. -/
def isSeconds : Text → Bool
  | [] => true
  | ':' :: t =>
    let fractionOk := match t.drop 2 with
      | [] => true
      | '.' :: digits => !digits.isEmpty && digits.all Char.isDigit
      | _ => false
    (digits? 2 (t.take 2)).any (· ≤ 60) && fractionOk
  | _ => false

def isTime (t : Text) : Bool := isClock (t.take 5) && isSeconds (t.drop 5)

/-- A time with or without its distance from universal time. -/
def isZonedTime (t : Text) : Bool :=
  let (time, zone) := t.span (fun c => c.isDigit || c == ':' || c == '.')
  let zoneOk := match zone with
    | [] => true
    | ['Z'] | ['z'] => true
    | c :: clock => isSign c && isClock clock
  isTime time && zoneOk

def isDateTime (t : Text) : Bool :=
  isTime t || (isDate (t.take 10) && match t.drop 10 with
    | [] => true
    | c :: time => (c == 'T' || c == 't' || c == ' ') && isZonedTime time)

def isScalar (t : Text) : Bool :=
  t == "true".toList || t == "false".toList || isInteger t || isFloat t || isDateTime t

end ConfigAssist.Toml
