import ConfigAssist.Json.Value
import ConfigAssist.Text.Digit

/-!
Reading numbers. A whole number is read only if it is written as one. A store of double precision
numbers takes every number but those too large for it; it reads as many digits as fit into 64 bits and
counts the others, so the number it compares is the one with these digits and the exponent left.
-/

namespace ConfigAssist.Json

namespace Value

/-- The natural number up to a bound that is written as such. -/
def nat? (bound : Nat) : Value → Option Nat
  | number lexeme =>
    if lexeme.all Char.isDigit ∧ Text.decimalNat lexeme ≤ bound then some (Text.decimalNat lexeme)
    else none
  | _ => none

end Value

/-- A significand of 64 bits and a decimal exponent. -/
structure Decimal where
  significand : Nat := 0
  exponent : Int := 0
deriving DecidableEq

namespace Decimal

def capacity : Nat := UInt64.size

/-- The leading digits that fit behind those that were read, and the rest. -/
def absorb (significand : Nat) : Text → Nat × Text
  | [] => (significand, [])
  | c :: cs =>
    let next := 10 * significand + Text.digitValue c
    if next < capacity then absorb next cs else (significand, c :: cs)

/-- The decimal of a number as it is written, its sign left away. -/
def ofLexeme (lexeme : Text) : Decimal :=
  let unsigned := lexeme.dropWhile (· == '-')
  let whole := unsigned.takeWhile Char.isDigit
  let afterWhole := unsigned.dropWhile Char.isDigit
  let fraction := (afterWhole.dropWhile (· == '.')).takeWhile Char.isDigit
  let afterFraction := (afterWhole.dropWhile (· == '.')).dropWhile Char.isDigit
  let negative := (afterFraction.drop 1).head? = some '-'
  let power := Text.decimalNat (afterFraction.filter Char.isDigit)
  let (leading, unreadWhole) := absorb 0 whole
  let (significand, unreadFraction) := absorb leading fraction
  let shift : Int := unreadWhole.length - (fraction.length - unreadFraction.length : Nat)
  { significand, exponent := shift + if negative then -(power : Int) else power }

/-- The nearest number with 53 significant bits, of two the one with an even last bit. -/
def roundBits (n : Nat) : Nat :=
  let drop := n.log2 - 52
  let unit := 1 <<< drop
  let low := n / unit
  let rest := n % unit
  let up := unit < 2 * rest || (unit == 2 * rest && low % 2 == 1)
  (if up then low + 1 else low) * unit

/-- From here on a product rounds to infinity. -/
def overflow : Nat := (1 <<< 1024) - (1 <<< 970)

/-- Whether a decimal is beyond the range of double precision. Its significand and the power of ten
are rounded before they are multiplied. -/
def isHuge (d : Decimal) : Bool :=
  0 ≤ d.exponent && d.significand != 0 &&
    (308 < d.exponent || overflow ≤ roundBits d.significand * roundBits (Nat.pow 10 d.exponent.toNat))

end Decimal

namespace Value

mutual

/-- Whether a value can be stored with at most some levels of nesting: all its strings are texts, and
no number is too large. -/
def isStorable (levels : Nat) : Value → Bool
  | null => true
  | bool _ => true
  | number lexeme => !(Decimal.ofLexeme lexeme).isHuge
  | string t => t.isSome
  | array items => 0 < levels && areStorable (levels - 1) items
  | object members => 0 < levels && areMembersStorable (levels - 1) members

def areStorable (levels : Nat) : List Value → Bool
  | [] => true
  | v :: vs => isStorable levels v && areStorable levels vs

def areMembersStorable (levels : Nat) : List (Option Text × Value) → Bool
  | [] => true
  | (name, v) :: members => name.isSome && isStorable levels v && areMembersStorable levels members

end

end Value

end ConfigAssist.Json
