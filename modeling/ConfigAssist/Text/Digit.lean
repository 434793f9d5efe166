import ConfigAssist.Text.Basic

/-!
Digits and the numbers they stand for.
-/

namespace ConfigAssist.Text

def hexValue? (c : Char) : Option Nat :=
  if c.isDigit then some (c.toNat - '0'.toNat)
  else if 'a' ≤ c ∧ c ≤ 'f' then some (c.toNat - 'a'.toNat + 10)
  else if 'A' ≤ c ∧ c ≤ 'F' then some (c.toNat - 'A'.toNat + 10)
  else none

/-- The number in hexadecimal digits. -/
def hexNat? (t : Text) : Option Nat :=
  t.foldlM (fun n c => (hexValue? c).map (16 * n + ·)) 0

def digitValue (c : Char) : Nat := c.toNat - '0'.toNat

/-- The number in decimal digits. -/
def decimalNat (t : Text) : Nat := t.foldl (fun n c => 10 * n + digitValue c) 0

end ConfigAssist.Text
