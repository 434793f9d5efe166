import ConfigAssist.Text.Basic

/-!
White space in the sense of the Unicode property White_Space, and trimming by it. Blankness of a line
is decided by this property; indentation is not, it counts spaces and tabs only.
-/

namespace ConfigAssist.Text

/-- The characters with the property White_Space. -/
def isSpace (c : Char) : Bool :=
  let n := c.toNat
  (0x9 ≤ n && n ≤ 0xD) || n == 0x20 || n == 0x85 || n == 0xA0 || n == 0x1680
    || (0x2000 ≤ n && n ≤ 0x200A) || n == 0x2028 || n == 0x2029 || n == 0x202F || n == 0x205F
    || n == 0x3000

def isBlank (t : Text) : Bool := t.all isSpace

def trimStart (t : Text) : Text := t.dropWhile isSpace

/-- A text without the characters of a class at its end. -/
def trimEndWith (p : Char → Bool) (t : Text) : Text := (t.reverse.dropWhile p).reverse

def trimEnd (t : Text) : Text := trimEndWith isSpace t

def trim (t : Text) : Text := trimEnd (trimStart t)

end ConfigAssist.Text
