import ConfigAssist.Text.Basic
import ConfigAssist.Text.CaseTable

/-!
Lower case of whole texts. Characters are mapped one by one, with two exceptions: the dotted capital I
becomes two characters, and a capital sigma at the end of a word becomes a final sigma. A sigma ends a
word if a cased letter stands before it and none after it, looking past the ignorable characters.
-/

namespace ConfigAssist.Text

/-- Whether a code point is in a table of ranges in ascending order. -/
def inRows (rows : List (Nat × Nat)) (n : Nat) : Bool :=
  (rows.find? (n ≤ ·.2)).any (·.1 ≤ n)

def isCased (c : Char) : Bool := inRows casedRows c.toNat

def isCaseIgnorable (c : Char) : Bool := inRows ignorableRows c.toNat

/-- The lower case of a character away from its neighbours. -/
def lowerChar (c : Char) : Text :=
  if c.toNat = 0x130 then ['i', '\u0307']
  else match lowerRows.find? (c.toNat ≤ ·.last) with
    | some row =>
      if row.first ≤ c.toNat ∧ (c.toNat - row.first) % row.step = 0 then
        [Char.ofNat (row.image + (c.toNat - row.first))]
      else [c]
    | none => [c]

/-- Whether the first character that is not ignorable is a cased letter. -/
def leadsCased (t : Text) : Bool := (t.dropWhile isCaseIgnorable).head?.any isCased

/-- The lower case of the rest of a text. The text before it is given backwards. -/
def lowerAfter (before : Text) : Text → Text
  | [] => []
  | c :: cs =>
    let image :=
      if c = 'Σ' then [if leadsCased before && !leadsCased cs then 'ς' else 'σ'] else lowerChar c
    image ++ lowerAfter (c :: before) cs

def lower (t : Text) : Text := lowerAfter [] t

end ConfigAssist.Text
