/-!
Texts and their sizes. A text is a list of characters; its size depends on the unit it is counted in.
A column is the size of the text before it, so a column that falls inside a character is lowered to
the start of that character by `fit`.
-/

namespace ConfigAssist

abbrev Text := List Char

namespace Text

/-- Bytes of a character in UTF-8. -/
def utf8 (c : Char) : Nat := c.utf8Size

/-- Code units of a character in UTF-16: a character beyond the basic plane takes a surrogate pair. -/
def utf16 (c : Char) : Nat := if c.toNat < 0x10000 then 1 else 2

def size (unit : Char → Nat) : Text → Nat
  | [] => 0
  | c :: cs => unit c + size unit cs

/-- The longest beginning of a text that fits into a budget of units. -/
def fit (unit : Char → Nat) (budget : Nat) : Text → Text
  | [] => []
  | c :: cs => if unit c ≤ budget then c :: fit unit (budget - unit c) cs else []

@[simp] theorem size_nil (unit : Char → Nat) : size unit [] = 0 := rfl

@[simp] theorem size_cons (unit : Char → Nat) (c : Char) (cs : Text) :
    size unit (c :: cs) = unit c + size unit cs := rfl

@[simp] theorem size_append (unit : Char → Nat) (s t : Text) :
    size unit (s ++ t) = size unit s + size unit t := by
  induction s with
  | nil => simp
  | cons c cs ih => simp [ih, Nat.add_assoc]

theorem utf8_pos (c : Char) : 0 < utf8 c := c.utf8Size_pos

theorem utf16_pos (c : Char) : 0 < utf16 c := by
  unfold utf16; split <;> decide

theorem fit_prefix (unit : Char → Nat) (budget : Nat) (t : Text) : fit unit budget t <+: t := by
  induction t generalizing budget with
  | nil => exact List.nil_prefix
  | cons c cs ih =>
    unfold fit
    split
    · exact List.cons_prefix_cons.2 ⟨rfl, ih _⟩
    · exact List.nil_prefix

theorem size_fit_le (unit : Char → Nat) (budget : Nat) (t : Text) :
    size unit (fit unit budget t) ≤ budget := by
  induction t generalizing budget with
  | nil => simp [fit]
  | cons c cs ih =>
    unfold fit
    split
    · have := ih (budget - unit c)
      simp only [size_cons]
      omega
    · simp

/-- Whether a text stands at or before another one in the order of their code points. -/
def atMost : Text → Text → Bool
  | [], _ => true
  | _ :: _, [] => false
  | c :: cs, d :: ds => c.toNat < d.toNat || (c == d && atMost cs ds)

/-- The pieces of a text between the occurrences of a separator; there is always at least one. -/
def splitOn (separator : Char) : Text → List Text
  | [] => [[]]
  | c :: cs =>
    if c = separator then [] :: splitOn separator cs
    else (splitOn separator cs).modifyHead (c :: ·)

theorem splitOn_ne_nil (separator : Char) (t : Text) : splitOn separator t ≠ [] := by
  induction t with
  | nil => simp [splitOn]
  | cons c cs ih => simp only [splitOn]; split <;> simp [ih]

/-- A text is its pieces with the separator between them. -/
theorem intercalate_splitOn (separator : Char) (t : Text) :
    [separator].intercalate (splitOn separator t) = t := by
  induction t with
  | nil => simp [splitOn]
  | cons c cs ih =>
    obtain ⟨u, us, h⟩ := List.exists_cons_of_ne_nil (splitOn_ne_nil separator cs)
    simp only [splitOn]
    split
    · subst c
      rw [h] at ih ⊢
      simpa [List.intercalate_cons_cons] using ih
    · rw [h] at ih ⊢
      cases us <;> simp_all [List.intercalate_cons_cons]

end Text

end ConfigAssist
