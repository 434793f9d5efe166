import ConfigAssist.Json.Number
import ConfigAssist.Json.Printer
import ConfigAssist.Json.Token
import ConfigAssist.Proofs.Text.Run

/-! Tokens of JSON that was written. A text in quotes is read as it was, and the digits
of a number are read to their end, unless what follows could go on with the number. -/

namespace ConfigAssist.Json

/-- How a character is written inside quotes. -/
inductive Escaped (c : Char) : Text → Prop
  | short {e : Char} (hunicode : e ≠ 'u') (he : Token.shortEscape? e = some c) : Escaped c ['\\', e]
  | control (hlow : c.toNat < 0x20) :
      Escaped c ['\\', 'u', '0', '0', hexDigit (c.toNat / 16), hexDigit c.toNat]
  | itself (hquote : c ≠ '"') (hback : c ≠ '\\') (hlow : ¬ c.toNat < 0x20) : Escaped c [c]

theorem escaped_escape (c : Char) : Escaped c (escape c) := by
  unfold escape
  split
  · rename_i hquote
    exact .short (by decide) (by rw [hquote]; rfl)
  · rename_i hquote
    split
    · rename_i hback
      exact .short (by decide) (by rw [hback]; rfl)
    · rename_i hback
      split
      · rename_i hc
        exact .short (by decide) (by rw [hc]; rfl)
      split
      · rename_i hc
        exact .short (by decide) (by rw [hc]; rfl)
      split
      · rename_i hc
        exact .short (by decide) (by rw [hc]; rfl)
      split
      · rename_i hc
        exact .short (by decide) (by rw [hc]; rfl)
      split
      · rename_i hc
        exact .short (by decide) (by rw [hc]; rfl)
      split
      · rename_i hlow
        exact .control hlow
      · rename_i hlow
        exact .itself hquote hback hlow

theorem hexNat?_hexDigit {n : Nat} (h : n < 0x20) :
    Text.hexNat? ['0', '0', hexDigit (n / 16), hexDigit n] = some n := by
  decide +revert

namespace Token

theorem units?_append_of_escaped {c : Char} {written : Text} (h : Escaped c written) (rest : Text) :
    units? (written ++ rest) =
      (units? rest).map fun (units, n) => (c.toNat :: units, n + written.length) := by
  cases h with
  | short hunicode he => cases hrest : units? rest <;> simp [units?, hunicode, he, hrest]
  | control hlow => cases hrest : units? rest <;> simp [units?, hexNat?_hexDigit hlow, hrest]
  | itself hquote hback hlow =>
    have hunits : units? (c :: rest) =
        if c = '\\' ∨ c.toNat < 0x20 then none
        else (units? rest).map fun (units, n) => (c.toNat :: units, n + 1) := by
      simp [units?, hback]
    rw [if_neg (not_or.mpr ⟨hback, hlow⟩)] at hunits
    exact hunits

theorem units?_quoted (t rest : Text) :
    units? (t.flatMap escape ++ '"' :: rest) =
      some (t.map Char.toNat, (t.flatMap escape).length + 1) := by
  induction t with
  | nil => rfl
  | cons c cs ih =>
    rw [List.flatMap_cons, List.append_assoc, units?_append_of_escaped (escaped_escape c), ih]
    simp only [Option.map_some, List.map_cons, List.length_append]
    congr 2
    omega

theorem isSurrogate_toNat (c : Char) :
    isHighSurrogate c.toNat = false ∧ isLowSurrogate c.toNat = false := by
  have hvalid : c.toNat < 0xd800 ∨ (0xdfff < c.toNat ∧ c.toNat < 0x110000) := c.valid
  simp only [isHighSurrogate, isLowSurrogate, Bool.and_eq_false_iff, decide_eq_false_iff_not]
  omega

theorem textOfUnits?_map_toNat (t : Text) : textOfUnits? (t.map Char.toNat) = some t := by
  induction t with
  | nil => rfl
  | cons c cs ih =>
    obtain ⟨hhigh, hlow⟩ := isSurrogate_toNat c
    cases cs with
    | nil => simp [textOfUnits?, hhigh, hlow]
    | cons d ds =>
      rw [List.map_cons] at ih
      simp [textOfUnits?, hhigh, hlow, ih]

/-- What stands behind a value: nothing, or what separates or ends the values around it. -/
def EndsValue (rest : Text) : Prop := ∀ c ∈ rest.head?, c = ',' ∨ c = ']' ∨ c = '}'

theorem read_quoted (t rest : Text) :
    read '"' (t.flatMap escape ++ '"' :: rest) =
      some (some (.atom (.ofText t)), (t.flatMap escape).length + 1) := by
  have hatom : atom? ('"' :: (t.flatMap escape ++ '"' :: rest)) =
      some (.ofText t, (t.flatMap escape).length + 2) := by
    simp [atom?, units?_quoted, textOfUnits?_map_toNat, Value.ofText]
  have hspace : isSpace '"' = false := by decide
  have hpunctuation : (punctuation.lookup '"') = none := by rfl
  simp [read, hspace, hpunctuation, hatom]

theorem head_toDigits (n : Nat) : n = 0 ∨ ∀ c ∈ (Nat.toDigits 10 n).head?, c ≠ '0' := by
  induction n using Nat.strongRecOn with
  | ind n ih =>
    rw [Nat.toDigits_eq_if (by decide)]
    split
    · rcases Nat.eq_zero_or_pos n with hn | hn
      · exact .inl hn
      · refine .inr ?_
        simp [Nat.ne_of_gt hn]
    · rename_i hlarge
      have hhead := (ih (n / 10) (by omega)).resolve_left (by omega)
      obtain ⟨d, ds, hdigits⟩ := List.exists_cons_of_ne_nil (Nat.toDigits_ne_nil (n := n / 10) (b := 10))
      rw [hdigits] at hhead ⊢
      exact .inr hhead

theorem takeWhile_isDigit_toDigits (n : Nat) {rest : Text} (h : EndsValue rest) :
    (Nat.toDigits 10 n ++ rest).takeWhile Char.isDigit = Nat.toDigits 10 n := by
  have hdigits : ∀ c ∈ Nat.toDigits 10 n, c.isDigit = true := fun c hc =>
    Nat.isDigit_of_mem_toDigits (by decide) (by decide) hc
  have hrest : rest.takeWhile Char.isDigit = [] := by
    cases rest with
    | nil => rfl
    | cons c cs =>
      have hc := h c rfl
      rw [List.takeWhile_cons_of_neg]
      rcases hc with rfl | rfl | rfl <;> decide
  rw [List.takeWhile_append_of_pos hdigits, hrest, List.append_nil]

theorem wholeLength?_toDigits (n : Nat) {rest : Text} (h : EndsValue rest) :
    wholeLength? (Nat.toDigits 10 n ++ rest) = some (Nat.toDigits 10 n).length := by
  rcases head_toDigits n with rfl | hhead
  · rw [Nat.toDigits_zero]
    rfl
  · have hlength : digitsLength (Nat.toDigits 10 n ++ rest) = (Nat.toDigits 10 n).length := by
      rw [digitsLength, takeWhile_isDigit_toDigits n h]
    obtain ⟨d, ds, hdigits⟩ := List.exists_cons_of_ne_nil (Nat.toDigits_ne_nil (n := n) (b := 10))
    rw [hdigits] at hhead hlength ⊢
    have hd : d ≠ '0' := hhead d rfl
    have hwhole : wholeLength? (d :: ds ++ rest) =
        if digitsLength (d :: ds ++ rest) = 0 then none else some (digitsLength (d :: ds ++ rest)) := by
      simp [wholeLength?, hd]
    rw [hwhole, hlength]
    rfl

theorem exists_toDigits_eq_cons (n : Nat) :
    ∃ d ds, Nat.toDigits 10 n = d :: ds ∧ d.isDigit = true := by
  obtain ⟨d, ds, hdigits⟩ := List.exists_cons_of_ne_nil (Nat.toDigits_ne_nil (n := n) (b := 10))
  have hd : d ∈ Nat.toDigits 10 n := hdigits ▸ List.mem_cons_self
  exact ⟨d, ds, hdigits, Nat.isDigit_of_mem_toDigits (by decide) (by decide) hd⟩

/-- The numbers that are written have neither sign nor fraction nor exponent. -/
theorem numberLength?_toDigits (n : Nat) {rest : Text} (h : EndsValue rest) :
    numberLength? (Nat.toDigits 10 n ++ rest) = some (Nat.toDigits 10 n).length := by
  have hsign : (Nat.toDigits 10 n).head? ≠ some '-' := by
    obtain ⟨d, ds, hdigits, hd⟩ := exists_toDigits_eq_cons n
    rw [hdigits]
    rintro hminus
    cases hminus
    cases hd
  have hfraction : fractionLength? rest = some 0 := by
    cases rest with
    | nil => rfl
    | cons c cs => rcases h c rfl with rfl | rfl | rfl <;> rfl
  have hexponent : exponentLength? rest = some 0 := by
    cases rest with
    | nil => rfl
    | cons c cs => rcases h c rfl with rfl | rfl | rfl <;> rfl
  simp [numberLength?, hsign, wholeLength?_toDigits n h, hfraction, hexponent]

theorem read_toDigits (n : Nat) {rest : Text} (h : EndsValue rest) :
    ∃ d ds, Nat.toDigits 10 n = d :: ds ∧
      read d (ds ++ rest) = some (some (.atom (.ofNat n)), ds.length) := by
  obtain ⟨d, ds, hdigits, hd⟩ := exists_toDigits_eq_cons n
  have hother (c : Char) (hc : c.isDigit = false) : d ≠ c := by
    rintro rfl
    exact Bool.false_ne_true (hc.symm.trans hd)
  have hspace : isSpace d = false := by
    simp [isSpace, hother ' ' rfl, hother '\t' rfl, hother '\n' rfl, hother '\r' rfl]
  have hpunctuation : punctuation.lookup d = none := by
    rw [List.lookup_eq_none_iff]
    simp [punctuation, hother '[' rfl, hother ']' rfl, hother '\x7b' rfl, hother '\x7d' rfl,
      hother ',' rfl, hother ':' rfl]
  have hliteral : literals.find? (·.1.isPrefixOf (d :: (ds ++ rest))) = none := by
    simp [literals, (hother 'n' rfl).symm, (hother 't' rfl).symm, (hother 'f' rfl).symm]
  have hnumber := numberLength?_toDigits n h
  rw [hdigits, List.cons_append] at hnumber
  have hatom : atom? (d :: (ds ++ rest)) = some (.ofNat n, (d :: ds).length) := by
    simp [atom?, hother '"' rfl, hliteral, hnumber, hdigits, Value.ofNat]
  refine ⟨d, ds, hdigits, ?_⟩
  simp [read, hspace, hpunctuation, hatom]

end Token

theorem all_isDigit_toDigits (n : Nat) : (Nat.toDigits 10 n).all Char.isDigit = true := by
  rw [List.all_eq_true]
  exact fun c hc => Nat.isDigit_of_mem_toDigits (by decide) (by decide) hc

theorem Value.nat?_ofNat {bound n : Nat} (h : n ≤ bound) : nat? bound (ofNat n) = some n := by
  have hnumber : Text.decimalNat (Nat.toDigits 10 n) = n := Nat.ofDigitChars_ten_toDigits
  rw [ofNat, nat?, hnumber, if_pos ⟨all_isDigit_toDigits n, h⟩]

end ConfigAssist.Json
