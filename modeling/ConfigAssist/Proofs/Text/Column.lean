import ConfigAssist.Proofs.Text.Offset
import ConfigAssist.Text.Column
import Mathlib.Data.Nat.Basic
import Mathlib.Order.Bounds.Defs
import Mathlib.Order.Monotone.Defs

/-! Columns in two units. Every place between two characters has a column in bytes and
one in UTF-16 units, and each is what becomes of the other. -/

namespace ConfigAssist.Text

theorem utf16_le_utf8 (c : Char) : utf16 c ≤ utf8 c := by
  have hwide : ¬ c.toNat < 0x10000 → c.utf8Size = 4 := by
    intro hc
    have hvalue : ¬ c.val.toNat ≤ 0xffff := fun hle => hc (Nat.lt_succ_of_le hle)
    have h1 : ¬ c.val ≤ 0x7f := fun hle => hvalue (Nat.le_trans hle (by decide))
    have h2 : ¬ c.val ≤ 0x7ff := fun hle => hvalue (Nat.le_trans hle (by decide))
    have h3 : ¬ c.val ≤ 0xffff := fun hle => hvalue hle
    simp [Char.utf8Size, h1, h2, h3]
  have hpos := utf8_pos c
  unfold utf16
  split
  · exact hpos
  · rename_i hc
    rw [utf8, hwide hc]
    decide

theorem utf16_cases (c : Char) : utf16 c = 1 ∨ utf16 c = 2 := by
  unfold utf16
  split
  · exact .inl rfl
  · exact .inr rfl

theorem size_utf16_le (t : Text) : size utf16 t ≤ size utf8 t := by
  induction t with
  | nil => exact Nat.le_refl 0
  | cons c cs ih => exact Nat.add_le_add (utf16_le_utf8 c) ih

theorem unitColumn_append (before after : Text) :
    unitColumn (before ++ after) (size utf8 before) = size utf16 before := by
  induction before with
  | nil => cases after <;> simp [unitColumn]
  | cons c cs ih =>
    have hpos := utf8_pos c
    have hne : ¬ utf8 c + size utf8 cs = 0 := by omega
    have hrest : utf8 c + size utf8 cs - utf8 c = size utf8 cs := by omega
    rw [List.cons_append, size_cons, size_cons, unitColumn, if_neg hne, hrest, ih]

theorem unitColumn_mono (line : Text) : Monotone (unitColumn line) := by
  intro column column' hle
  induction line generalizing column column' with
  | nil => exact Nat.le_refl 0
  | cons c cs ih =>
    by_cases hzero : column = 0
    · rw [unitColumn, if_pos hzero]
      exact Nat.zero_le _
    · rw [unitColumn, unitColumn, if_neg hzero, if_neg (by omega)]
      exact Nat.add_le_add_left (ih (Nat.sub_le_sub_right hle _)) _

theorem unitColumn_min (line : Text) (column : Nat) :
    unitColumn line (min column (size utf8 line)) = unitColumn line column := by
  induction line generalizing column with
  | nil => rfl
  | cons c cs ih =>
    have hpos := utf8_pos c
    rw [unitColumn, unitColumn, size_cons]
    by_cases hzero : column = 0
    · rw [if_pos hzero, if_pos (by omega)]
    · have hrest : min column (utf8 c + size utf8 cs) - utf8 c = min (column - utf8 c) (size utf8 cs) := by
        omega
      rw [if_neg hzero, if_neg (by omega), hrest, ih]

theorem byteColumn_append (before after : Text) :
    byteColumn (before ++ after) (size utf16 before) = size utf8 before := by
  rw [byteColumn, fit_append utf16_pos]

theorem isBoundary_byteColumn (line : Text) (character : Nat) :
    IsBoundary utf8 line (byteColumn line character) := by
  obtain ⟨after, hline⟩ := fit_prefix utf16 character line
  exact ⟨_, after, hline.symm, rfl⟩

theorem byteColumn_unitColumn {line : Text} {column : Nat} (h : IsBoundary utf8 line column) :
    byteColumn line (unitColumn line column) = column := by
  obtain ⟨before, after, rfl, rfl⟩ := h
  rw [unitColumn_append, byteColumn_append]

theorem unitColumn_byteColumn (line : Text) (character : Nat) :
    unitColumn line (byteColumn line character) = size utf16 (fit utf16 character line) := by
  obtain ⟨after, hline⟩ := fit_prefix utf16 character line
  have hcolumn := unitColumn_append (fit utf16 character line) after
  rwa [hline] at hcolumn

theorem unitColumn_byteColumn_eq_iff {line : Text} {character : Nat} :
    unitColumn line (byteColumn line character) = character ↔ IsBoundary utf16 line character := by
  rw [unitColumn_byteColumn]
  constructor
  · intro h
    rw [← h]
    exact isBoundary_fit character line
  · rintro ⟨before, after, rfl, rfl⟩
    rw [fit_append utf16_pos]

/-- A boundary lies behind a column in both units or in neither. -/
theorem le_byteColumn_iff {line : Text} {column character : Nat} (h : IsBoundary utf8 line column) :
    column ≤ byteColumn line character ↔ unitColumn line column ≤ character := by
  constructor
  · intro hle
    have hunits := unitColumn_mono line hle
    rw [unitColumn_byteColumn] at hunits
    exact Nat.le_trans hunits (size_fit_le utf16 character line)
  · obtain ⟨before, after, rfl, rfl⟩ := h
    rw [unitColumn_append]
    exact fun hle => size_le_of_prefix (prefix_fit (List.prefix_append before after) hle)

theorem isGreatest_byteColumn (line : Text) (character : Nat) :
    IsGreatest {column | IsBoundary utf8 line column ∧ unitColumn line column ≤ character}
      (byteColumn line character) := by
  have hboundary := isBoundary_byteColumn line character
  refine ⟨⟨hboundary, (le_byteColumn_iff hboundary).mp (Nat.le_refl _)⟩, ?_⟩
  rintro column ⟨hcolumn, hle⟩
  exact (le_byteColumn_iff hcolumn).mpr hle

theorem byteColumn_mono (line : Text) : Monotone (byteColumn line) := by
  intro character character' hle
  obtain ⟨⟨hboundary, hunits⟩, -⟩ := isGreatest_byteColumn line character
  exact (le_byteColumn_iff hboundary).mpr (Nat.le_trans hunits hle)

theorem unitColumn_strictMonoOn (line : Text) :
    StrictMonoOn (unitColumn line) {column | IsBoundary utf8 line column} := by
  intro column hcolumn column' hcolumn' hlt
  refine Nat.lt_of_le_of_ne (unitColumn_mono line (Nat.le_of_lt hlt)) ?_
  intro heq
  -- the same units are carried back to the same bytes
  have hback := byteColumn_unitColumn hcolumn
  rw [heq, byteColumn_unitColumn hcolumn'] at hback
  exact Nat.ne_of_gt hlt hback

theorem byteColumn_of_size_le {line : Text} {character : Nat} (h : size utf16 line ≤ character) :
    byteColumn line character = size utf8 line := by
  have hall : line <+: fit utf16 character line := prefix_fit (List.prefix_refl line) h
  have hpart := fit_prefix utf16 character line
  rw [byteColumn, hpart.eq_of_length_le hall.length_le]

/-- A boundary is the start of a character or the end of the text. -/
theorem isBoundary_iff {unit : Char → Nat} {t : Text} {offset : Nat} :
    IsBoundary unit t offset ↔
      (∃ front c back, t = front ++ c :: back ∧ offset = size unit front) ∨ offset = size unit t := by
  constructor
  · rintro ⟨before, after, rfl, rfl⟩
    cases after with
    | nil =>
      rw [List.append_nil]
      exact .inr rfl
    | cons c cs => exact .inl ⟨before, c, cs, rfl, rfl⟩
  · rintro (⟨front, c, back, rfl, rfl⟩ | rfl)
    · exact ⟨front, c :: back, rfl, rfl⟩
    · exact ⟨t, [], (List.append_nil t).symm, rfl⟩

/-- A column in UTF-16 units that falls between the two units of a character. -/
def InsidePair (line : Text) (character : Nat) : Prop :=
  ∃ front c back, line = front ++ c :: back ∧ utf16 c = 2 ∧ character = size utf16 front + 1

theorem not_insidePair_of_append (before after : Text) :
    ¬ InsidePair (before ++ after) (size utf16 before) := by
  rintro ⟨front, c, back, hline, hc, hcharacter⟩
  have hsingle : size utf16 [c] = 2 := hc
  have hsplit : front ++ ([c] ++ back) = before ++ after := hline.symm
  obtain ⟨u, v, hinner, hne, hbefore, -⟩ :=
    split_inside utf16_pos hsplit (by omega) (by omega)
  cases u with
  | nil =>
    rw [hbefore, List.append_nil] at hcharacter
    omega
  | cons d u =>
    have hlength := congrArg List.length hinner
    have hpos := List.length_pos_iff.mpr hne
    simp only [List.length_cons, List.length_append, List.length_nil] at hlength
    omega

theorem not_insidePair_of_le {line : Text} {character : Nat} (h : size utf16 line ≤ character) :
    ¬ InsidePair line character := by
  rintro ⟨front, c, back, rfl, hc, hcharacter⟩
  rw [size_append, size_cons] at h
  omega

/-- The place in a line that a column in UTF-16 units stands for: the last one that is
not behind it. -/
structure IsPlace (line : Text) (character column units : Nat) : Prop where
  between : ∃ before after, line = before ++ after ∧ size utf8 before = column ∧
    size utf16 before = units
  within : units ≤ character
  greatest : ∀ front back, line = front ++ back → size utf16 front ≤ character →
    size utf8 front ≤ column
  lowered : InsidePair line character → units + 1 = character
  exact : ¬ InsidePair line character → units = min character (size utf16 line)

theorem isPlace_byteColumn (line : Text) (character : Nat) :
    IsPlace line character (byteColumn line character) (size utf16 (fit utf16 character line)) := by
  obtain ⟨after, hline, hafter⟩ : ∃ after, line = fit utf16 character line ++ after ∧
      ∀ c ∈ after.head?, character < size utf16 (fit utf16 character line) + utf16 c :=
    exists_fit_append character line
  have hwithin := size_fit_le utf16 character line
  have hboundary := not_insidePair_of_append (fit utf16 character line) after
  rw [← hline] at hboundary
  have hsize := congrArg (size utf16) hline
  rw [size_append] at hsize
  refine ⟨⟨_, after, hline, rfl, rfl⟩, hwithin, ?_, ?_, ?_⟩
  · intro front back hsplit hfront
    exact size_le_of_prefix (prefix_fit ⟨back, hsplit.symm⟩ hfront)
  · intro hinside
    have hne : size utf16 (fit utf16 character line) ≠ character := by
      intro heq
      rw [heq] at hboundary
      exact hboundary hinside
    cases after with
    | nil =>
      rw [size_nil, Nat.add_zero] at hsize
      exact absurd hinside (not_insidePair_of_le (by omega))
    | cons c cs =>
      have hc := hafter c rfl
      have hunits := utf16_cases c
      omega
  · intro houtside
    cases after with
    | nil =>
      rw [size_nil] at hsize
      omega
    | cons c cs =>
      have hc := hafter c rfl
      rw [size_cons] at hsize
      rcases utf16_cases c with hone | htwo
      · omega
      · have hne : character ≠ size utf16 (fit utf16 character line) + 1 := fun heq =>
          houtside ⟨fit utf16 character line, c, cs, hline, htwo, heq⟩
        omega

/-- A column inside a surrogate pair stands for the start of its character. -/
theorem byteColumn_inside {front back : Text} {c : Char} (hc : utf16 c = 2) :
    byteColumn (front ++ c :: back) (size utf16 front + 1) = size utf8 front := by
  have hunits := (isPlace_byteColumn (front ++ c :: back) (size utf16 front + 1)).lowered
    ⟨front, c, back, rfl, hc, rfl⟩
  obtain ⟨after, hline⟩ := fit_prefix utf16 (size utf16 front + 1) (front ++ c :: back)
  rw [byteColumn, (append_inj_of_size utf16_pos hline (Nat.succ.inj hunits)).1]

end ConfigAssist.Text
