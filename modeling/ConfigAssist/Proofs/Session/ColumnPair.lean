import ConfigAssist.Proofs.Suggest.WellFormed
import ConfigAssist.Proofs.Text.Column
import Mathlib.Order.Monotone.Defs

/-! Columns in bytes and in UTF-16 units as a pair. Both are found by a walk along the
line that counts units in 32 bits. On a line that is not too long for that each walk
undoes the other between two characters, and elsewhere the one is the largest column
that the other does not carry too far. -/

namespace ConfigAssist.Text

/-- The units up to the first character that begins at the stop or behind it. -/
def walkUnits (stop : Nat) : Nat → Nat → Text → Nat
  | _, units, [] => units
  | offset, units, c :: cs =>
    if stop ≤ offset then units
    else walkUnits stop (offset + utf8 c) (saturated (units + utf16 c)) cs

/-- The offset of the first character that begins at the column or goes past it. -/
def walkBytes (character : Nat) : Nat → Nat → Text → Nat
  | offset, _, [] => offset
  | offset, units, c :: cs =>
    if units = character then offset
    else if character < saturated (units + utf16 c) then offset
    else walkBytes character (offset + utf8 c) (saturated (units + utf16 c)) cs

def walkedUnits (line : Text) (column : Nat) : Nat :=
  walkUnits (min column (size utf8 line)) 0 0 line

def walkedBytes (line : Text) (character : Nat) : Nat := walkBytes character 0 0 line

theorem walkUnits_eq {stop offset units : Nat} {t : Text} (h : units + size utf16 t < UInt32.size) :
    walkUnits stop offset units t = units + unitColumn t (stop - offset) := by
  induction t generalizing offset units with
  | nil => rfl
  | cons c cs ih =>
    rw [size_cons] at h
    rw [walkUnits, unitColumn]
    by_cases hstop : stop ≤ offset
    · rw [if_pos hstop, if_pos (Nat.sub_eq_zero_of_le hstop), Nat.add_zero]
    · rw [if_neg hstop, if_neg (Nat.sub_ne_zero_of_lt (Nat.lt_of_not_le hstop)),
        saturated_of_lt (by omega), ih (by omega), Nat.sub_add_eq, Nat.add_assoc]

/-- While the units have not gone past the column, what is left of it is the budget. -/
theorem walkBytes_eq {character offset units : Nat} {t : Text} (hle : units ≤ character)
    (h : units + size utf16 t < UInt32.size) :
    walkBytes character offset units t = offset + byteColumn t (character - units) := by
  induction t generalizing offset units with
  | nil => rfl
  | cons c cs ih =>
    rw [size_cons] at h
    have hpos := utf16_pos c
    rw [walkBytes, byteColumn, fit, saturated_of_lt (by omega)]
    by_cases heq : units = character
    · rw [if_pos heq, if_neg (by omega), size_nil, Nat.add_zero]
    · rw [if_neg heq]
      by_cases hpast : character < units + utf16 c
      · rw [if_pos hpast, if_neg (by omega), size_nil, Nat.add_zero]
      · rw [if_neg hpast, if_pos (by omega), size_cons, ih (by omega) (by omega), byteColumn,
          Nat.sub_add_eq, Nat.add_assoc]

theorem walkedUnits_eq {line : Text} (h : size utf16 line < UInt32.size) (column : Nat) :
    walkedUnits line column = unitColumn line column := by
  rw [walkedUnits, walkUnits_eq (by omega), Nat.zero_add, Nat.sub_zero, unitColumn_min]

theorem walkedBytes_eq {line : Text} (h : size utf16 line < UInt32.size) (character : Nat) :
    walkedBytes line character = byteColumn line character := by
  rw [walkedBytes, walkBytes_eq (Nat.zero_le _) (by omega), Nat.zero_add, Nat.sub_zero]

/-- Two ways between the columns of a line, in UTF-16 units and in bytes. -/
structure ArePaired (line : Text) (units bytes : Nat → Nat) : Prop where
  back : ∀ column, IsBoundary utf8 line column → bytes (units column) = column
  greatest : ∀ character, IsGreatest
    {column | IsBoundary utf8 line column ∧ units column ≤ character} (bytes character)
  inside : ∀ front c back, line = front ++ c :: back → utf16 c = 2 →
    bytes (size utf16 front + 1) = size utf8 front
  past : ∀ character, size utf16 line ≤ character → bytes character = size utf8 line
  exact : ∀ character, units (bytes character) = character ↔
    (∃ front c back, line = front ++ c :: back ∧ character = size utf16 front) ∨
      character = size utf16 line
  units_mono : Monotone units
  bytes_mono : Monotone bytes
  units_strictMonoOn : StrictMonoOn units {column | IsBoundary utf8 line column}

theorem arePaired_columns (line : Text) : ArePaired line (unitColumn line) (byteColumn line) where
  back _ := byteColumn_unitColumn
  greatest := isGreatest_byteColumn line
  inside := by
    rintro front c back rfl hc
    exact byteColumn_inside hc
  past _ := byteColumn_of_size_le
  exact _ := unitColumn_byteColumn_eq_iff.trans isBoundary_iff
  units_mono := unitColumn_mono line
  bytes_mono := byteColumn_mono line
  units_strictMonoOn := unitColumn_strictMonoOn line

/-- The walks find what comes of measuring the text before a column in the other unit,
and the two are a pair. -/
theorem walks_arePaired {line : Text} (h : size utf16 line < UInt32.size) :
    walkedUnits line = unitColumn line ∧ walkedBytes line = byteColumn line ∧
      ArePaired line (walkedUnits line) (walkedBytes line) := by
  have hunits : walkedUnits line = unitColumn line := funext (walkedUnits_eq h)
  have hbytes : walkedBytes line = byteColumn line := funext (walkedBytes_eq h)
  rw [hunits, hbytes]
  exact ⟨rfl, rfl, arePaired_columns line⟩

/-- The fourth character of the line has two units, and the one before it three bytes. -/
theorem walks_arePaired_emoji :
    let line := "né€😀x".toList
    size utf16 line < UInt32.size ∧ walkedBytes line 4 = 6 ∧ walkedUnits line 6 = 3 ∧
      walkedBytes line 5 = 10 ∧ walkedUnits line 10 = 5 ∧ walkedBytes line 40 = 11 ∧
      ArePaired line (walkedUnits line) (walkedBytes line) := by
  intro line
  have hshort : size utf16 line < UInt32.size := by decide
  obtain ⟨hunits, hbytes, hpaired⟩ := walks_arePaired hshort
  have hend : size utf16 line = 6 := by decide
  refine ⟨hshort, hpaired.inside "né€".toList '😀' ['x'] rfl (by decide), ?_, ?_, ?_,
    hpaired.past 40 (by omega), hpaired⟩
  · rw [hunits]
    decide
  · rw [hbytes]
    decide
  · rw [hunits]
    decide

end ConfigAssist.Text
