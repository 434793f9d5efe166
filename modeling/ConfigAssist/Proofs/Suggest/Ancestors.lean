import ConfigAssist.Suggest.Scope

/-! The ancestors of a line, told by the rows of a document. A search upwards with a falling
limit on the indentation finds them, the nearest one first. -/

namespace ConfigAssist.Scope

open Text

theorem ancestors_zero (above : List Text) : ancestors 0 above = [] := by
  induction above with
  | nil => rfl
  | cons line above ih => simp [ancestors, ih]

/-- A line above a row, not blank, and indented less than a limit and than every line
between it and the row that is not blank. -/
structure IsAncestor (lines : List Text) (indent row i : Nat) (line : Text) : Prop where
  above : i < row
  line_eq : lines[i]? = some line
  nonblank : isBlank line = false
  shallow : Yaml.indentation line < indent
  between : ∀ j other, i < j → j < row → lines[j]? = some other → isBlank other = false →
    Yaml.indentation line < Yaml.indentation other

section

variable {lines : List Text} {indent row i : Nat} {line ancestor : Text}

theorem isAncestor_succ_of_skip (hline : lines[row]? = some line)
    (hskip : isBlank line = true ∨ indent ≤ Yaml.indentation line) :
    IsAncestor lines indent (row + 1) i ancestor ↔ IsAncestor lines indent row i ancestor := by
  constructor
  · intro h
    have hne : i ≠ row := by
      rintro rfl
      obtain rfl : line = ancestor := Option.some.inj (hline.symm.trans h.line_eq)
      rcases hskip with hblank | hle
      · rw [h.nonblank] at hblank
        cases hblank
      · exact absurd h.shallow (Nat.not_lt_of_le hle)
    have habove := h.above
    exact { h with
      above := by omega
      between := fun j other hi hj => h.between j other hi (Nat.lt_succ_of_lt hj) }
  · intro h
    refine { h with above := Nat.lt_succ_of_lt h.above, between := ?_ }
    intro j other hi hj hother hblank
    rcases Nat.lt_succ_iff_lt_or_eq.mp hj with hlt | rfl
    · exact h.between j other hi hlt hother hblank
    · obtain rfl : line = other := Option.some.inj (hline.symm.trans hother)
      rcases hskip with hblank' | hle
      · rw [hblank] at hblank'
        cases hblank'
      · exact Nat.lt_of_lt_of_le h.shallow hle

theorem isAncestor_succ (hline : lines[row]? = some line) (hblank : isBlank line = false)
    (hlt : Yaml.indentation line < indent) :
    IsAncestor lines indent (row + 1) i ancestor ↔
      (i = row ∧ ancestor = line) ∨ IsAncestor lines (Yaml.indentation line) row i ancestor := by
  constructor
  · intro h
    rcases Nat.lt_succ_iff_lt_or_eq.mp h.above with habove | rfl
    · right
      exact { h with
        above := habove
        shallow := h.between row line habove (Nat.lt_succ_self row) hline hblank
        between := fun j other hi hj => h.between j other hi (Nat.lt_succ_of_lt hj) }
    · exact .inl ⟨rfl, Option.some.inj (h.line_eq.symm.trans hline)⟩
  · rintro (⟨rfl, rfl⟩ | h)
    · exact {
        above := Nat.lt_succ_self i
        line_eq := hline
        nonblank := hblank
        shallow := hlt
        between := fun j other hi hj => by omega }
    · refine { h with
        above := Nat.lt_succ_of_lt h.above
        shallow := Nat.lt_trans h.shallow hlt
        between := ?_ }
      intro j other hi hj hother hblank'
      rcases Nat.lt_succ_iff_lt_or_eq.mp hj with hlt' | rfl
      · exact h.between j other hi hlt' hother hblank'
      · obtain rfl : line = other := Option.some.inj (hline.symm.trans hother)
        exact h.shallow

theorem reverse_take_succ (hline : lines[row]? = some line) :
    (lines.take (row + 1)).reverse = line :: (lines.take row).reverse := by
  rw [List.take_add_one, hline, Option.toList_some, List.reverse_append, List.reverse_singleton,
    List.singleton_append]

theorem ancestors_succ_of_skip (hline : lines[row]? = some line)
    (hskip : isBlank line = true ∨ indent ≤ Yaml.indentation line) :
    ancestors indent (lines.take (row + 1)).reverse = ancestors indent (lines.take row).reverse := by
  rw [reverse_take_succ hline, ancestors, if_pos]
  rwa [Bool.or_eq_true, decide_eq_true_eq]

theorem ancestors_succ (hline : lines[row]? = some line) (hblank : isBlank line = false)
    (hlt : Yaml.indentation line < indent) :
    ancestors indent (lines.take (row + 1)).reverse =
      line :: ancestors (Yaml.indentation line) (lines.take row).reverse := by
  rw [reverse_take_succ hline, ancestors, if_neg]
  rw [hblank, Bool.false_or, decide_eq_true_eq]
  exact Nat.not_le_of_lt hlt

theorem mem_ancestors_iff (hrow : row ≤ lines.length) :
    ancestor ∈ ancestors indent (lines.take row).reverse ↔
      ∃ i, IsAncestor lines indent row i ancestor := by
  -- each ancestor lowers the limit for those above it
  induction row generalizing indent with
  | zero =>
    simp only [List.take_zero, List.reverse_nil, ancestors, List.not_mem_nil, false_iff]
    rintro ⟨i, h⟩
    exact Nat.not_lt_zero i h.above
  | succ row ih =>
    have hline := List.getElem?_eq_getElem (Nat.lt_of_succ_le hrow)
    generalize lines[row] = line at hline
    by_cases hskip : isBlank line = true ∨ indent ≤ Yaml.indentation line
    · rw [ancestors_succ_of_skip hline hskip]
      simp only [isAncestor_succ_of_skip hline hskip]
      exact ih (Nat.le_of_succ_le hrow)
    · rw [not_or, Bool.not_eq_true, Nat.not_le] at hskip
      rw [ancestors_succ hline hskip.1 hskip.2, List.mem_cons, ih (Nat.le_of_succ_le hrow)]
      simp only [isAncestor_succ hline hskip.1 hskip.2]
      constructor
      · rintro (rfl | ⟨i, h⟩)
        · exact ⟨row, .inl ⟨rfl, rfl⟩⟩
        · exact ⟨i, .inr h⟩
      · rintro ⟨i, ⟨-, rfl⟩ | h⟩
        · exact .inl rfl
        · exact .inr ⟨i, h⟩

/-- What the ancestors are searched for is found at the nearest one that has it. -/
theorem findSome?_ancestors_iff {α : Type} {f : Text → Option α} {a : α} (hrow : row ≤ lines.length) :
    (ancestors indent (lines.take row).reverse).findSome? f = some a ↔
      ∃ i ancestor, IsAncestor lines indent row i ancestor ∧ f ancestor = some a ∧
        ∀ j nearer, IsAncestor lines indent row j nearer → i < j → f nearer = none := by
  induction row generalizing indent with
  | zero =>
    simp only [List.take_zero, List.reverse_nil, ancestors, List.findSome?_nil, reduceCtorEq, false_iff]
    rintro ⟨i, ancestor, h, -⟩
    exact Nat.not_lt_zero i h.above
  | succ row ih =>
    have hline := List.getElem?_eq_getElem (Nat.lt_of_succ_le hrow)
    generalize lines[row] = line at hline
    by_cases hskip : isBlank line = true ∨ indent ≤ Yaml.indentation line
    · rw [ancestors_succ_of_skip hline hskip]
      simp only [isAncestor_succ_of_skip hline hskip]
      exact ih (Nat.le_of_succ_le hrow)
    rw [not_or, Bool.not_eq_true, Nat.not_le] at hskip
    rw [ancestors_succ hline hskip.1 hskip.2]
    simp only [isAncestor_succ hline hskip.1 hskip.2]
    cases hf : f line with
    | some b =>
      rw [List.findSome?_cons_of_isSome (by rw [hf]; rfl), hf]
      constructor
      · intro hb
        refine ⟨row, line, .inl ⟨rfl, rfl⟩, hf.trans hb, ?_⟩
        rintro j nearer (⟨rfl, -⟩ | h) hj
        · omega
        · exact absurd h.above (Nat.lt_asymm hj)
      · rintro ⟨i, ancestor, ⟨rfl, rfl⟩ | h, ha, hnearer⟩
        · exact hf.symm.trans ha
        · have hnone := hnearer row line (.inl ⟨rfl, rfl⟩) h.above
          rw [hf] at hnone
          cases hnone
    | none =>
      rw [List.findSome?_cons_of_isNone (by rw [hf]; rfl), ih (Nat.le_of_succ_le hrow)]
      constructor
      · rintro ⟨i, ancestor, h, ha, hnearer⟩
        refine ⟨i, ancestor, .inr h, ha, ?_⟩
        rintro j nearer (⟨-, rfl⟩ | h') hj
        · exact hf
        · exact hnearer j nearer h' hj
      · rintro ⟨i, ancestor, ⟨rfl, rfl⟩ | h, ha, hnearer⟩
        · rw [hf] at ha
          cases ha
        · exact ⟨i, ancestor, h, ha, fun j nearer h' => hnearer j nearer (.inr h')⟩

end

end ConfigAssist.Scope
